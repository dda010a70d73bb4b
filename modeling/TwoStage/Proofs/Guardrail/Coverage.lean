import TwoStage.Proofs.Compilation.Prepared

/-!
# What the guardrail covers

A view's scripts and, if it bakes them, its variables come from both stages. Every one of them is
among the texts that the guardrail has checked, so in a document that was read and has passed none
of them holds an opener.
-/

namespace TwoStage

namespace Guardrail

lemma mem_baked_of_script {s : Spec} {m : Merged} {stage : Stage} {hook : Hook} {entry : String}
    (h : entry ∈ (s.stage stage).scripts.entries hook) : ∃ b ∈ baked s m, b.text = entry := by
  obtain ⟨i, hi, rfl⟩ := List.mem_iff_getElem.1 h
  refine ⟨⟨FieldPath.item (FieldPath.below (stage.path "custom") hook.key) i, _, bakeryOf hook⟩,
    List.mem_append.2 (.inl (List.mem_flatMap.2 ⟨stage, by cases stage <;> decide, ?_⟩)), rfl⟩
  refine List.mem_append.2 (.inl (List.mem_flatMap.2 ⟨hook, by cases hook <;> decide, ?_⟩))
  exact List.mem_mapIdx.2 ⟨i, hi, rfl⟩

lemma mem_baked_of_variable {s : Spec} {m : Merged} {stage : Stage} {v : String × String}
    (hbakes : bakesEnvironment s stage = true) (h : v ∈ (s.stage stage).environment.entries) :
    ∃ b ∈ baked s m, b.text = v.2 := by
  refine ⟨⟨FieldPath.below (stage.path "environment") v.1, v.2, .bakedEnvironment⟩,
    List.mem_append.2 (.inl (List.mem_flatMap.2 ⟨stage, by cases stage <;> decide, ?_⟩)), rfl⟩
  refine List.mem_append.2 (.inr ?_)
  rw [bakedVariables, if_pos hbakes]
  exact List.mem_map.2 ⟨v, h, rfl⟩

/-- A text that the guardrail has let through has no marker of the compose round. -/
lemma firstComposeMarker?_eq_none {s : Spec} {m : Merged} {mode : OutputMode}
    (h : check s m mode = .ok ()) : ∀ b ∈ baked s m, firstComposeMarker? b.text = none := by
  obtain ⟨⟨⟩, hbaked, -⟩ := Outcome.bind_eq_ok_iff.1 h
  intro b hb
  have hcheck := Outcome.forM_eq_ok_iff.1 hbaked b hb
  unfold checkBaked at hcheck
  split at hcheck
  next => simp at hcheck
  next hnone => exact hnone

end Guardrail

namespace StageView

/-- Every script of a view is a script of a stage. -/
lemma exists_of_mem_scripts {s : Spec} {stage : Stage} {hook : Hook} {entry : String}
    (h : entry ∈ (StageView.of s (Merged.ofSpec s) stage).scripts.entries hook) :
    ∃ owner, entry ∈ (s.stage owner).scripts.entries hook := by
  cases stage with
  | first => exact ⟨.first, h⟩
  | second =>
    cases hook with
    | onBuild => exact ⟨.second, h⟩
    | _ => exact (List.mem_append.1 h).elim (fun h => ⟨.first, h⟩) fun h => ⟨.second, h⟩

/-- Every variable of a view is one of a stage, which is baked if the view bakes its own. -/
lemma exists_of_mem_environment {s : Spec} {stage : Stage} {v : String × String}
    (h : v ∈ (StageView.of s (Merged.ofSpec s) stage).environment.entries) :
    ∃ owner, v ∈ (s.stage owner).environment.entries ∧
      ((StageView.of s (Merged.ofSpec s) stage).bakeEnvironment = true →
        Guardrail.bakesEnvironment s owner = true) := by
  cases stage with
  | first =>
    refine ⟨.first, h, fun hbakes => ?_⟩
    simp only [Guardrail.bakesEnvironment, Bool.or_eq_true]
    exact .inl hbakes
  | second =>
    rcases OrderedMap.mem_of_mem_insertAll h with h | h
    · exact ⟨.first, h, fun hbakes => by
        simp only [Guardrail.bakesEnvironment, Bool.or_eq_true, decide_true, Bool.true_and]
        exact .inr hbakes⟩
    · exact ⟨.second, h, fun hbakes => by
        simp only [Guardrail.bakesEnvironment, Bool.or_eq_true]
        exact .inl hbakes⟩

end StageView

namespace Compilation

variable {ctx : Context} {generator : Generator} {d : Document} {c : Compilation}
  {vars : String → Option String} {text : String} {source? : Option Path}

lemma Prepared.mem_baked_of_script (h : Prepared ctx generator d c) {stage : Stage} {hook : Hook}
    {entry : String} (hmem : entry ∈ (c.view stage).scripts.entries hook) :
    ∃ b ∈ Guardrail.baked c.spec c.merged, b.text = entry := by
  rw [view_eq h] at hmem
  obtain ⟨owner, howner⟩ := StageView.exists_of_mem_scripts hmem
  exact Guardrail.mem_baked_of_script howner

lemma Prepared.mem_baked_of_variable (h : Prepared ctx generator d c) {stage : Stage}
    (hbakes : (c.view stage).bakeEnvironment = true) {v : String × String}
    (hmem : v ∈ (c.view stage).environment.entries) :
    ∃ b ∈ Guardrail.baked c.spec c.merged, b.text = v.2 := by
  rw [view_eq h] at hmem hbakes
  obtain ⟨owner, howner, hbaked⟩ := StageView.exists_of_mem_environment hmem
  exact Guardrail.mem_baked_of_variable (hbaked hbakes) howner

/-- No script of a view holds an opener. -/
lemma Prepared.openerFree_script (h : Prepared ctx generator { d with source? } c)
    (hread : Document.ofText vars text = .ok d) {stage : Stage} {hook : Hook} {entry : String}
    (hmem : entry ∈ (c.view stage).scripts.entries hook) : OpenerFree entry.toList := by
  have hspec := h.spec_holds Settled.stable hread (Document.holds_settled_of_ofText hread)
  obtain ⟨b, hb, rfl⟩ := h.mem_baked_of_script hmem
  rw [view_eq h] at hmem
  obtain ⟨owner, howner⟩ := StageView.exists_of_mem_scripts hmem
  have hsettled := (hspec.stage owner).scripts hook _ howner
  exact hsettled.openerFree (Guardrail.firstComposeMarker?_eq_none h.guardrail b hb)

/-- No variable that a view bakes holds an opener. -/
lemma Prepared.openerFree_variable (h : Prepared ctx generator { d with source? } c)
    (hread : Document.ofText vars text = .ok d) {stage : Stage}
    (hbakes : (c.view stage).bakeEnvironment = true) {v : String × String}
    (hmem : v ∈ (c.view stage).environment.entries) : OpenerFree v.2.toList := by
  have hview := h.view_holds Settled.stable hread (Document.holds_settled_of_ofText hread) stage
  obtain ⟨b, hb, heq⟩ := h.mem_baked_of_variable hbakes hmem
  have hnone := Guardrail.firstComposeMarker?_eq_none h.guardrail b hb
  rw [heq] at hnone
  exact Settled.openerFree (hview.environment v hmem).2 hnone

/-- No text of a document that is compiled to a single artifact holds an opener. -/
lemma Prepared.openerFree_tree (h : Prepared ctx generator { d with source? } c)
    (hread : Document.ofText vars text = .ok d) (hmode : ctx.mode = .singleArtifact) :
    d.tree.Holds (OnChars OpenerFree) := by
  have htree : c.spec.tree = d.tree := by
    obtain ⟨_, _, _, -, -, -, -, heq⟩ := Spec.ofDocument_eq_ok_iff.1 h.spec
    rw [heq]
  have hguardrail := h.guardrail
  rw [hmode] at hguardrail
  obtain ⟨⟨⟩, -, hcheck⟩ := Outcome.bind_eq_ok_iff.1 hguardrail
  intro s hs
  obtain ⟨⟨path, s⟩, hmem, rfl⟩ := List.mem_map.1 hs
  have htext := Outcome.forM_eq_ok_iff.1 hcheck (path, s) (htree ▸ hmem)
  apply Settled.openerFree (Document.holds_settled_of_ofText hread s hs)
  simp only [Guardrail.checkText] at htext
  split at htext
  next => simp at htext
  next hnone => exact hnone

end Compilation

end TwoStage
