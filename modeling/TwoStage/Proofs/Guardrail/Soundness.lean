import TwoStage.Proofs.Artifact.Openers
import TwoStage.Proofs.Document.Characters

/-!
# Soundness of the guardrail

Compose never sees the wrappers, the entry points and the baked variables of the stages. Whatever a
document says, if it passes the guardrail then none of these files holds an opener of either round,
and every script and every baked variable of a view has been checked, whichever stage it comes from.
-/

namespace TwoStage.Guardrail

open Emission

variable {ctx : Context} {generator : Generator} {d : Document} {c : Compilation}
  {vars : String → Option String} {text : String} {source? : Option Path}

/-- No file that compose never sees holds an opener, and every text that gets into one of them has
been checked. -/
theorem openerFree_of_emit (hread : Document.ofText vars text = .ok d)
    (hprepare : Compilation.prepare ctx generator { d with source? } = .ok c) {tree : Yaml.Tree}
    {artifacts : Artifacts} (hemit : emit c tree = .ok artifacts) (stage : Stage) :
    (∀ name ∈ bakedNames, ∀ a ∈ artifacts.items,
      a.path.same (stage.generatedDir.child name) = true →
        ∀ round : Round, ¬ round.opener <:+: a.contents.toList) ∧
    (∀ hook : Hook, ∀ entry ∈ (c.view stage).scripts.entries hook,
      ∃ b ∈ baked c.spec c.merged, b.text = entry ∧ checkBaked b = .ok ()) ∧
    ((c.view stage).bakeEnvironment = true → ∀ v ∈ (c.view stage).environment.entries,
      ∃ b ∈ baked c.spec c.merged, b.text = v.2 ∧ checkBaked b = .ok ()) := by
  have h := Compilation.prepared_of_prepare hprepare
  have hcheck : ∀ b ∈ baked c.spec c.merged, checkBaked b = .ok () := by
    obtain ⟨⟨⟩, hbaked, -⟩ := Outcome.bind_eq_ok_iff.1 h.guardrail
    exact Outcome.forM_eq_ok_iff.1 hbaked
  refine ⟨fun name hname a ha hsame => ?_, fun hook entry hentry => ?_, fun hbakes v hv => ?_⟩
  · obtain ⟨as, has, rfl⟩ := Outcome.map_eq_ok_iff.1 hemit
    have hisName := isName_of_mem_bakedNames name hname
    obtain ⟨hcompose, hbuild, hkeys⟩ := ne_of_mem_bakedNames name hname
    rcases mem_files_cases has (mem_of_mem_ofList ha) with
      ⟨_, rfl⟩ | ⟨_, rfl⟩ | ⟨owner, hfile⟩ | ⟨u, hu, hfile⟩
    · have hcomposeName : (Path.ofString composeName).fileName? = some composeName.toList := by
        decide
      exact absurd hsame (not_same_of_fileName? hisName hcomposeName hcompose)
    · have hbuildName :
          (Path.ofString buildScriptName).fileName? = some buildScriptName.toList := by decide
      exact absurd hsame (not_same_of_fileName? hisName hbuildName hbuild)
    · exact h.openerFree_stageFiles hread owner a hfile
    · obtain ⟨other, hother, hpath⟩ := h.fileName?_of_mem_userFiles hu hfile
      exact absurd hsame (not_same_of_fileName? hisName hpath (hkeys other hother))
  · obtain ⟨b, hb, heq⟩ := h.mem_baked_of_script hentry
    exact ⟨b, hb, heq, hcheck b hb⟩
  · obtain ⟨b, hb, heq⟩ := h.mem_baked_of_variable hbakes hv
    exact ⟨b, hb, heq, hcheck b hb⟩

/-- The second stage bakes a variable of the first, whose value has braces in it. -/
theorem openerFree_of_inherited : ∃ d c artifacts a,
    Document.ofText (fun _ => none)
      ("stage_1:\n image:\n  base: a\n environment: ['A=\x7b$\x7d']\n" ++
        "stage_2:\n bake_environment: true") = .ok d ∧
    Compilation.prepare .bare .none { d with source? := none } = .ok c ∧
    emit c (.mapping []) = .ok artifacts ∧ a ∈ artifacts.items ∧
    a.path.same (Stage.second.generatedDir.child BuildArguments.bakedEnvironmentName) = true ∧
    ∀ round : Round, ¬ round.opener <:+: a.contents.toList := by
  have hrun : ((Document.ofText (fun _ => none)
      ("stage_1:\n image:\n  base: a\n environment: ['A=\x7b$\x7d']\n" ++
        "stage_2:\n bake_environment: true")).toOption.bind fun d =>
      (Compilation.prepare .bare .none { d with source? := none }).toOption.bind fun c =>
        (emit c (.mapping [])).toOption.map fun artifacts => artifacts.items.any fun a =>
          a.path.same (Stage.second.generatedDir.child BuildArguments.bakedEnvironmentName)) =
      some true := by
    rw [Document.ofText_eq_ofChars, String.toList_append, String.toList_ofList,
      String.toList_ofList]
    decide +kernel
  obtain ⟨d, hd, hrun⟩ := Outcome.toOption_bind_eq_some_iff.1 hrun
  obtain ⟨c, hc, hrun⟩ := Outcome.toOption_bind_eq_some_iff.1 hrun
  obtain ⟨artifacts, hartifacts, hrun⟩ := Outcome.toOption_map_eq_some_iff.1 hrun
  obtain ⟨a, ha, hsame⟩ := List.any_eq_true.1 hrun
  exact ⟨d, c, artifacts, a, hd, hc, hartifacts, ha, hsame,
    (openerFree_of_emit hd hc hartifacts .second).1 _ (by decide) a ha hsame⟩

end TwoStage.Guardrail
