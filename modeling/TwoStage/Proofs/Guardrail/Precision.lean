import TwoStage.Proofs.Document.Characters
import TwoStage.Proofs.Guardrail.Coverage
import TwoStage.Proofs.Spec.WellFormed

/-!
# Precision of the guardrail

The guardrail looks at the stages as they are written, but what is baked are the views of the merged
stages. When it refuses a document whose artifacts are run by compose, then a marker stands in a
text that compose never sees, or in one of two kinds of text that get nowhere: a variable of the
first stage that only the second bakes, and bakes with a value of its own, and the key of a user
whose SSH settings are disabled.
-/

namespace TwoStage

/-- What a document gives for a key, if it gives one. -/
def KeySource.given? : KeySource → Option String
  | .file path => some path
  | .text key  => some key
  | .absent    => none

namespace Guardrail

/-! ### Texts that compose never sees -/

def Marked (texts : List String) : Prop := ∃ text ∈ texts, hasComposeMarker text = true

instance : DecidablePred Marked := fun texts =>
  inferInstanceAs (Decidable (∃ text ∈ texts, hasComposeMarker text = true))

def hookEntries (s : StageSpec) : List String := Hook.all.flatMap s.scripts.entries

def valuesOf (e : Environment) : List String := e.entries.map Prod.snd

/-- The values in the profile script of a view, which has one if it bakes its environment. -/
def bakedValues (v : StageView) : List String :=
  if v.bakeEnvironment then valuesOf v.environment else []

def keySources (ssh : Ssh) : List String :=
  ssh.users.flatMap fun user =>
    (user.source .publicKey).given?.toList ++ (user.source .privateKey).given?.toList

/-- The texts of a document that get into files which compose never reads. -/
def unseen (s : Spec) : List String :=
  (Stage.all.flatMap fun stage =>
    hookEntries (s.stage stage) ++ bakedValues (StageView.of s (Merged.ofSpec s) stage)) ++
  ((Merged.ofSpec s).ssh?.filter fun ssh => ssh.settings.enabled).toList.flatMap fun ssh =>
    keySources ssh.settings

/-- The values of the variables in `e` that `f` exports again. -/
def overriddenValues (e f : Environment) : List String :=
  (e.entries.filter fun v => v.1 ∈ f.keys).map Prod.snd

/-- A marker stands in a variable that the first stage does not bake, and that the second bakes with
a value of its own. -/
def MarkedOverridden (s : Spec) : Prop :=
  s.first.bakeEnvironment = false ∧ s.second.bakeEnvironment = true ∧
    Marked (overriddenValues s.first.environment s.second.environment)

/-- A marker stands in a key of the SSH settings in effect, which are disabled. -/
def MarkedDisabled (s : Spec) : Prop :=
  ∃ ssh, (Merged.ofSpec s).ssh? = some ssh ∧ ssh.settings.enabled = false ∧
    Marked (keySources ssh.settings)

@[simp]
lemma not_marked_nil : ¬ Marked [] := by simp [Marked]

@[simp]
lemma marked_append {texts texts' : List String} :
    Marked (texts ++ texts') ↔ Marked texts ∨ Marked texts' := by
  simp only [Marked, List.mem_append, or_and_right, exists_or]

lemma marked_values_iff {vs : List (String × String)} :
    Marked (vs.map Prod.snd) ↔ ∃ v ∈ vs, hasComposeMarker v.2 = true := by
  constructor
  · rintro ⟨text, htext, hmarker⟩
    obtain ⟨v, hv, rfl⟩ := List.mem_map.1 htext
    exact ⟨v, hv, hmarker⟩
  · rintro ⟨v, hv, hmarker⟩
    exact ⟨v.2, List.mem_map_of_mem hv, hmarker⟩

lemma marked_valuesOf_iff {e : Environment} :
    Marked (valuesOf e) ↔ ∃ v ∈ e.entries, hasComposeMarker v.2 = true := marked_values_iff

lemma marked_overriddenValues_iff {e f : Environment} :
    Marked (overriddenValues e f) ↔
      ∃ v ∈ e.entries, v.1 ∈ f.keys ∧ hasComposeMarker v.2 = true := by
  rw [overriddenValues, marked_values_iff]
  simp only [List.mem_filter, decide_eq_true_eq, and_assoc]

/-! ### Texts that are checked -/

lemma map_text_bakedScripts (stage : Stage) (s : StageSpec) :
    (bakedScripts stage s).map Baked.text = hookEntries s := by
  unfold bakedScripts hookEntries
  rw [List.map_flatMap]
  congr 1
  funext hook
  simp [List.mapIdx_eq_zipIdx_map, Function.comp_def]

lemma map_text_bakedVariables (s : Spec) (stage : Stage) :
    (bakedVariables s stage).map Baked.text =
      if bakesEnvironment s stage then valuesOf (s.stage stage).environment else [] := by
  unfold bakedVariables valuesOf
  split <;> simp

lemma map_text_bakedKey (path : String) (user : User) (half : KeyHalf) :
    (bakedKey path user half).map Baked.text = (user.source half).given?.toList := by
  unfold bakedKey
  cases user.source half <;> rfl

lemma map_text_bakedKeys (m : Merged) :
    (bakedKeys m).map Baked.text = m.ssh?.toList.flatMap fun ssh => keySources ssh.settings := by
  unfold bakedKeys keySources
  cases m.ssh? with
  | none => rfl
  | some ssh => simp [List.map_flatMap, map_text_bakedKey]

/-- The texts that are checked, stage by stage. -/
lemma map_text_baked (s : Spec) (m : Merged) :
    (baked s m).map Baked.text =
      (Stage.all.flatMap fun stage => hookEntries (s.stage stage) ++
        if bakesEnvironment s stage then valuesOf (s.stage stage).environment else []) ++
      m.ssh?.toList.flatMap fun ssh => keySources ssh.settings := by
  simp [baked, List.map_flatMap, map_text_bakedScripts, map_text_bakedVariables,
    map_text_bakedKeys]

lemma checkBaked_eq_ok_iff {b : Baked} :
    checkBaked b = .ok () ↔ ¬ hasComposeMarker b.text = true := by
  unfold checkBaked hasComposeMarker
  cases firstComposeMarker? b.text <;> simp

/-- A document whose artifacts are run by compose is refused for a marker in a baked text. -/
lemma exists_check_eq_error_iff {s : Spec} {m : Merged} :
    (∃ e, check s m .compose = .error e) ↔ Marked ((baked s m).map Baked.text) := by
  have hok : check s m .compose = .ok () ↔ ∀ b ∈ baked s m, ¬ hasComposeMarker b.text = true := by
    simp only [check, ← checkBaked_eq_ok_iff, ← Outcome.forM_eq_ok_iff]
    constructor
    · intro h
      obtain ⟨⟨⟩, hbaked, -⟩ := Outcome.bind_eq_ok_iff.1 h
      exact hbaked
    · intro h
      rw [h]
      rfl
  have hfails : (∃ e, check s m .compose = .error e) ↔ ¬ check s m .compose = .ok () := by
    cases check s m .compose <;> simp
  rw [hfails, hok]
  simp [Marked]

/-! ### What is refused -/

/-- A marked variable of either stage is exported by the second, unless it is overridden. -/
lemma marked_exportAll_iff {e f : Environment} (hf : f.keys.Nodup) :
    Marked (valuesOf e) ∨ Marked (valuesOf f) ↔
      Marked (valuesOf (e.exportAll f)) ∨ Marked (overriddenValues e f) := by
  simp only [marked_valuesOf_iff, marked_overriddenValues_iff]
  constructor
  · rintro (⟨v, hv, hmarker⟩ | ⟨v, hv, hmarker⟩)
    · by_cases hkey : v.1 ∈ f.keys
      · exact .inr ⟨v, hv, hkey, hmarker⟩
      · exact .inl ⟨v, OrderedMap.mem_insertAll_of_notMem hv hkey, hmarker⟩
    · exact .inl ⟨v, OrderedMap.mem_insertAll_of_mem hf hv, hmarker⟩
  · rintro (⟨v, hv, hmarker⟩ | ⟨v, hv, -, hmarker⟩)
    · rcases OrderedMap.mem_of_mem_insertAll hv with hv | hv
      · exact .inl ⟨v, hv, hmarker⟩
      · exact .inr ⟨v, hv, hmarker⟩
    · exact .inl ⟨v, hv, hmarker⟩

lemma bakedValues_first (s : Spec) :
    bakedValues (StageView.of s (Merged.ofSpec s) .first) =
      if s.first.bakeEnvironment then valuesOf s.first.environment else [] := rfl

lemma bakedValues_second (s : Spec) :
    bakedValues (StageView.of s (Merged.ofSpec s) .second) =
      if s.second.bakeEnvironment then valuesOf (s.first.environment.exportAll s.second.environment)
      else [] := rfl

/-- The variables that are checked are those that are baked, and those that are overridden. -/
lemma marked_variables_iff {s : Spec} (hsecond : s.second.environment.keys.Nodup) :
    (Marked (if bakesEnvironment s .first then valuesOf s.first.environment else []) ∨
      Marked (if bakesEnvironment s .second then valuesOf s.second.environment else [])) ↔
    (Marked (bakedValues (StageView.of s (Merged.ofSpec s) .first)) ∨
      Marked (bakedValues (StageView.of s (Merged.ofSpec s) .second))) ∨ MarkedOverridden s := by
  have hexport := marked_exportAll_iff (e := s.first.environment) hsecond
  have hchecked : Marked (overriddenValues s.first.environment s.second.environment) →
      Marked (valuesOf s.first.environment) := by
    rw [marked_overriddenValues_iff, marked_valuesOf_iff]
    rintro ⟨v, hv, -, hmarker⟩
    exact ⟨v, hv, hmarker⟩
  rw [bakedValues_first, bakedValues_second]
  by_cases hbakes : s.second.bakeEnvironment
  · by_cases hfirst : s.first.bakeEnvironment
    · have hboth : Marked (valuesOf s.first.environment) ∨ Marked (valuesOf s.second.environment) ↔
          Marked (valuesOf s.first.environment) ∨
            Marked (valuesOf (s.first.environment.exportAll s.second.environment)) := by tauto
      simpa [bakesEnvironment, Spec.stage, MarkedOverridden, hbakes, hfirst] using hboth
    · simpa [bakesEnvironment, Spec.stage, MarkedOverridden, hbakes, hfirst] using hexport
  · simp [bakesEnvironment, Spec.stage, MarkedOverridden, hbakes]

/-- The keys that are checked are those that are installed, and those that are disabled. -/
lemma marked_keys_iff {s : Spec} :
    Marked ((Merged.ofSpec s).ssh?.toList.flatMap fun ssh => keySources ssh.settings) ↔
      Marked (((Merged.ofSpec s).ssh?.filter fun ssh => ssh.settings.enabled).toList.flatMap
        fun ssh => keySources ssh.settings) ∨ MarkedDisabled s := by
  unfold MarkedDisabled
  cases (Merged.ofSpec s).ssh? with
  | none => simp
  | some ssh => cases henabled : ssh.settings.enabled <;> simp [Option.filter, henabled]

/-- A document is refused for a marker that gets into a file which compose never reads, or for one
in a variable that is overridden before it is baked or in a key that is not installed. -/
theorem check_refuses_iff {dir : Path} {d : Document} {s : Spec}
    (hspec : Spec.ofDocument dir d = .ok s) :
    (∃ e, check s (Merged.ofSpec s) .compose = .error e) ↔
      Marked (unseen s) ∨ MarkedOverridden s ∨ MarkedDisabled s := by
  have hvariables := marked_variables_iff (Spec.nodup_environment hspec .second)
  have hkeys := marked_keys_iff (s := s)
  rw [exists_check_eq_error_iff, map_text_baked, unseen]
  simp only [marked_append, Stage.all, List.flatMap_cons, List.flatMap_nil, List.append_nil]
  simp only [Spec.stage]
  change ((Marked (hookEntries s.first) ∨ _) ∨ Marked (hookEntries s.second) ∨ _) ∨ _ ↔ _
  tauto

/-- The second stage bakes a variable that it has from the first. -/
theorem check_refuses_of_inherited : ∃ d s,
    Document.ofText (fun _ => none)
      ("stage_1:\n image:\n  base: a\n environment: ['A=\x7b\x7bB\x7d\x7d']\n" ++
        "stage_2:\n bake_environment: true") = .ok d ∧
    Spec.ofDocument (Path.ofString "/p") d = .ok s ∧ Marked (unseen s) ∧
    ∃ e, check s (Merged.ofSpec s) .compose = .error e := by
  have hrun : ((Document.ofText (fun _ => none)
      ("stage_1:\n image:\n  base: a\n environment: ['A=\x7b\x7bB\x7d\x7d']\n" ++
        "stage_2:\n bake_environment: true")).toOption.bind fun d =>
      (Spec.ofDocument (Path.ofString "/p") d).toOption.map fun s =>
        decide (Marked (unseen s))) = some true := by
    rw [Document.ofText_eq_ofChars, String.toList_append, String.toList_ofList,
      String.toList_ofList]
    decide +kernel
  obtain ⟨d, hd, hrun⟩ := Outcome.toOption_bind_eq_some_iff.1 hrun
  obtain ⟨s, hs, hrun⟩ := Outcome.toOption_map_eq_some_iff.1 hrun
  have hmarked := of_decide_eq_true hrun
  exact ⟨d, s, hd, hs, hmarked, (check_refuses_iff hs).2 (.inl hmarked)⟩

/-- A document is refused although none of its markers gets into a file that compose never reads. -/
def RefusedForNothing (text : String) : Prop :=
  ∃ d s, Document.ofText (fun _ => none) text = .ok d ∧
    Spec.ofDocument (Path.ofString "/p") d = .ok s ∧
    (∃ e, check s (Merged.ofSpec s) .compose = .error e) ∧ ¬ Marked (unseen s)

lemma refusedForNothing_of_run {text : String}
    (h : ((Document.ofText (fun _ => none) text).toOption.bind fun d =>
      (Spec.ofDocument (Path.ofString "/p") d).toOption.map fun s =>
        decide (Marked ((baked s (Merged.ofSpec s)).map Baked.text) ∧ ¬ Marked (unseen s))) =
          some true) : RefusedForNothing text := by
  obtain ⟨d, hd, h⟩ := Outcome.toOption_bind_eq_some_iff.1 h
  obtain ⟨s, hs, h⟩ := Outcome.toOption_map_eq_some_iff.1 h
  obtain ⟨hchecked, hunseen⟩ := of_decide_eq_true h
  exact ⟨d, s, hd, hs, exists_check_eq_error_iff.2 hchecked, hunseen⟩

/-- A marked variable of the first stage is overridden where it would be baked, and a marked key is
that of disabled SSH settings. -/
theorem exists_refused_for_nothing :
    RefusedForNothing
      ("stage_1:\n image:\n  base: a\n environment: ['A=\x7b\x7bX\x7d\x7d']\n" ++
        "stage_2:\n environment: ['A=plain']\n bake_environment: true") ∧
    RefusedForNothing
      ("stage_1:\n image:\n  base: a\n ssh:\n  enable: false\n" ++
        "  users:\n   me:\n    pubkey_file: '\x7b\x7bK\x7d\x7d/id.pub'") := by
  constructor
  · apply refusedForNothing_of_run
    rw [Document.ofText_eq_ofChars, String.toList_append, String.toList_ofList,
      String.toList_ofList]
    decide +kernel
  · apply refusedForNothing_of_run
    rw [Document.ofText_eq_ofChars, String.toList_append, String.toList_ofList,
      String.toList_ofList]
    decide +kernel

end Guardrail

end TwoStage
