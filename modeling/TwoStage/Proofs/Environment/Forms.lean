import TwoStage.Proofs.Spec.WellFormed

/-!
# The two forms of an environment

A section writes variables as a list of assignments or as a mapping. An assignment is cut at its
first equals sign and loses the blanks around its name. A name has neither, so that it is read back
as it was written, whatever its value holds.
-/

namespace TwoStage

open Text Yaml

/-! ### Sections of either form -/

def Environment.toListing (e : Environment) : EnvironmentSection := .list e.assignments

def Environment.toMapping (e : Environment) : EnvironmentSection :=
  .mapping ⟨e.entries.map fun (name, value) => (name, .text value)⟩

namespace EnvironmentSection

/-! ### Reading what was written -/

lemma checkName_eq {path name : String} (h : isVariableName name.toList = true) :
    checkName path name = .ok () := by
  rw [checkName, if_pos h]

lemma readAssignment_eq {path name value : String} (h : isVariableName name.toList = true) :
    readAssignment path (name ++ "=" ++ value) = .ok (name, value) := by
  have hsign : '=' ∉ name.toList := not_mem_of_isVariableName h (by decide) (by decide)
  have hcut : cutAt? (· == '=') (name ++ "=" ++ value).toList =
      some (name.toList, value.toList) := by
    rw [String.toList_append, String.toList_append, List.append_assoc]
    refine cutAt?_append (by decide) fun c hc => ?_
    simpa using ne_of_mem_of_not_mem hc hsign
  rw [readAssignment, hcut]
  dsimp only
  rw [trimBoth_of_forall (isBlank_of_mem_of_isVariableName h), String.ofList_toList,
    String.ofList_toList, checkName_eq h]
  rfl

lemma readAssignments_eq {path : String} {es : List (String × String)}
    (h : ∀ v ∈ es, isVariableName v.1.toList = true) (i : Nat) :
    readAssignments path i (es.map fun (name, value) => name ++ "=" ++ value) = .ok es := by
  induction es generalizing i with
  | nil => rfl
  | cons v es ih =>
    rw [List.forall_mem_cons] at h
    rw [List.map_cons, readAssignments, readAssignment_eq h.1, ih h.2]
    rfl

lemma readEntry_text {path name value : String} (h : isVariableName name.toList = true) :
    readEntry path name (.text value) = .ok (name, value) := by
  rw [readEntry, checkName_eq h]
  rfl

/-- A list of assignments to names is read as the map of what was assigned. -/
lemma environment_toListing {path : String} {e : Environment}
    (h : ∀ v ∈ e.entries, isVariableName v.1.toList = true) :
    e.toListing.environment path = .ok (OrderedMap.ofList e.entries) := by
  rw [Environment.toListing, environment, Environment.assignments, readAssignments_eq h]
  rfl

/-- So is a mapping of names to texts. -/
lemma environment_toMapping {path : String} {e : Environment}
    (h : ∀ v ∈ e.entries, isVariableName v.1.toList = true) :
    e.toMapping.environment path = .ok (OrderedMap.ofList e.entries) := by
  rw [Environment.toMapping, environment]
  refine Outcome.map_eq_ok_iff.2 ⟨e.entries, Outcome.mapM_eq_ok_iff.2 ?_, rfl⟩
  rw [List.forall₂_map_left_iff, List.forall₂_same]
  exact fun v hv => readEntry_text (h v hv)

/-- The variables of a section have names that are ones. -/
lemma isVariableName_of_environment {path : String} {s : EnvironmentSection} {e : Environment}
    (h : s.environment path = .ok e) : ∀ v ∈ e.entries, isVariableName v.1.toList = true := by
  have hs : s.Holds (OnChars fun _ => True) := by
    cases s with
    | list entries => exact fun _ _ => trivial
    | mapping entries => exact fun _ _ _ _ => trivial
  exact fun v hv => (holds_of_environment stable_true hs h v hv).1

/-- What a section of either form gives is given by the list of its assignments again; and variables
with names that are ones are given by either form of them. -/
theorem environment_of_forms (path path' : String) :
    (∀ (s : EnvironmentSection) (e : Environment), s.environment path = .ok e →
      e.toListing.environment path' = .ok e) ∧
    ∀ e : Environment, (∀ name ∈ e.keys, isVariableName name.toList = true) →
      ∃ e', e.toMapping.environment path = .ok e' ∧ e.toListing.environment path' = .ok e' ∧
        (e.keys.Nodup → e' = e) := by
  have hsame {e : Environment} (honce : e.keys.Nodup) : OrderedMap.ofList e.entries = e :=
    congrArg OrderedMap.mk (OrderedMap.entries_ofList honce)
  constructor
  · intro s e h
    rw [environment_toListing (isVariableName_of_environment h), hsame (nodup_of_environment h)]
  · intro e hname
    have hentry : ∀ v ∈ e.entries, isVariableName v.1.toList = true :=
      fun v hv => hname v.1 (List.mem_map_of_mem hv)
    exact ⟨OrderedMap.ofList e.entries, environment_toMapping hentry, environment_toListing hentry,
      hsame⟩

/-- A variable is assigned twice, and values hold signs, blanks and line breaks or nothing. -/
theorem environment_of_forms_of_signs :
    let e : Environment := ⟨[("A", " z\n"), ("B", ""), ("C", "x=y")]⟩
    environment "a" (.list [" A =x", "B\t=", "C=x=y", "A= z\n"]) = .ok e ∧
      e.toListing.environment "b" = .ok e ∧ e.toMapping.environment "a" = .ok e := by
  intro e
  have hread : environment "a" (.list [" A =x", "B\t=", "C=x=y", "A= z\n"]) = .ok e := by rfl
  obtain ⟨e', hmapping, -, he⟩ := (environment_of_forms "a" "b").2 e (by decide)
  exact ⟨hread, (environment_of_forms "a" "b").1 _ e hread, he (by decide) ▸ hmapping⟩

end EnvironmentSection

end TwoStage
