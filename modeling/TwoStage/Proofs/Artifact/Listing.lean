import TwoStage.Artifact.Emission
import TwoStage.Proofs.Outcome

/-!
# The list of artifacts

A compilation is emitted as the compose file, the files of both stages, the key files of all users
and, in single-artifact mode, the build script. Here it is said when this list comes about and which
of the four groups an artifact is from.
-/

namespace TwoStage.Emission

variable {c : Compilation} {tree : Yaml.Tree} {items build : List Artifact} {a : Artifact}

/-- The build script is emitted in single-artifact mode only. -/
lemma buildFiles_eq_ok_iff : buildFiles c tree = .ok build ↔
    (c.mode = .compose ∧ [] = build) ∨ c.mode = .singleArtifact ∧ ∃ script,
      buildScript tree = .ok script ∧
        [⟨Path.ofString buildScriptName, script, .executable⟩] = build := by
  unfold buildFiles
  cases c.mode with
  | compose => simp
  | singleArtifact =>
    simp only [Outcome.bind_eq_ok_iff, Outcome.pure_eq_ok_iff, reduceCtorEq, false_and, true_and,
      false_or]

/-- What is emitted, in order. -/
lemma files_eq_ok_iff : files c tree = .ok items ↔
    ∃ compose, composeFile tree = .ok compose ∧ ∃ build, buildFiles c tree = .ok build ∧
      [compose] ++ (Stage.all.flatMap fun stage => stageFiles (c.view stage)) ++
        c.users.flatMap userFiles ++ build = items := by
  simp only [files, Outcome.bind_eq_ok_iff, Outcome.pure_eq_ok_iff]

/-- An artifact is the compose file, the build script, a file of a stage or one of a user. -/
lemma mem_files_cases (h : files c tree = .ok items) (ha : a ∈ items) :
    (∃ text, a = ⟨Path.ofString composeName, text, .regular⟩) ∨
      (∃ script, a = ⟨Path.ofString buildScriptName, script, .executable⟩) ∨
      (∃ stage, a ∈ stageFiles (c.view stage)) ∨ ∃ u ∈ c.users, a ∈ userFiles u := by
  obtain ⟨compose, hcompose, build, hbuild, rfl⟩ := files_eq_ok_iff.1 h
  simp only [List.mem_append, List.mem_singleton, List.mem_flatMap] at ha
  rcases ha with ((rfl | ⟨stage, -, ha⟩) | ha) | ha
  · obtain ⟨text, -, rfl⟩ := Outcome.map_eq_ok_iff.1 hcompose
    exact .inl ⟨_, rfl⟩
  · exact .inr (.inr (.inl ⟨stage, ha⟩))
  · exact .inr (.inr (.inr ha))
  · rcases buildFiles_eq_ok_iff.1 hbuild with ⟨-, rfl⟩ | ⟨-, script, -, rfl⟩
    · simp at ha
    · exact .inr (.inl ⟨script, List.mem_singleton.1 ha⟩)

lemma stageFiles_subset (h : files c tree = .ok items) (stage : Stage) :
    stageFiles (c.view stage) ⊆ items := by
  obtain ⟨compose, -, build, -, rfl⟩ := files_eq_ok_iff.1 h
  have hall : stage ∈ Stage.all := by cases stage <;> decide
  intro a ha
  exact List.mem_append_left _ (List.mem_append_left _ (List.mem_append_right _
    (List.mem_flatMap.2 ⟨stage, hall, ha⟩)))

lemma userFiles_subset (h : files c tree = .ok items) {u : KeyedUser} (hu : u ∈ c.users) :
    userFiles u ⊆ items := by
  obtain ⟨compose, -, build, -, rfl⟩ := files_eq_ok_iff.1 h
  intro a ha
  exact List.mem_append_left _ (List.mem_append_right _ (List.mem_flatMap.2 ⟨u, hu, ha⟩))

end TwoStage.Emission
