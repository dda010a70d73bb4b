import TwoStage.Compilation
import TwoStage.Proofs.Outcome

/-!
# The steps of resolving keys

The keys of a user come from the sources of the document and, where there is none, from a pair of an
earlier run or a new one. For each of the steps it is said here when it succeeds and what it gives.
-/

namespace TwoStage

namespace Credentials

variable {ctx : Context} {generator : Generator} {stage : Stage} {u : User} {dir : Path}

lemma isAbsent_iff {source : KeySource} : source.isAbsent = true ↔ source = .absent := by
  cases source <;> simp [KeySource.isAbsent]

/-- A source with a path is looked for, or it is the file at the path. -/
lemma readSource_file_eq_ok_iff {user raw : String} {half : KeyHalf} {found? : Option Found} :
    readSource ctx user half (.file raw) = .ok found? ↔
      (raw = discoveryToken ∧ ∃ found, discover ctx user half = .ok found ∧ some found = found?) ∨
        raw ≠ discoveryToken ∧ ∃ path, existingFile ctx user raw half = .ok path ∧
          ∃ found, readTidy ctx path (.file path) = .ok found ∧ some found = found? := by
  rw [readSource]
  split
  next htoken =>
    simp only [htoken, Outcome.map_eq_ok_iff, true_and, ne_eq, not_true, false_and, or_false]
  next htoken =>
    simp only [htoken, Outcome.bind_eq_ok_iff, Outcome.pure_eq_ok_iff, false_and, ne_eq,
      not_false_iff, true_and, false_or]

/-- A pair is taken from an earlier run, or else asked for. -/
lemma freshPair_eq_ok_iff {path : Path} {user comment : String}
    {found : KeyPair × KeyOrigin × List String} :
    freshPair ctx generator path user comment = .ok found ↔
      (∃ pair, stored? ctx path = some pair ∧ (pair, .reused path, []) = found) ∨
        stored? ctx path = none ∧
          ∃ pair, generator comment = .ok pair ∧ (pair, .generated, [comment]) = found := by
  unfold freshPair
  cases stored? ctx path with
  | some pair => simp
  | none => cases generator comment <;> simp

/-- A user without keys gets a pair, and no other one does. -/
lemma freshFiles_eq_ok_iff {found : List KeyFile × Option KeyFile × List String} :
    freshFiles ctx generator stage dir u = .ok found ↔
      (¬ (u.publicKey = .absent ∧ u.privateKey = .absent) ∧ ([], none, []) = found) ∨
        (u.publicKey = .absent ∧ u.privateKey = .absent) ∧ ∃ pair origin requests,
          freshPair ctx generator (storedPath ctx stage u.name) u.name
            (u.name ++ "@" ++ stage.label) = .ok (pair, origin, requests) ∧
          ([⟨dir.child (generatedKeyName ++ ".pub"), pair.publicText, origin⟩],
            some ⟨dir.child generatedKeyName, pair.privateText, origin⟩, requests) = found := by
  have habsent : (!(u.publicKey.isAbsent && u.privateKey.isAbsent)) = true ↔
      ¬ (u.publicKey = .absent ∧ u.privateKey = .absent) := by
    rw [← isAbsent_iff, ← isAbsent_iff, ← Bool.and_eq_true, Bool.not_eq_true', Bool.not_eq_true]
  unfold freshFiles
  simp only [habsent]
  split
  next hgiven =>
    simp only [hgiven, Outcome.pure_eq_ok_iff, not_false_iff, true_and, false_and, or_false]
  next hgiven =>
    simp only [not_not.1 hgiven, Outcome.bind_eq_ok_iff, Outcome.pure_eq_ok_iff, Prod.exists,
      and_self, not_true, false_and, true_and, false_or]

lemma resolveUser_eq_ok_iff {keyed : KeyedUser} {requests : List String} :
    resolveUser ctx generator stage u = .ok (keyed, requests) ↔
      ∃ given half fresh,
        publicFile ctx (keyDir stage u.name) u = .ok given ∧
        privateFiles ctx (keyDir stage u.name) u = .ok (half, keyed.privateKey?) ∧
        freshFiles ctx generator stage (keyDir stage u.name) u =
          .ok (fresh, keyed.hostKey?, requests) ∧
        keyed = ⟨u.name, u.password?, u.uid?, u.gid?, given ++ half ++ fresh, keyed.privateKey?,
          keyed.hostKey?⟩ := by
  constructor
  · intro h
    obtain ⟨given, hgiven, h⟩ := Outcome.bind_eq_ok_iff.1 h
    obtain ⟨⟨half, privateKey?⟩, hhalf, h⟩ := Outcome.bind_eq_ok_iff.1 h
    obtain ⟨⟨fresh, hostKey?, asked⟩, hfresh, h⟩ := Outcome.bind_eq_ok_iff.1 h
    obtain ⟨rfl, rfl⟩ := Prod.mk.inj (Outcome.pure_eq_ok_iff.1 h)
    exact ⟨given, half, fresh, hgiven, hhalf, hfresh, rfl⟩
  · rintro ⟨given, half, fresh, hgiven, hhalf, hfresh, heq⟩
    refine Outcome.bind_eq_ok_iff.2 ⟨given, hgiven, ?_⟩
    refine Outcome.bind_eq_ok_iff.2 ⟨_, hhalf, ?_⟩
    refine Outcome.bind_eq_ok_iff.2 ⟨_, hfresh, ?_⟩
    rw [heq]
    rfl

lemma checkAndResolve_eq_ok_iff {found : KeyedUser × List String} :
    checkAndResolve ctx generator stage u = .ok found ↔
      u.hasLoginMethod = true ∧ resolveUser ctx generator stage u = .ok found := by
  unfold checkAndResolve
  split <;> simp [*]

lemma resolveUser_of_checkAndResolve {found : KeyedUser × List String}
    (h : checkAndResolve ctx generator stage u = .ok found) :
    resolveUser ctx generator stage u = .ok found :=
  (checkAndResolve_eq_ok_iff.1 h).2

/-- The users of a resolution are the ones of the settings, each resolved on its own. -/
lemma resolve_eq_ok_iff {ssh : InstalledSsh} {credentials : Credentials} :
    resolve ctx generator ssh = .ok credentials ↔
      ∃ resolved,
        List.Forall₂ (fun u found => checkAndResolve ctx generator ssh.stage u = .ok found)
          ssh.settings.users resolved ∧
        credentials = ⟨resolved.map Prod.fst, resolved.flatMap Prod.snd⟩ := by
  simp only [resolve, Outcome.bind_eq_ok_iff, Outcome.pure_eq_ok_iff, Outcome.mapM_eq_ok_iff,
    @eq_comm _ credentials]

end Credentials

/-- Keys are resolved for the users of a server that is enabled. -/
lemma Compilation.resolveKeys_eq_ok_iff {ctx : Context} {generator : Generator} {m : Merged}
    {credentials : Credentials} :
    resolveKeys ctx generator m = .ok credentials ↔
      ((∀ ssh ∈ m.ssh?, ¬ ssh.settings.enabled = true) ∧ ⟨[], []⟩ = credentials) ∨
        ∃ ssh ∈ m.ssh?, ssh.settings.enabled = true ∧
          Credentials.resolve ctx generator ssh = .ok credentials := by
  unfold resolveKeys
  cases m.ssh? with
  | none => simp
  | some ssh =>
    dsimp only
    split
    next henabled => simp [henabled]
    next henabled => simp [henabled]

end TwoStage
