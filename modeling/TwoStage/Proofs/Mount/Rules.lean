import TwoStage.Mount
import TwoStage.Proofs.Outcome

/-!
# How mounts come about

A declaration is mounted in two steps: it is checked, which tells what it is kept in, and then it is
found where that is. The ways in which either step succeeds are the cases of a relation.
-/

namespace TwoStage

open Text

/-- The ways in which a declaration is kept in something. -/
inductive StorageSection.KeptIn (s : StorageSection) : Scope → StorageSource → Prop
  | autoVolume {scope : Scope} (kind : s.kind = .autoVolume) : KeptIn s scope .autoVolume
  | manualVolume {scope : Scope} {raw : String} (kind : s.kind = .manualVolume)
      (name : s.volumeName? = some raw) : KeptIn s scope (.manualVolume (trim raw))
  | host {scope : Scope} {raw : String} (kind : s.kind = .host)
      (path : s.hostPath? = some raw) : KeptIn s scope (.host (trim raw))
  | image (kind : s.kind = .image) : KeptIn s .storage .image

/-- The ways in which a checked declaration at a place of the document is mounted. -/
inductive Storage.MountedAs (ctx : Context) (project : Project) (stage : Stage) (path : String)
    (s : Storage) : MountTarget → Prop
  | autoVolume (source : s.source = .autoVolume) :
      MountedAs ctx project stage path s (.volume (autoVolumeName project stage s.scope s.key)
        (autoVolumeName project stage s.scope s.key) false)
  | manualVolume {name : String} (source : s.source = .manualVolume name) :
      MountedAs ctx project stage path s
        (.volume (manualVolumeKey name project stage s.scope s.key) name true)
  | host {raw text : String} (source : s.source = .host raw)
      (directory : hostDirectory ctx path raw = .ok text) :
      MountedAs ctx project stage path s (.bind text)
  | image (source : s.source = .image) : MountedAs ctx project stage path s .inImage

variable {ctx : Context} {project : Project} {stage : Stage} {scope : Scope} {key path : String}
  {s : StorageSection}

lemma Storage.exists_of_required {field : StorageField} {value : Option String} {v : String}
    (h : required path field value = .ok v) : ∃ raw, value = some raw ∧ v = trim raw := by
  unfold required at h
  split at h
  next w hw =>
    obtain ⟨raw, hraw, rfl⟩ := Option.map_eq_some_iff.1 hw
    split at h
    next => simp at h
    next => exact ⟨raw, hraw, (Except.ok.inj h).symm⟩
  next => simp at h

lemma StorageSection.KeptIn.of_sourceOf {source : StorageSource}
    (h : Storage.sourceOf path scope s = .ok source) : s.KeptIn scope source := by
  unfold Storage.sourceOf at h
  split at h
  next hkind =>
    obtain rfl := Except.ok.inj h
    exact .autoVolume hkind
  next hkind =>
    obtain ⟨name, hname, rfl⟩ := Outcome.map_eq_ok_iff.1 h
    obtain ⟨raw, hraw, rfl⟩ := Storage.exists_of_required hname
    exact .manualVolume hkind hraw
  next hkind =>
    obtain ⟨name, hname, rfl⟩ := Outcome.map_eq_ok_iff.1 h
    obtain ⟨raw, hraw, rfl⟩ := Storage.exists_of_required hname
    exact .host hkind hraw
  next hkind =>
    obtain rfl := Except.ok.inj h
    exact .image hkind
  next => simp at h

lemma Storage.MountedAs.of_mountTarget {storage : Storage} {target : MountTarget}
    (h : mountTarget ctx project stage path storage = .ok target) :
    storage.MountedAs ctx project stage path target := by
  unfold mountTarget at h
  split at h
  next hsource =>
    obtain rfl := Except.ok.inj h
    exact .autoVolume hsource
  next name hsource =>
    obtain rfl := Except.ok.inj h
    exact .manualVolume hsource
  next raw hsource =>
    obtain ⟨text, htext, rfl⟩ := Outcome.map_eq_ok_iff.1 h
    exact .host hsource htext
  next hsource =>
    obtain rfl := Except.ok.inj h
    exact .image hsource

/-- A path of the user is the home directory, or it leads on from there or from the project. -/
lemma Context.eq_of_userPath? {raw : String} {p : Path} (hp : ctx.userPath? raw = some p) :
    ctx.home? = some p ∨ ∃ dir cs, (dir = ctx.projectDir ∨ ctx.home? = some dir) ∧
      cs <:+ raw.toList ∧ p = dir.join (Path.ofChars cs) := by
  unfold userPath? at hp
  split at hp
  next => exact .inl hp
  next cs heq =>
    obtain ⟨home, hhome, rfl⟩ := Option.map_eq_some_iff.1 hp
    exact .inr ⟨home, cs, .inr hhome, heq ▸ ⟨['~', '/'], rfl⟩, rfl⟩
  next =>
    obtain rfl := Option.some.inj hp
    exact .inr ⟨_, _, .inl rfl, List.suffix_rfl, rfl⟩

/-- A directory of the host with a marker is left as it is written, which strict mode does not take.
Any other one is a real path, which strict mode wants to be in the project. -/
lemma hostDirectory_eq_ok_iff {raw text : String} : hostDirectory ctx path raw = .ok text ↔
    (hasComposeMarker raw = true ∧ ¬ ctx.strictHostPaths = true ∧ raw = text) ∨
      hasComposeMarker raw = false ∧ ∃ p, ctx.userPath? raw = some p ∧
        (ctx.strictHostPaths = true →
          (ctx.files.realPath p).startsWith (ctx.files.realPath ctx.projectDir) = true) ∧
        (ctx.files.realPath p).text = text := by
  unfold hostDirectory
  cases hasComposeMarker raw with
  | true =>
    simp only [if_true, Outcome.throw_bind, Outcome.ite_throw_eq_ok_iff, Outcome.pure_eq_ok_iff,
      true_and, Bool.true_eq_false, false_and, or_false]
  | false =>
    cases ctx.userPath? raw with
    | none => simp
    | some p =>
      by_cases hstrict : ctx.strictHostPaths = true
      · simp [hstrict, Outcome.ite_throw_eq_ok_iff, Outcome.pure_eq_ok_iff]
      · simp [hstrict, Outcome.pure_eq_ok_iff]

lemma exists_of_hostDirectory {raw text : String} (hmarker : hasComposeMarker raw = false)
    (h : hostDirectory ctx path raw = .ok text) :
    ∃ p, ctx.userPath? raw = some p ∧ text = (ctx.files.realPath p).text := by
  rcases hostDirectory_eq_ok_iff.1 h with ⟨hmarker', -⟩ | ⟨-, p, hp, -, rfl⟩
  · simp [hmarker] at hmarker'
  · exact ⟨p, hp, rfl⟩

lemma eq_of_hostDirectory {raw text : String} (h : hostDirectory ctx path raw = .ok text) :
    text = raw ∨ ∃ p, ctx.userPath? raw = some p ∧ text = (ctx.files.realPath p).text := by
  rcases hostDirectory_eq_ok_iff.1 h with ⟨-, -, rfl⟩ | ⟨-, p, hp, -, rfl⟩
  · exact .inl rfl
  · exact .inr ⟨p, hp, rfl⟩

/-- What a mount is made from. -/
lemma exists_of_resolveMount {m : Mount} (h : resolveMount ctx project stage scope key s = .ok m) :
    ∃ source destination target path, s.KeptIn scope source ∧
      (Storage.declaredDestination? s <|> Storage.standardDestination? key scope source) =
        some destination ∧
      (Storage.mk key scope source destination).MountedAs ctx project stage path target ∧
      m = ⟨key, scope, target, destination⟩ := by
  obtain ⟨storage, hstorage, h⟩ := Outcome.bind_eq_ok_iff.1 h
  obtain ⟨target, htarget, h⟩ := Outcome.bind_eq_ok_iff.1 h
  obtain rfl := Outcome.pure_eq_ok_iff.1 h
  obtain ⟨source, hsource, hstorage⟩ := Outcome.bind_eq_ok_iff.1 hstorage
  split at hstorage
  next destination hdestination =>
    obtain rfl := Outcome.pure_eq_ok_iff.1 hstorage
    exact ⟨source, destination, target, _, .of_sourceOf hsource, hdestination,
      .of_mountTarget htarget, rfl⟩
  next => simp at hstorage

end TwoStage
