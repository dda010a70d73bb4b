import TwoStage.Context
import TwoStage.Digest.Sha2
import TwoStage.Spec

/-!
# Mounts

The storage of a stage as compose mounts it: named volumes, directories of the host, or nothing when
it is in the image. Automatic volumes are named by project, stage, section and key. A directory of
the host is followed as far as it exists, and in strict mode it has to be in the project.
-/

namespace TwoStage

open Text

/-- What a container's directory is mounted from. A volume has a key in the compose file and a name
of its own; an external one is managed by the user. -/
inductive MountTarget
  | volume (key name : String) (external : Bool)
  | bind (hostPath : String)
  | inImage
deriving DecidableEq, Repr

structure Mount where
  key : String
  scope : Scope
  target : MountTarget
  destination : String
deriving DecidableEq, Repr

/-- The entry of a mount in the compose file, if it has one. -/
def Mount.composeEntry? (m : Mount) : Option String :=
  match m.target with
  | .volume key _ _ => some (key ++ ":" ++ m.destination)
  | .bind hostPath  => some (hostPath ++ ":" ++ m.destination)
  | .inImage        => none

/-! ### Volumes -/

/-- The first eight digits of the digest of a key. -/
def shortDigest (key : String) : String :=
  String.ofList ((Digest.sha256Hex key.toUTF8.toList).toList.take 8)

/-- The name of an automatic volume. A key that is no slug has its digest behind its slug. -/
def autoVolumeName (project : Project) (stage : Stage) (scope : Scope) (key : String) : String :=
  project.name ++ "-" ++ stage.label ++ "-" ++ scope.key ++ "-" ++ slug key ++
    (if slug key = key then "" else "-" ++ shortDigest key)

/-- The keys that compose takes for volumes: a letter or a digit, then letters, digits, underscores,
dots and dashes. -/
def isVolumeKey : List Char → Bool
  | []      => false
  | c :: cs => c.isAlphanum && cs.all fun c => c.isAlphanum || c == '_' || c == '.' || c == '-'

/-- The key of a volume that the user has named: its name, if compose takes that. -/
def manualVolumeKey (name : String) (project : Project) (stage : Stage) (scope : Scope)
    (key : String) : String :=
  if isVolumeKey name.toList then name else autoVolumeName project stage scope key

/-! ### Directories of the host -/

/-- The path with every link followed if all of it exists, else folded as it is written. -/
def Files.realPath (fs : Files) (p : Path) : Path :=
  match fs.canonicalize p with
  | .ok q    => q
  | .error _ => p.normalize

/-- The directory of the host that a declaration at a place of the document means. One with a
compose marker is left to compose. -/
def hostDirectory (ctx : Context) (path raw : String) : Outcome String := do
  if hasComposeMarker raw then
    if ctx.strictHostPaths then throw (.schema path .uncheckedHostPath)
    return raw
  match ctx.userPath? raw with
  | none   => throw (.schema path .noHome)
  | some p =>
    let host := ctx.files.realPath p
    if ctx.strictHostPaths then
      let boundary := ctx.files.realPath ctx.projectDir
      if !host.startsWith boundary then throw (.hostPathEscapes path host boundary)
    return host.text

/-! ### All mounts of a stage -/

/-- What a checked declaration at a place of the document is mounted from. -/
def mountTarget (ctx : Context) (project : Project) (stage : Stage) (path : String) (s : Storage) :
    Outcome MountTarget :=
  match s.source with
  | .autoVolume        =>
    let name := autoVolumeName project stage s.scope s.key
    .ok (.volume name name false)
  | .manualVolume name =>
    .ok (.volume (manualVolumeKey name project stage s.scope s.key) name true)
  | .host raw          => (hostDirectory ctx path raw).map .bind
  | .image             => .ok .inImage

def resolveMount (ctx : Context) (project : Project) (stage : Stage) (scope : Scope)
    (key : String) (s : StorageSection) : Outcome Mount := do
  let path := FieldPath.below (stage.path scope.key) key
  let storage ← Storage.ofSection key scope path s
  let target ← mountTarget ctx project stage path storage
  return ⟨key, scope, target, storage.destination⟩

/-- The mounts of a stage in the order of the document, storage first. -/
def resolveMounts (ctx : Context) (project : Project) (stage : Stage)
    (storage mount : OrderedMap String StorageSection) : Outcome (List Mount) := do
  let declared :=
    storage.entries.map (fun (key, s) => (Scope.storage, key, s)) ++
      mount.entries.map (fun (key, s) => (Scope.mount, key, s))
  declared.mapM fun (scope, key, s) => resolveMount ctx project stage scope key s

end TwoStage
