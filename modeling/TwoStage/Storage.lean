import TwoStage.Error

/-!
# Declared storage

A stage declares storage under one of the fixed categories, or a mount under a name of its own.
Either is kept in an automatic volume, in a volume of the user's, in a directory of the host or, for
storage alone, in the image.
-/

namespace TwoStage

open Text Yaml

/-- What storage is kept in. -/
inductive StorageKind
  | autoVolume
  | manualVolume
  | host
  | image
deriving DecidableEq, Repr

namespace StorageKind

def name : StorageKind → String
  | .autoVolume   => "auto-volume"
  | .manualVolume => "manual-volume"
  | .host         => "host"
  | .image        => "image"

def byName : List (String × StorageKind) :=
  [.autoVolume, .manualVolume, .host, .image].map fun k => (k.name, k)

end StorageKind

/-- A declaration as a document writes it. -/
structure StorageSection where
  kind : StorageKind
  hostPath? : Option String
  volumeName? : Option String
  destination? : Option String
deriving DecidableEq, Repr

namespace StorageSection

def fields : List (Decode.Field StorageSection) :=
  let text (name : String) (set : Option String → StorageSection → StorageSection) :=
    Decode.field name (Decode.optional Decode.text) set
  [ Decode.field "type" (Decode.choice StorageKind.byName) fun v s => { s with kind := v },
    text "host_path" fun v s => { s with hostPath? := v },
    text "volume_name" fun v s => { s with volumeName? := v },
    text "dst_path" fun v s => { s with destination? := v } ]

/-- Decode a declaration, which has to name its kind. -/
def decode : Tree → Decoded StorageSection :=
  Decode.record "StorageOption" true fields ["type"] ⟨.autoVolume, none, none, none⟩

def toTree (s : StorageSection) : Tree :=
  .record (
    [("type", .text s.kind.name)] ++
    Tree.fieldIf "host_path" (s.hostPath?.map .text) ++
    Tree.fieldIf "volume_name" (s.volumeName?.map .text) ++
    Tree.fieldIf "dst_path" (s.destination?.map .text))

def mapToTree (m : OrderedMap String StorageSection) : Tree :=
  .record (m.entries.map fun (name, s) => (name, s.toTree))

end StorageSection

/-- The section that a declaration stands in. -/
inductive Scope
  | storage
  | mount
deriving DecidableEq, Repr

def Scope.key : Scope → String
  | .storage => "storage"
  | .mount   => "mount"

/-- What a checked declaration is kept in. -/
inductive StorageSource
  | autoVolume
  | manualVolume (name : String)
  | host (path : String)
  | image
deriving DecidableEq, Repr

/-- A checked declaration: where it is kept and where a container sees it. -/
structure Storage where
  key : String
  scope : Scope
  source : StorageSource
  destination : String
deriving DecidableEq, Repr

namespace Storage

/-- Where a container sees storage that is kept outside of the image. -/
def volumeRoot : String := "/hard/volume"

/-- Where a container sees storage that is kept in the image. -/
def imageRoot : String := "/hard/image"

/-- A field that is set to more than blanks, without the blanks around it. -/
def required (path : String) (field : StorageField) (value : Option String) : Outcome String :=
  match value.map trim with
  | some v => if v = "" then .error (.missingField path field) else .ok v
  | none   => .error (.missingField path field)

/-- What a declaration is kept in. -/
def sourceOf (path : String) (scope : Scope) (s : StorageSection) : Outcome StorageSource :=
  match s.kind, scope with
  | .autoVolume,   _        => .ok .autoVolume
  | .manualVolume, _        => (required path .volumeName s.volumeName?).map .manualVolume
  | .host,         _        => (required path .hostPath s.hostPath?).map .host
  | .image,        .storage => .ok .image
  | .image,        .mount   => .error (.imageMountNotAllowed path)

/-- Where a container sees a declaration that does not say so. -/
def standardDestination? (key : String) : Scope → StorageSource → Option String
  | .storage, .image => some (imageRoot ++ "/" ++ key)
  | .storage, _      => some (volumeRoot ++ "/" ++ key)
  | .mount,   _      => none

/-- A destination that is more than blanks. -/
def declaredDestination? (s : StorageSection) : Option String :=
  s.destination?.filter fun d => trim d ≠ ""

def ofSection (key : String) (scope : Scope) (path : String) (s : StorageSection) :
    Outcome Storage := do
  let source ← sourceOf path scope s
  match declaredDestination? s <|> standardDestination? key scope source with
  | some destination => return ⟨key, scope, source, destination⟩
  | none             => throw (.missingField path .destination)

end Storage

end TwoStage
