import TwoStage.Context
import TwoStage.Environment
import TwoStage.Hook
import TwoStage.Resolution
import TwoStage.Settings
import TwoStage.Storage

/-!
# Documents

A document names its version and its project and has a section for each stage. The version is
looked at before the config round runs, everything else after it.
-/

namespace TwoStage

open Yaml

/-! ### Stage sections -/

/-- A stage as a document writes it. -/
structure StageSection where
  image? : Option Image
  ssh? : Option SshSection
  proxy? : Option Proxy
  apt? : Option Apt
  environment : EnvironmentSection
  bakeEnvironment : Bool
  ports : List String
  device? : Option Device
  storage : OrderedMap String StorageSection
  mount : OrderedMap String StorageSection
  scripts? : Option Scripts
deriving Repr

namespace StageSection

def empty : StageSection where
  image?          := none
  ssh?            := none
  proxy?          := none
  apt?            := none
  environment     := .list []
  bakeEnvironment := false
  ports           := []
  device?         := none
  storage         := .empty
  mount           := .empty
  scripts?        := none

/-- Decode the entries of a list of ports; null has none. -/
def decodePorts (t : Tree) : Decoded (List String) :=
  (Decode.optional (Decode.items Decode.textOrInteger) t).map fun ports => ports.getD []

def fields : List (Decode.Field StageSection) :=
  [ Decode.field "image" (Decode.optional Image.decode) fun v s => { s with image? := v },
    Decode.field "ssh" (Decode.optional SshSection.decode) fun v s => { s with ssh? := v },
    Decode.field "proxy" (Decode.optional Proxy.decode) fun v s => { s with proxy? := v },
    Decode.field "apt" (Decode.optional Apt.decode) fun v s => { s with apt? := v },
    Decode.field "environment" EnvironmentSection.decode fun v s => { s with environment := v },
    Decode.field "bake_environment" Decode.boolean fun v s => { s with bakeEnvironment := v },
    Decode.field "ports" decodePorts fun v s => { s with ports := v },
    Decode.field "device" (Decode.optional Device.decode) fun v s => { s with device? := v },
    Decode.field "storage" (Decode.entries StorageSection.decode)
      fun v s => { s with storage := v },
    Decode.field "mount" (Decode.entries StorageSection.decode) fun v s => { s with mount := v },
    Decode.field "custom" (Decode.optional Scripts.decode) fun v s => { s with scripts? := v } ]

def decode : Tree → Decoded StageSection := Decode.record "StageDoc" true fields [] empty

/-- Declarations as a tree, unless there are none. -/
def storageTree? (m : OrderedMap String StorageSection) : Option Tree :=
  if m.isEmpty then none else some (StorageSection.mapToTree m)

def toTree (s : StageSection) : Tree :=
  .record (
    Tree.fieldIf "image" (s.image?.map Image.toTree) ++
    Tree.fieldIf "ssh" (s.ssh?.map SshSection.toTree) ++
    Tree.fieldIf "proxy" (s.proxy?.map Proxy.toTree) ++
    Tree.fieldIf "apt" (s.apt?.map Apt.toTree) ++
    [("environment", s.environment.toTree), ("bake_environment", .bool s.bakeEnvironment),
      ("ports", .texts s.ports)] ++
    Tree.fieldIf "device" (s.device?.map Device.sectionTree) ++
    Tree.fieldIf "storage" (storageTree? s.storage) ++
    Tree.fieldIf "mount" (storageTree? s.mount) ++
    Tree.fieldIf "custom" (s.scripts?.map Scripts.toTree))

end StageSection

/-! ### Whole documents -/

inductive Version
  | zero
deriving DecidableEq, Repr

namespace Version

def name : Version → String
  | .zero => "stagecraft/v0"

def byName : List (String × Version) := [.zero].map fun v => (v.name, v)

def decode : Tree → Decoded Version := Decode.choice byName

/-- Decode the version of a document and nothing else of it. -/
def decodeFrom : Tree → Decoded Version :=
  Decode.record "ApiVersionMapping" false [Decode.field "api" decode fun v _ => v] [] .zero

end Version

/-- A document. Its tree is the one after the config round, its source the file that it was read
from. -/
structure Document where
  version : Version
  projectName? : Option String
  first? : Option StageSection
  second? : Option StageSection
  tree : Tree
  source? : Option Path
deriving Repr

namespace Document

def empty : Document := ⟨.zero, none, none, none, .null, none⟩

/-- Decode the section that names the project. -/
def decodeProject : Tree → Decoded (Option String) :=
  Decode.record "ProjectConfig" true
    [Decode.field "name" (Decode.optional Decode.text) fun v _ => v] [] none

def fields : List (Decode.Field Document) :=
  [ Decode.field "api" Version.decode fun v s => { s with version := v },
    Decode.field "project" decodeProject fun v s => { s with projectName? := v },
    Decode.field "stage_1" (Decode.optional StageSection.decode)
      fun v s => { s with first? := v },
    Decode.field "stage_2" (Decode.optional StageSection.decode)
      fun v s => { s with second? := v } ]

def decode : Tree → Decoded Document := Decode.record "UserConfig" true fields [] empty

/-- Report a value of the wrong type. -/
def typed {α : Type} (r : Decoded α) : Outcome α :=
  r.mapError fun cause => .invalidDocument (.illTyped cause)

/-- The document of a tree: its version first, then the config round, then its fields. -/
def ofTree (vars : String → Option String) (t : Tree) : Outcome Document := do
  let _ ← typed (Version.decodeFrom t)
  let t ← Resolution.resolve vars t
  let document ← typed (decode t)
  return { document with tree := t }

/-- A document that is null has no entries. -/
def rootOf (t : Tree) : Tree := if t.isNull then .mapping [] else t

def ofText (vars : String → Option String) (text : String) : Outcome Document := do
  let t ← (Yaml.read text).mapError fun cause => .invalidDocument (.unreadable cause)
  ofTree vars (rootOf t)

def ofFile (ctx : Context) (path : Path) : Outcome Document := do
  let text ← (ctx.files.readText path).mapError fun _ => .readFailed path
  let document ← ofText ctx.vars text
  return { document with source? := some path }

def toTree (d : Document) : Tree :=
  .record (
    [("api", .text d.version.name),
      ("project", .record (Tree.fieldIf "name" (d.projectName?.map .text)))] ++
    Tree.fieldIf "stage_1" (d.first?.map StageSection.toTree) ++
    Tree.fieldIf "stage_2" (d.second?.map StageSection.toTree))

end Document

end TwoStage
