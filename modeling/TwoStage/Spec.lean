import TwoStage.Document
import TwoStage.Project

/-!
# Checked documents

A document whose sections have been checked: the first stage has a base image, both stages have the
image that they make, variables, ports and users are well formed, storage is under a category, and a
stage has at most one entry point.
-/

namespace TwoStage

open Yaml

/-- A checked stage. -/
structure StageSpec where
  image : Image
  ssh? : Option Ssh
  proxy : Proxy
  apt : Apt
  environment : Environment
  bakeEnvironment : Bool
  ports : List String
  device? : Option Device
  storage : OrderedMap String StorageSection
  mount : OrderedMap String StorageSection
  scripts : Scripts
deriving DecidableEq, Repr

namespace StageSpec

/-- A stage that a document leaves out. -/
def empty : StageSpec where
  image           := .empty
  ssh?            := none
  proxy           := .empty
  apt             := .empty
  environment     := .empty
  bakeEnvironment := false
  ports           := []
  device?         := none
  storage         := .empty
  mount           := .empty
  scripts         := .empty

/-- Refuse storage that is not under a category. -/
def checkCategories (stage : Stage) (names : List String) : Outcome Unit :=
  match names.find? fun name => !storageCategories.contains name with
  | some name =>
    .error (.schema (FieldPath.below (stage.path "storage") name) (.unknownCategory name))
  | none      => .ok ()

def ofSection (stage : Stage) (s : StageSection) : Outcome StageSpec := do
  let ssh? ← s.ssh?.mapM (Ssh.ofSection (stage.path "ssh"))
  let environment ← s.environment.environment (stage.path "environment")
  checkCategories stage s.storage.keys
  let ports ← Port.normalizeAll (stage.path "ports") s.ports
  let scripts := s.scripts?.getD .empty
  if scripts.onEntry.length > 1 then
    throw (.schema (FieldPath.below (stage.path "custom") "on_entry")
      (.severalEntryPoints scripts.onEntry.length))
  return {
    image := s.image?.getD .empty
    ssh?
    proxy := s.proxy?.getD .empty
    apt := s.apt?.getD .empty
    environment
    bakeEnvironment := s.bakeEnvironment
    ports
    device? := s.device?
    storage := s.storage
    mount := s.mount
    scripts }

/-- The stage with an image of its own, unless it has declared one. -/
def withOutput (s : StageSpec) (image : String) : StageSpec :=
  { s with image := { s.image with output? := some (s.image.output?.getD image) } }

def toTree (s : StageSpec) : Tree :=
  .record (
    [("image", s.image.toTree)] ++
    Tree.fieldIf "ssh" (s.ssh?.map Ssh.toTree) ++
    [("proxy", s.proxy.toTree), ("apt", s.apt.toTree), ("environment", s.environment.toTree),
      ("bake_environment", .bool s.bakeEnvironment), ("ports", .texts s.ports)] ++
    Tree.fieldIf "device" (s.device?.map fun d => .text d.name) ++
    [("storage", StorageSection.mapToTree s.storage), ("mount", StorageSection.mapToTree s.mount),
      ("custom", s.scripts.toTree)])

end StageSpec

/-- A checked document. -/
structure Spec where
  project : Project
  first : StageSpec
  second : StageSpec
  tree : Tree
  source? : Option Path
deriving Repr

namespace Spec

def stage (s : Spec) : Stage → StageSpec
  | .first  => s.first
  | .second => s.second

/-- Check a document in a project directory. The first stage cannot be left out. -/
def ofDocument (dir : Path) (d : Document) : Outcome Spec := do
  let project := Project.of d.projectName? dir
  let first ←
    match d.first? with
    | some s => StageSpec.ofSection .first s
    | none   => throw (.schema Stage.first.key .noBaseStage)
  let second ←
    match d.second? with
    | some s => StageSpec.ofSection .second s
    | none   => pure .empty
  if first.image.base?.isNone then
    throw (.schema (FieldPath.below (Stage.first.path "image") "base") .noBaseImage)
  return {
    project
    first := first.withOutput (project.defaultImage .first)
    second := second.withOutput (project.defaultImage .second)
    tree := d.tree
    source? := d.source? }

end Spec

end TwoStage
