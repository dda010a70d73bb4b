import TwoStage.Compilation
import TwoStage.Template

/-!
# The compose layout

The template of every compose file, and the context that a compilation lays over its defaults: the
images, build arguments, variables, ports and volumes of both stages, and the volumes that are
declared for the whole file.
-/

namespace TwoStage

open Yaml Decimal

/-! ### Build arguments -/

namespace BuildArguments

abbrev Argument := String × String

/-- An argument that is set only if it has a value. -/
def argumentIf (name : String) (value : Option String) : List Argument :=
  (value.map fun v => (name, v)).toList

/-- A flag that is set only if it is known. -/
def flagIf (name : String) (value : Option Bool) : List Argument :=
  argumentIf name (value.map Tree.boolText)

def commaSeparated (texts : List String) : String := ",".intercalate texts

/-- A list that is set only if it has items. -/
def listIf (name : String) (texts : List String) : List Argument :=
  argumentIf name (if texts.isEmpty then none else some (commaSeparated texts))

/-- Where the directory of a stage is seen in its image. -/
def stageDir (stage : Stage) : String := containerRoot ++ "/" ++ stage.label

/-- Where the generated files of a stage are seen in its image. -/
def generatedDir (stage : Stage) : String := stageDir stage ++ "/" ++ generatedName

def bakedEnvironmentName : String := "_baked-env.sh"

/-- The arguments about the proxy and the package sources. -/
def network (proxy : Proxy) (apt : Apt) : List Argument :=
  argumentIf "PROXY_URL" proxy.url? ++
  flagIf "PROXY_ENABLE_GLOBALLY" proxy.enableGlobally? ++
  flagIf "PROXY_REMOVE_AFTER_BUILD" proxy.removeAfterBuild? ++
  argumentIf "APT_REPO_SOURCE" apt.repoSource? ++
  flagIf "APT_KEEP_REPO_AFTER_BUILD" apt.keepRepoAfterBuild? ++
  flagIf "APT_USE_PROXY" apt.useProxy? ++
  flagIf "APT_KEEP_PROXY_AFTER_BUILD" apt.keepProxyAfterBuild?

/-- The arguments about the user of the given number. -/
def user (i : Nat) (u : KeyedUser) : List Argument :=
  let name (field : String) := "SSH_USER_" ++ natText i ++ "_" ++ field
  [(name "NAME", u.name)] ++
  argumentIf (name "PASSWORD") u.password? ++
  argumentIf (name "UID") (u.uid?.map natText) ++
  argumentIf (name "GID") (u.gid?.map natText) ++
  listIf (name "PUBKEY_FILES") (u.authorized.map fun key => key.path.inContainer) ++
  argumentIf (name "PRIVKEY_FILE") (u.privateKey?.map fun key => key.path.inContainer)

def ssh (settings : Option Ssh) (users : List KeyedUser) : List Argument :=
  match settings with
  | none   => []
  | some s =>
    if s.enabled then
      [("SSH_PORT", natText s.port), ("SSH_USER_COUNT", natText users.length)] ++
        (users.mapIdx user).flatten
    else []

/-- Where storage in the image is. -/
def inImage (mounts : List Mount) : List String :=
  (mounts.filter fun m => m.target = .inImage).map Mount.destination

/-- The arguments that the image of a stage is built with. -/
def of (view : StageView) (users : List KeyedUser) (mounts : List Mount) :
    OrderedMap String String :=
  OrderedMap.ofList (
    [("STAGE_DIR", stageDir view.stage), ("GENERATED_DIR", generatedDir view.stage)] ++
    network view.proxy view.apt ++
    ssh view.ssh? users ++
    argumentIf "BAKED_ENV_FILE"
      (if view.bakeEnvironment then some (generatedDir view.stage ++ "/" ++ bakedEnvironmentName)
      else none) ++
    listIf "IMAGE_STORAGE_DIRS" (inImage mounts))

end BuildArguments

/-! ### Volumes -/

/-- A volume as the compose file declares it, with its name where that is not its key. -/
structure VolumeDeclaration where
  external : Bool
  name? : Option String
deriving DecidableEq, Repr

namespace VolumeDeclaration

/-- The declaration of a mount's volume, by its key. -/
def ofMount? (m : Mount) : Option (String × VolumeDeclaration) :=
  match m.target with
  | .volume key name external => some (key, ⟨external, if name = key then none else some name⟩)
  | _                         => none

/-- The declarations of all volumes among mounts. -/
def ofMounts (mounts : List Mount) : OrderedMap String VolumeDeclaration :=
  OrderedMap.ofList (mounts.filterMap ofMount?)

def toTree (v : VolumeDeclaration) : Tree :=
  .record (
    Tree.fieldIf "external" (if v.external then some (.bool true) else none) ++
    Tree.fieldIf "name" (v.name?.map .text))

end VolumeDeclaration

namespace Layout

/-! ### The template -/

/-- A reference into the context as a text. -/
def reference (path : String) : Tree :=
  .text ("$\x7b" ++ contextKey ++ "." ++ path ++ "\x7d")

/-- The defaults of a stage: what it is built on, and nothing else. -/
def stageDefaults (stage : Stage) (base : Tree) : Tree :=
  .record [
    ("image", .record [("base", base), ("output", .null)]),
    ("build_args", .record [("BASE_IMAGE", reference (stage.path "image.base"))]),
    ("environment", .null),
    ("ports", .null),
    ("volumes", .null),
    ("deploy", .null)]

/-- The section under which a container gets all devices. -/
def gpuDeploy : Tree :=
  .record [("resources", .record [("reservations", .record [("devices", .sequence [
    .record [("driver", .text "nvidia"), ("count", .text "all"),
      ("capabilities", .texts ["gpu"])]])])])]

/-- The defaults of the context. -/
def defaults : Tree :=
  .record [
    ("project", .record [("name", .text Project.fallbackName)]),
    ("gpu_deploy", gpuDeploy),
    (Stage.first.key, stageDefaults .first .null),
    (Stage.second.key, stageDefaults .second (reference (Stage.first.path "image.output"))),
    ("volumes", .null)]

def service (stage : Stage) : Tree :=
  .record [
    ("image", reference (stage.path "image.output")),
    ("build", .record [
      ("context", .text "."),
      ("dockerfile", .text (stage.label ++ "/Dockerfile")),
      ("args", reference (stage.path "build_args"))]),
    ("environment", reference (stage.path "environment")),
    ("ports", reference (stage.path "ports")),
    ("volumes", reference (stage.path "volumes")),
    ("deploy", reference (stage.path "deploy")),
    ("stdin_open", .bool true),
    ("tty", .bool true)]

/-- The template of every compose file. -/
def template : Tree :=
  .record [
    (contextKey, defaults),
    ("name", reference "project.name"),
    ("services", .record (Stage.all.map fun stage => (stage.label, service stage))),
    ("volumes", reference "volumes")]

/-! ### The context -/

/-- A field for a list that has items. -/
def listField (name : String) (texts : List String) : List (String × Tree) :=
  Tree.fieldIf name (if texts.isEmpty then none else some (.texts texts))

def stageContext (c : Compilation) (stage : Stage) : Tree :=
  let view := c.view stage
  let mounts := c.mounts stage
  .record (
    [("image", view.image.toTree),
      ("build_args", Environment.toTree (BuildArguments.of view c.users mounts))] ++
    listField "environment" view.environment.assignments ++
    listField "ports" view.ports ++
    listField "volumes" (mounts.filterMap Mount.composeEntry?) ++
    Tree.fieldIf "deploy" (if view.device = .gpu then some (reference "gpu_deploy") else none))

def volumes (c : Compilation) : OrderedMap String VolumeDeclaration :=
  VolumeDeclaration.ofMounts (Stage.all.flatMap c.mounts)

/-- The context of a compilation. -/
def context (c : Compilation) : Tree :=
  .record (
    [("project", c.spec.project.toTree)] ++
    (Stage.all.map fun stage => (stage.key, stageContext c stage)) ++
    Tree.fieldIf "volumes"
      (if (volumes c).isEmpty then none
      else some (.record ((volumes c).entries.map fun (key, v) => (key, v.toTree)))))

/-- The compose file of a compilation as a tree. -/
def render (c : Compilation) : Outcome Tree := Template.render template (context c)

end Layout

end TwoStage
