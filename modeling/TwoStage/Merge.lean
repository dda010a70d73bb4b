import TwoStage.Spec

/-!
# What the stages are built from

The settings of both stages are merged, the second stage's taking precedence. The first stage is
built from its own settings alone. The second stage is built on top of the first, so it sees the
merged settings, but for the build scripts: the first stage's have already run.
-/

namespace TwoStage

open Yaml

/-! ### Merged settings -/

/-- The SSH settings in effect, and the stage that installs them. -/
structure InstalledSsh where
  stage : Stage
  settings : Ssh
deriving DecidableEq, Repr

/-- The merged settings of both stages. Storage stays with each stage. -/
structure Merged where
  image : Image
  ssh? : Option InstalledSsh
  proxy : Proxy
  apt : Apt
  environment : Environment
  ports : List String
  device : Device
  scripts : Scripts
deriving DecidableEq, Repr

namespace Merged

/-- The SSH settings of the second stage if it has any, even disabled ones, else of the first. -/
def installedSsh? (s : Spec) : Option InstalledSsh :=
  match s.second.ssh?, s.first.ssh? with
  | some settings, _             => some ⟨.second, settings⟩
  | none,          some settings => some ⟨.first, settings⟩
  | none,          none          => none

/-- Merge the second stage on top of the first. -/
def ofSpec (s : Spec) : Merged :=
  let ssh? := installedSsh? s
  { image := s.second.image
    ssh?
    proxy := s.first.proxy.overriddenBy s.second.proxy
    apt := s.first.apt.overriddenBy s.second.apt
    environment := s.first.environment.exportAll s.second.environment
    ports := s.first.ports ++ s.second.ports ++
      (ssh?.bind fun ssh => ssh.settings.portMapping).toList
    device := (s.second.device? <|> s.first.device?).getD .cpu
    scripts := s.first.scripts.append s.second.scripts }

def hasSsh (m : Merged) : Bool := m.ssh?.any fun ssh => ssh.settings.enabled

def toTree (m : Merged) : Tree :=
  .record (
    [("image", m.image.toTree)] ++
    Tree.fieldIf "ssh" (m.ssh?.map fun ssh =>
      .record (("stage", .text ssh.stage.label) :: ssh.settings.treeFields)) ++
    [("proxy", m.proxy.toTree), ("apt", m.apt.toTree), ("environment", m.environment.toTree),
      ("ports", .texts m.ports), ("device", .text m.device.name), ("custom", m.scripts.toTree)])

end Merged

/-! ### Views -/

/-- What the image and the service of one stage are made from. -/
structure StageView where
  stage : Stage
  image : Image
  proxy : Proxy
  apt : Apt
  environment : Environment
  bakeEnvironment : Bool
  ports : List String
  device : Device
  scripts : Scripts
  ssh? : Option Ssh
deriving DecidableEq, Repr

/-- The ports that a stage publishes when it stands alone. -/
def StageSpec.publishedPorts (s : StageSpec) : List String :=
  s.ports ++ (s.ssh?.bind Ssh.portMapping).toList

namespace StageView

/-- The SSH settings that a stage installs. -/
def sshOf (m : Merged) (stage : Stage) : Option Ssh :=
  (m.ssh?.filter fun ssh => ssh.stage = stage).map InstalledSsh.settings

def of (s : Spec) (m : Merged) : Stage → StageView
  | .first  =>
    let ssh? := sshOf m .first
    { stage := .first
      image := s.first.image
      proxy := s.first.proxy
      apt := s.first.apt
      environment := s.first.environment
      bakeEnvironment := s.first.bakeEnvironment
      ports := if ssh?.isSome then s.first.publishedPorts else s.first.ports
      device := s.first.device?.getD .cpu
      scripts := s.first.scripts
      ssh? }
  | .second =>
    { stage := .second
      image := m.image
      proxy := m.proxy
      apt := m.apt
      environment := m.environment
      bakeEnvironment := s.second.bakeEnvironment
      ports := m.ports
      device := m.device
      scripts := m.scripts.set .onBuild s.second.scripts.onBuild
      ssh? := sshOf m .second }

/-- The entry point of the stage: the last one declared. -/
def entryPoint? (v : StageView) : Option String := v.scripts.onEntry.getLast?

end StageView

end TwoStage
