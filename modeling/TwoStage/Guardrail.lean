import TwoStage.Context
import TwoStage.Merge
import TwoStage.Yaml.Texts

/-!
# The guardrail

Some values are baked into generated files that compose never sees: scripts, entry points, baked
variables and keys. None of them may hold a compose marker. In single-artifact mode compose sees
nothing at all, so no text of the document may hold one.
-/

namespace TwoStage.Guardrail

open Yaml

/-- A text that is baked somewhere, and its place in the document. -/
structure Baked where
  path : String
  text : String
  bakery : Bakery
deriving DecidableEq, Repr

/-- Where the scripts of a hook are baked. -/
def bakeryOf : Hook → Bakery
  | .onEntry => .entryPoint
  | .onBuild => .buildScript
  | _        => .lifecycleScript

def bakedScripts (stage : Stage) (s : StageSpec) : List Baked :=
  Hook.all.flatMap fun hook =>
    (s.scripts.entries hook).mapIdx fun i entry =>
      ⟨FieldPath.item (FieldPath.below (stage.path "custom") hook.key) i, entry, bakeryOf hook⟩

/-- The variables of a stage are baked by the stage itself or by the one on top of it. -/
def bakesEnvironment (s : Spec) (stage : Stage) : Bool :=
  (s.stage stage).bakeEnvironment || (stage = .first && s.second.bakeEnvironment)

/-- The variables of a stage, if they are baked. -/
def bakedVariables (s : Spec) (stage : Stage) : List Baked :=
  if bakesEnvironment s stage then
    (s.stage stage).environment.entries.map fun (name, value) =>
      ⟨FieldPath.below (stage.path "environment") name, value, .bakedEnvironment⟩
  else []

/-- The source of one half of a user's key. -/
def bakedKey (usersPath : String) (user : User) (half : KeyHalf) : List Baked :=
  let entry (field value : String) : List Baked :=
    [⟨FieldPath.below (FieldPath.below usersPath user.name) field, value, .keyMaterial⟩]
  match user.source half with
  | .file path => entry half.fileField path
  | .text key  => entry half.textField key
  | .absent    => []

/-- The keys of the SSH settings in effect. -/
def bakedKeys (m : Merged) : List Baked :=
  match m.ssh? with
  | none     => []
  | some ssh =>
    ssh.settings.users.flatMap fun user =>
      let path := FieldPath.below (ssh.stage.path "ssh") "users"
      bakedKey path user .publicKey ++ bakedKey path user .privateKey

/-- Everything that is baked, in the order in which it is checked. -/
def baked (s : Spec) (m : Merged) : List Baked :=
  (Stage.all.flatMap fun stage => bakedScripts stage (s.stage stage) ++ bakedVariables s stage) ++
    bakedKeys m

/-- Refuse a compose marker in a baked text. -/
def checkBaked (b : Baked) : Outcome Unit :=
  match firstComposeMarker? b.text with
  | some name => .error (.markerNotAllowed b.path name b.bakery)
  | none      => .ok ()

/-- Refuse a compose marker in any text of the document. -/
def checkText (path text : String) : Outcome Unit :=
  match firstComposeMarker? text with
  | some name => .error (.markerInSingleArtifact path name)
  | none      => .ok ()

/-- Check a document whose result has the given form. -/
def check (s : Spec) (m : Merged) (mode : OutputMode) : Outcome Unit := do
  (baked s m).forM checkBaked
  match mode with
  | .compose        => return
  | .singleArtifact => s.tree.textsOf.forM fun (path, text) => checkText path text

end TwoStage.Guardrail
