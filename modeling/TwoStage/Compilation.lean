import TwoStage.Credentials
import TwoStage.Guardrail
import TwoStage.Mount

/-!
# Compilations

What is known about a document once everything in it has been resolved and the guardrail has passed.
-/

namespace TwoStage

/-- A document with everything resolved. -/
structure Compilation where
  spec : Spec
  merged : Merged
  credentials : Credentials
  firstMounts : List Mount
  secondMounts : List Mount
  mode : OutputMode

namespace Compilation

/-- The users of the stage that installs SSH. -/
def users (c : Compilation) : List KeyedUser := c.credentials.users

def mounts (c : Compilation) : Stage → List Mount
  | .first  => c.firstMounts
  | .second => c.secondMounts

def view (c : Compilation) (stage : Stage) : StageView := StageView.of c.spec c.merged stage

/-- The keys of the users, unless no SSH server is installed. -/
def resolveKeys (ctx : Context) (generator : Generator) (m : Merged) : Outcome Credentials :=
  match m.ssh? with
  | none     => .ok ⟨[], []⟩
  | some ssh =>
    if ssh.settings.enabled then Credentials.resolve ctx generator ssh else .ok ⟨[], []⟩

def resolveStageMounts (ctx : Context) (s : Spec) (stage : Stage) : Outcome (List Mount) :=
  resolveMounts ctx s.project stage (s.stage stage).storage (s.stage stage).mount

/-- A checked document past the guardrail, and its merged settings. -/
def guarded (ctx : Context) (d : Document) : Outcome (Spec × Merged) := do
  let spec ← Spec.ofDocument ctx.projectDir d
  let merged := Merged.ofSpec spec
  Guardrail.check spec merged ctx.mode
  return (spec, merged)

/-- Resolve everything in a document, and run the guardrail. -/
def prepare (ctx : Context) (generator : Generator) (d : Document) : Outcome Compilation := do
  let (spec, merged) ← guarded ctx d
  let credentials ← resolveKeys ctx generator merged
  let firstMounts ← resolveStageMounts ctx spec .first
  let secondMounts ← resolveStageMounts ctx spec .second
  return ⟨spec, merged, credentials, firstMounts, secondMounts, ctx.mode⟩

/-- The users whose private key turns out to be encrypted, as far as keys are resolved. -/
def encryptedUsers (ctx : Context) (generator : Generator) (d : Document) : List String :=
  match guarded ctx d with
  | .ok (_, { ssh? := some ssh, .. }) =>
    if ssh.settings.enabled then
      ((Credentials.reached ctx generator ssh.stage ssh.settings.users).filter
        KeyedUser.hasEncryptedKey).map KeyedUser.name
    else []
  | _ => []

end Compilation

end TwoStage
