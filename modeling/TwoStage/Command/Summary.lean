import TwoStage.Command.Paint
import TwoStage.Merge

/-!
# A project at a glance

A report on a checked document: its images and what they are built from, with headings and lists for
people to read.
-/

namespace TwoStage.Summary

/-- A part of a report, painted or not. -/
abbrev Brush := Paint → String → String

/-- What stands where an image is not given. -/
def unset : String := "<unset>"

/-- A heading with a blank line behind it. -/
def heading (brush : Brush) (title : String) : List String := [brush .bold (title ++ ":"), ""]

/-- A section behind other ones, which is left out if it has no lines. -/
def block (brush : Brush) (title : String) (lines : List String) : List String :=
  if lines.isEmpty then [] else [""] ++ heading brush title ++ lines

/-- The lines of a list, with the number of each. -/
def numbered (lines : List String) : List String :=
  lines.mapIdx fun i line => "  " ++ toString (i + 1) ++ ". " ++ line

def stageLine (brush : Brush) (s : Spec) (stage : Stage) : String :=
  let image := (s.stage stage).image
  "  " ++ stage.label ++ ": " ++ brush .dimmed (image.base?.getD unset) ++ " -> " ++
    brush .green (image.output?.getD unset)

def projectLines (brush : Brush) (document : Path) (s : Spec) : List String :=
  heading brush "Project" ++
    ["  " ++ brush .cyan s.project.name ++ " (" ++ document.text ++ ")"] ++
    Stage.all.map (stageLine brush s)

def sshLine (brush : Brush) (m : Merged) : String :=
  match m.ssh?.filter fun ssh => ssh.settings.enabled with
  | some ssh =>
    "  ssh: port " ++ toString ssh.settings.port ++ " installed by " ++
      brush .cyan ssh.stage.label ++ " [users: " ++
      ", ".intercalate (ssh.settings.users.map User.name) ++ "]"
  | none     => "  ssh: " ++ brush .dimmed "(disabled)"

/-- The proxy, if there is one. -/
def proxyLines (m : Merged) : List String :=
  match m.proxy.address? with
  | some address =>
    ["  proxy: " ++ address ++ (m.proxy.port?.elim "" fun port => ":" ++ toString port)]
  | none         => []

def hookLines (brush : Brush) (m : Merged) (hook : Hook) : List String :=
  match m.scripts.entries hook with
  | []      => []
  | entries => ["  " ++ brush .yellow hook.key ++ ":"] ++ entries.map fun e => "    - " ++ e

def lines (brush : Brush) (document : Path) (s : Spec) (m : Merged) : List String :=
  projectLines brush document s ++ [""] ++ heading brush "Merged Stage" ++
    ["  device: " ++ brush .yellow m.device.name, sshLine brush m] ++ proxyLines m ++
    block brush "Ports" (numbered (m.ports.map (brush .green))) ++
    block brush "Environment Variables"
      (numbered (m.environment.entries.map fun (name, value) =>
        brush .cyan name ++ " = " ++ brush .green value)) ++
    block brush "Custom Scripts" (Hook.all.flatMap (hookLines brush m))

def text (brush : Brush) (document : Path) (s : Spec) (m : Merged) : String :=
  String.join ((lines brush document s m).map fun line => line ++ "\n")

end TwoStage.Summary
