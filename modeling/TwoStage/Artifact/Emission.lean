import TwoStage.Artifact.Basic
import TwoStage.Layout
import TwoStage.Yaml.Printer

/-!
# Emitting artifacts

A compilation gives the compose file; for each stage a wrapper for the scripts of every hook but the
entry point, the entry point with its arguments, and the baked variables; the key files of the
users; and in single-artifact mode a script that builds both stages.
-/

namespace TwoStage.Emission

open Text Yaml

/-- The notice in every commented file. -/
def notice : String := "Generated by stagecraft, do not edit."

def composeName : String := "docker-compose.yml"

def buildScriptName : String := "build-merged.sh"

/-! ### Scripts -/

/-- The path of a script and its arguments, which are kept as they are written. -/
def splitEntry (entry : String) : String × String :=
  match cutAt? isBlank (trimBoth entry.toList) with
  | some (script, arguments) => (String.ofList script, String.ofList (trimLeft arguments))
  | none                     => (trim entry, "")

/-- Drop every copy of a dot and a slash from the start. -/
def dropDotSlash : List Char → List Char
  | '.' :: '/' :: cs => dropDotSlash cs
  | cs               => cs

/-- Where a script of the project is found in an image. -/
def scriptInContainer (script : String) : String :=
  match script.toList with
  | '/' :: _ => script
  | cs       => containerRoot ++ "/" ++ String.ofList (dropDotSlash cs)

/-- What a wrapper runs a script by. Scripts for a login are read by the shell itself, so that they
can change its session. -/
def runner : Hook → String
  | .onUserLogin => "source"
  | _            => "bash"

/-- The line of a wrapper that runs one script. -/
def runLine (hook : Hook) (entry : String) : String :=
  let (script, arguments) := splitEntry entry
  runner hook ++ " " ++ Shell.word (scriptInContainer script) ++
    (if arguments = "" then "" else " " ++ arguments) ++ "\n"

/-- The lines before the scripts of a wrapper. -/
def wrapperHead (stage : Stage) (hook : Hook) : String :=
  "#!/bin/bash\n# " ++ hook.key ++ " scripts of " ++ stage.label ++ ". " ++ notice ++ "\nset -e\n"

/-- The wrapper that runs the scripts of a hook in order. -/
def wrapper (view : StageView) (hook : Hook) : String :=
  wrapperHead view.stage hook ++ String.join ((view.scripts.entries hook).map (runLine hook))

def wrapperName (hook : Hook) : String :=
  let dashed := hook.key.toList.map fun c => if c = '_' then '-' else c
  "_custom-" ++ String.ofList dashed ++ ".sh"

/-! ### The build script -/

/-- What the rendered compose file has for the service of a stage. -/
def serviceField? (tree : Tree) (stage : Stage) (name : String) : Option Tree :=
  Template.get? tree ("services." ++ stage.label ++ "." ++ name)

/-- A text that the build of a stage cannot do without. -/
def serviceText (tree : Tree) (stage : Stage) (name : String) : Outcome String :=
  match (serviceField? tree stage name).bind Tree.scalarText? with
  | some s => .ok s
  | none   => .error (.schema ("services." ++ stage.label ++ "." ++ name) .noBuildValue)

/-- The words that pass one build argument. -/
def argumentWords : Tree × Tree → List String
  | (name, value) =>
    match name.scalarText?, value.scalarText? with
    | some n, some v => ["--build-arg", n ++ "=" ++ v]
    | _,      _      => []

/-- The words that pass all build arguments of a stage. -/
def argumentsOf (tree : Tree) (stage : Stage) : List String :=
  match serviceField? tree stage "build.args" with
  | some (.mapping es) => es.flatMap argumentWords
  | _                  => []

/-- The words of the command that builds a stage. -/
def buildWords (tree : Tree) (stage : Stage) : Outcome (List String) := do
  let dockerfile ← serviceText tree stage "build.dockerfile"
  let image ← serviceText tree stage "image"
  let context ← serviceText tree stage "build.context"
  return ["docker", "build", "--file", dockerfile, "--tag", image] ++ argumentsOf tree stage ++
    [context]

def buildScript (tree : Tree) : Outcome String := do
  let commands ← Stage.all.mapM fun stage => buildWords tree stage
  return "#!/bin/sh\n# Builds both stages without compose. " ++ notice ++
    "\nset -e\ncd \"$(dirname \"$0\")\"\n" ++
    String.join (commands.map fun words => "\n" ++ Shell.command words ++ "\n")

/-! ### All artifacts -/

def composeFile (tree : Tree) : Outcome Artifact :=
  (Template.write tree).map fun text =>
    ⟨Path.ofString composeName, "# " ++ notice ++ "\n" ++ text, .regular⟩

/-- The entry point of a stage and its arguments, both empty if there is none. -/
def entryPoint (view : StageView) : String × String :=
  match view.entryPoint? with
  | some entry =>
    let (script, arguments) := splitEntry entry
    (scriptInContainer script, arguments)
  | none       => ("", "")

def stageFiles (view : StageView) : List Artifact :=
  let file (name contents : String) (mode : FileMode) : Artifact :=
    ⟨view.stage.generatedDir.child name, contents, mode⟩
  let (path, arguments) := entryPoint view
  (Hook.wrapped.map fun hook => file (wrapperName hook) (wrapper view hook) .executable) ++
    [file "_custom-on-entry-path" path .regular, file "_custom-on-entry-args" arguments .regular] ++
    (if view.bakeEnvironment then
      [file BuildArguments.bakedEnvironmentName view.environment.profileScript .regular]
    else [])

def keyFile (mode : FileMode) (key : KeyFile) : Artifact := ⟨key.path, key.contents, mode⟩

/-- The key files of a user; private keys are secret. -/
def userFiles (u : KeyedUser) : List Artifact :=
  u.authorized.map (keyFile .regular) ++
    (u.privateKey?.toList ++ u.hostKey?.toList).map (keyFile .secret)

/-- The build script, if that is wanted. -/
def buildFiles (c : Compilation) (tree : Tree) : Outcome (List Artifact) :=
  match c.mode with
  | .compose        => .ok []
  | .singleArtifact => do
    return [⟨Path.ofString buildScriptName, ← buildScript tree, .executable⟩]

/-- Everything that is emitted, in order, with its rendered compose file. -/
def files (c : Compilation) (tree : Tree) : Outcome (List Artifact) := do
  return [← composeFile tree] ++ (Stage.all.flatMap fun stage => stageFiles (c.view stage)) ++
    c.users.flatMap userFiles ++ (← buildFiles c tree)

/-- The artifacts of a compilation with its rendered compose file. -/
def emit (c : Compilation) (tree : Tree) : Outcome Artifacts :=
  (files c tree).map Artifacts.ofList

end TwoStage.Emission
