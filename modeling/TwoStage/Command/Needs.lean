import TwoStage.Command.Run
import TwoStage.Yaml.Texts

/-!
# What a command looks at

The paths and the variables that a command may look at, as far as they can be told from the files
and variables that are known already. Once nothing new turns up the command can be carried out on
what is known.
-/

namespace TwoStage

open Yaml

/-- Paths and names of variables. -/
structure Needs where
  paths : List Path
  names : List String
deriving Repr

namespace Needs

/-- The needs of both. -/
def append (a b : Needs) : Needs := ⟨a.paths ++ b.paths, a.names ++ b.names⟩

instance : Append Needs := ⟨append⟩

/-- The variables that matter to every command. -/
def always : Needs where
  paths := []
  names :=
    ["HOME", "PWD", "NO_COLOR", "CLICOLOR", "CLICOLOR_FORCE"] ++
      (OptionRule.project ++ [OptionRule.singleArtifact]).filterMap OptionRule.standIn?

/-- The variables of the config round in a text. -/
def namesIn (s : String) : List String :=
  match scanMarkers s with
  | .ok ms   =>
    (ms.filter fun m => m.marker.round = .config).map fun m => String.ofList m.marker.name
  | .error _ => []

/-- The variables of a document. -/
def ofText (text : String) : Needs :=
  match Yaml.read text with
  | .ok t    => ⟨[], (t.textsAt "").flatMap fun (_, s) => namesIn s⟩
  | .error _ => ⟨[], []⟩

/-- The files that a source of keys may mean. -/
def ofSource (ctx : Context) : KeySource → Needs
  | .absent   => ⟨[], []⟩
  | .text _   => ⟨[], []⟩
  | .file raw =>
    let searched :=
      if raw = Credentials.discoveryToken then
        ctx.sshDir?.elim [] fun dir =>
          Credentials.discoveryNames.flatMap fun name =>
            [dir.child (name ++ ".pub"), dir.child name]
      else []
    ⟨(ctx.userPath? raw).toList ++ searched, []⟩

def ofUser (ctx : Context) (stage : Stage) (u : User) : Needs :=
  ofSource ctx u.publicKey ++ ofSource ctx u.privateKey ++
    ⟨[Credentials.storedPath ctx stage u.name], []⟩

def ofKeys (ctx : Context) (d : Document) : Needs :=
  match Compilation.guarded ctx d with
  | .ok (_, { ssh? := some ssh, .. }) =>
    (ssh.settings.users.map (ofUser ctx ssh.stage)).foldl append ⟨[], []⟩
  | _ => ⟨[], []⟩

def ofArtifacts (host : Host) (ctx : Context) (d : Document) : Needs :=
  match compile ctx host.generator d with
  | .ok compiled => ⟨compiled.artifacts.items.map (Artifact.destination ctx.projectDir), []⟩
  | .error _     => ⟨[], []⟩

def ofDocument (host : Host) (options : ProjectOptions) (mode : OutputMode) (document : Path) :
    Needs :=
  let ctx := host.context options mode document
  let inside : Needs :=
    match Document.ofFile ctx document with
    | .ok d    => ofKeys ctx d ++ ofArtifacts host ctx d
    | .error _ => ⟨[], []⟩
  ⟨[document, ctx.projectDir], []⟩ ++ ofText ((host.files.readText document).toOption.getD "") ++
    inside

def ofProject (host : Host) (options : ProjectOptions) (mode : OutputMode) : Needs :=
  let start := Discovery.startPath host.workingDir options.file
  let found : Needs :=
    match Discovery.locate host.files host.workingDir options.file with
    | .ok document => ofDocument host options mode document
    | .error _     => ⟨[], []⟩
  ⟨start :: Discovery.candidates start, []⟩ ++ found

def ofCommand (host : Host) : Command → Needs
  | .configure options mode _ => ofProject host options mode
  | .display options _        => ofProject host options .compose
  | .check options mode       => ofProject host options mode
  | .start dir _              => ⟨[dir.child Discovery.documentName], []⟩

def ofArguments (host : Host) (words : List String) : Needs :=
  match Command.ofArguments host.var? words with
  | .ok (_, command) => always ++ ofCommand host command
  | .error _         => always

end Needs

end TwoStage
