import TwoStage.Artifact.Disk
import TwoStage.Command.Arguments
import TwoStage.Command.Summary
import TwoStage.Compile

/-!
# Carrying out commands

A command finds variables, files and a generator of keys, and leaves files, two texts and a number:
what it prints, what it tells on the side, and zero if all went well.
-/

namespace TwoStage

/-- What a command finds. -/
structure Host where
  vars : List (String × String)
  files : Files
  generator : Generator
  /-- What is printed is seen on a terminal. -/
  terminal : Bool

namespace Host

def var? (host : Host) (name : String) : Option String := host.vars.lookup name

def home? (host : Host) : Option Path :=
  ((host.var? "HOME").filter (· ≠ "")).map Path.ofString

/-- The directory that relative paths start from, as the user came there. -/
def workingDir (host : Host) : Path :=
  ((host.var? "PWD").map Path.ofString).getD (Path.ofLocation host.files.here)

/-- What a compilation of a document takes from the host. -/
def context (host : Host) (options : ProjectOptions) (mode : OutputMode) (document : Path) :
    Context where
  vars := host.var?
  projectDir := Discovery.projectDir host.files document
  home? := host.home?
  sshDir? := host.home?.map Context.standardSshDir
  strictHostPaths := options.strictHostPaths
  mode
  files := host.files

/-- Painting on the host. -/
def brush (host : Host) : Summary.Brush := Paint.apply (Paint.isShown host.var? host.terminal)

end Host

/-- What a command leaves. -/
structure Ending where
  code : Nat
  printed : String
  told : String
  files : Files

namespace Ending

/-- All went well. -/
def success (host : Host) (lines : List String) : Ending :=
  ⟨0, String.join (lines.map fun line => line ++ "\n"), "", host.files⟩

/-- Something went wrong. -/
def failure (host : Host) (code : Nat) (lines : List String) : Ending :=
  ⟨code, "", String.join (lines.map fun line => line ++ "\n"), host.files⟩

/-- Tell something in front of everything else. -/
def after (e : Ending) (notes : String) : Ending := { e with told := notes ++ e.told }

/-- The report of an error. -/
def reportLines (e : Error) : List String :=
  ["Error: " ++ e.code, ""] ++ (e.message?.map fun m => "  × " ++ m).toList ++
    (e.help?.map fun h => "  help: " ++ h).toList

/-- The compiler has refused the document. -/
def refused (host : Host) (e : Error) : Ending := failure host 1 (reportLines e)

end Ending

namespace Command

def versionLine : String := "stagecraft 0.1.0"

def usageLines : List String :=
  [ "Two-Stage Image Configuration Compiler",
    "",
    "Usage: stagecraft [OPTIONS] <COMMAND>",
    "",
    "Commands:",
    "  configure  Compile the configuration and write every generated file",
    "  show       Display the merged stage configuration",
    "  check      Verify generated files are up to date",
    "  init       Create a new stagecraft.yaml file",
    "  help       Print this message",
    "",
    "Options:",
    "  -v, --verbose...  Increase verbosity (-v, -vv, -vvv)",
    "  -q, --quiet       Suppress non-error output",
    "  -h, --help        Print help",
    "  -V, --version     Print version",
    "",
    "Options of configure, show and check:",
    "  -f, --file <FILE>      Configuration file, or a directory to search upwards from",
    "  --strict-host-paths    Reject host mounts outside of the project directory",
    "",
    "Options of configure and check:",
    "  --single-artifact      One self-contained build script instead of a compose file",
    "",
    "Options of configure:",
    "  --dry-run              Compile and list the files without writing them",
    "",
    "Options of show:",
    "  --format <FORMAT>      Output format: table, yaml",
    "",
    "Options of init, and the directory to create the file in:",
    "  --base <BASE>          Base image of stage-1",
    "  --name <NAME>          Project name, defaults to the directory name",
    "  --template <TEMPLATE>  Template to use: minimal, standard" ]

/-- Do something with the document of the project. -/
def withDocument (host : Host) (v : Verbosity) (options : ProjectOptions)
    (act : Path → Ending) : Ending :=
  match Discovery.locate host.files host.workingDir options.file with
  | .error e      => .refused host e
  | .ok document =>
    (act document).after (v.note .step ("using configuration " ++ document.text))

/-- What is told about the keys of a document. -/
def keyNotes (host : Host) (v : Verbosity) (ctx : Context) (document : Path) : String :=
  match Document.ofFile ctx document with
  | .error _ => ""
  | .ok d    =>
    String.join ((Compilation.encryptedUsers ctx host.generator d).map fun user =>
      v.note .warning ("private key of " ++ user ++
        " is encrypted, its public key will not be authorized"))

/-- Do something with the artifacts of the project. -/
def withArtifacts (host : Host) (v : Verbosity) (options : ProjectOptions) (mode : OutputMode)
    (act : Path → Context → Artifacts → Ending) : Ending :=
  withDocument host v options fun document =>
    let ctx := host.context options mode document
    let ending :=
      match compileFile ctx host.generator document with
      | .error e     => Ending.refused host e
      | .ok compiled => act document ctx compiled.artifacts
    ending.after (keyNotes host v ctx document)

/-- The list of a dry run. -/
def listing (host : Host) (as : Artifacts) : Ending :=
  .success host (
    (as.items.map fun a => "  " ++ host.brush .cyan a.path.text) ++
    ["", "Total: " ++ toString as.size ++ " file(s), nothing written"])

/-- The file that is named for all. -/
def mainFile : OutputMode → String
  | .compose        => Emission.composeName
  | .singleArtifact => Emission.buildScriptName

/-- Write the artifacts. What has been written when something goes wrong stays. -/
def save (host : Host) (v : Verbosity) (ctx : Context) (as : Artifacts) : Ending :=
  match as.write host.files ctx.projectDir with
  | (files, .error e)    => { Ending.refused host e with files }
  | (files, .ok written) =>
    let line :=
      "Configured " ++ host.brush .green (mainFile ctx.mode) ++ " (" ++ toString written.length ++
        " file(s) in " ++ ctx.projectDir.text ++ ")"
    { (Ending.success host [line]).after (v.note .result "wrote generated files") with files }

/-- The line about a file that is not as it would be generated. -/
def staleLine? : Path × Drift → Option String
  | (path, .missing) => some ("  - '" ++ path.text ++ "' is missing")
  | (path, .changed) => some ("  - '" ++ path.text ++ "' differs")
  | (_, .unchanged)  => none

/-- Compare the artifacts with what is on disk. -/
def compare (host : Host) (document : Path) (ctx : Context) (as : Artifacts) : Ending :=
  match as.drift host.files ctx.projectDir with
  | .error e   => .refused host e
  | .ok drifts =>
    match drifts.filterMap staleLine? with
    | []    => .success host ["✓ Generated files match " ++ document.text]
    | lines =>
      .failure host 1 (["Error: Generated files are out of date:"] ++ lines ++
        ["", "Run 'stagecraft configure' to regenerate them"])

def showMerged (host : Host) (options : ProjectOptions) (asDocument : Bool) (document : Path) :
    Ending :=
  let ctx := host.context options .compose document
  let spec : Outcome Spec := do Spec.ofDocument ctx.projectDir (← Document.ofFile ctx document)
  match spec with
  | .error e => .refused host e
  | .ok spec =>
    let merged := Merged.ofSpec spec
    let text :=
      if asDocument then "# " ++ document.text ++ "\n" ++ Yaml.write merged.toTree
      else Summary.text host.brush document spec merged
    ⟨0, text, "", host.files⟩

/-- Start a new document, unless there is one. -/
def startDocument (host : Host) (dir : Path) (starter : Starter) : Ending :=
  let path := dir.child Discovery.documentName
  if host.files.hasAny path then
    .failure host 1 ["Error: " ++ Discovery.documentName ++ " already exists at " ++ path.shown]
  else
    match host.files.write path starter.document.toUTF8 with
    | .error _  => .failure host 1 ["Error: Failed to write " ++ Discovery.documentName]
    | .ok files =>
      let lines :=
        [ "Created " ++ Discovery.documentName ++ " at " ++ path.shown,
          "",
          "Next steps:",
          "  1. Edit the file to describe your stages",
          "  2. Run 'stagecraft show' to preview the merged configuration",
          "  3. Run 'stagecraft configure' to generate the compose file" ]
      { Ending.success host lines with files }

def run (host : Host) (v : Verbosity) : Command → Ending
  | .configure options mode dryRun =>
    withArtifacts host v options mode fun _ ctx as =>
      if dryRun then listing host as else save host v ctx as
  | .display options asDocument    =>
    withDocument host v options (showMerged host options asDocument)
  | .check options mode            => withArtifacts host v options mode (compare host)
  | .start dir starter             => startDocument host dir starter

def runArguments (host : Host) (words : List String) : Ending :=
  match ofArguments host.var? words with
  | .ok (v, command)      => command.run host v
  | .error .help          => .success host usageLines
  | .error .version       => .success host [versionLine]
  | .error (.usage cause) =>
    .failure host 2 ["error: " ++ cause.message, "", "For more information, try '--help'."]

end Command

end TwoStage
