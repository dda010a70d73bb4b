import TwoStage.Command.Starter
import TwoStage.Context

/-!
# Commands

What can be asked for on the command line: to generate the files of a project, to show its merged
settings, to check that its files are up to date, and to start a new document.
-/

namespace TwoStage

/-- Where the document is looked for, and how strict its host paths are taken. -/
structure ProjectOptions where
  file : Path
  strictHostPaths : Bool
deriving DecidableEq, Repr

inductive Command
  /-- Generate the files; a dry run only lists them. -/
  | configure (options : ProjectOptions) (mode : OutputMode) (dryRun : Bool)
  /-- Show the merged settings, as a document or as a table. -/
  | display (options : ProjectOptions) (asDocument : Bool)
  /-- Compare the files on disk with what would be generated. -/
  | check (options : ProjectOptions) (mode : OutputMode)
  /-- Start a new document in a directory. -/
  | start (dir : Path) (starter : Starter)
deriving DecidableEq, Repr

/-- How much is told about what goes on. -/
structure Verbosity where
  quiet : Bool
  level : Nat
deriving DecidableEq, Repr

/-- What kind of news a note is. -/
inductive Notice
  | warning
  | result
  | step
deriving DecidableEq, Repr

namespace Notice

def name : Notice → String
  | .warning => "WARN"
  | .result  => "INFO"
  | .step    => "DEBUG"

def level : Notice → Nat
  | .warning => 0
  | .result  => 1
  | .step    => 2

end Notice

/-- The line of a note, if it is shown. -/
def Verbosity.note (v : Verbosity) (notice : Notice) (text : String) : String :=
  if !v.quiet && notice.level ≤ v.level then notice.name ++ " " ++ text ++ "\n" else ""

end TwoStage
