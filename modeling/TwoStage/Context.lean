import TwoStage.Files.Basic

/-!
# What a compilation takes from outside

The variables of the config round, the directory of the project, the home directory and the one that
holds the user's keys, the file tree, and how strict and in which form the result is wanted.
-/

namespace TwoStage

/-- The form of the result. -/
inductive OutputMode
  /-- A compose file, whose own round of substitution comes later. -/
  | compose
  /-- One build script, which no other round of substitution ever sees. -/
  | singleArtifact
deriving DecidableEq, Repr

/-- What a compilation takes from outside. -/
structure Context where
  vars : String → Option String
  projectDir : Path
  home? : Option Path
  sshDir? : Option Path
  strictHostPaths : Bool
  mode : OutputMode
  files : Files

namespace Context

def standardSshDir (home : Path) : Path := home.child ".ssh"

/-- The path that a user means: below the home directory after a tilde, else seen from the
project. -/
def userPath? (ctx : Context) (raw : String) : Option Path :=
  match raw.toList with
  | ['~']           => ctx.home?
  | '~' :: '/' :: r => ctx.home?.map fun home => home.join (Path.ofChars r)
  | cs              => some (ctx.projectDir.join (Path.ofChars cs))

end Context

end TwoStage
