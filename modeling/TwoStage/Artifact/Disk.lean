import TwoStage.Artifact.Basic
import TwoStage.Error

/-!
# Artifacts on disk

Artifacts are written below a directory and compared with what is there. When a file cannot be
written, those before it stay, and it and those behind it are as they were.
-/

namespace TwoStage

/-- How a file on disk compares with the one that was generated. -/
inductive Drift
  | missing
  | changed
  | unchanged
deriving DecidableEq, Repr

namespace Artifact

/-- Where the file goes below a directory. -/
def destination (root : Path) (a : Artifact) : Path := root.join a.path

/-- Write a file as a whole, with the directories above it. What has been made of those stays even
if the file cannot be written. -/
def write (fs : Files) (root : Path) (a : Artifact) : Files × Except FileError Unit :=
  let path := a.destination root
  match fs.makeDirectories ((path.parent?).getD (Path.ofString ".")) with
  | (made, .error e) => (made, .error e)
  | (made, .ok ())   =>
    match made.replace path a.bytes a.mode.bits with
    | .error e    => (made, .error e)
    | .ok written => (written, .ok ())

def drift (fs : Files) (root : Path) (a : Artifact) : Outcome Drift :=
  match fs.read (a.destination root) with
  | .ok bytes        =>
    .ok (if Digest.sha256Hex bytes.toList = a.digest then .unchanged else .changed)
  | .error .notFound => .ok .missing
  | .error _         => .error (.readFailed (a.destination root))

end Artifact

namespace Artifacts

/-- Write files one by one, and give the paths written. -/
def writeItems (root : Path) : Files → List Artifact → Files × Outcome (List Path)
  | fs, []      => (fs, .ok [])
  | fs, a :: as =>
    match a.write fs root with
    | (fs, .error _) => (fs, .error (.writeFailed (a.destination root)))
    | (fs, .ok ())   =>
      let (fs, rest) := writeItems root fs as
      (fs, rest.map (a.destination root :: ·))

def write (fs : Files) (root : Path) (as : Artifacts) : Files × Outcome (List Path) :=
  writeItems root fs as.items

def drift (fs : Files) (root : Path) (as : Artifacts) : Outcome (List (Path × Drift)) :=
  as.items.mapM fun a => do return (a.path, ← a.drift fs root)

end Artifacts

end TwoStage
