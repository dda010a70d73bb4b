import TwoStage.Digest.Sha2
import TwoStage.Files.Change

/-!
# Artifacts

The files that a compilation makes, in order, each at a path of its own; a file at a path that is
already there replaces the other one. They are written one by one, each as a whole, and compared
with what is on disk.
-/

namespace TwoStage

/-- Who may do what with a file. -/
inductive FileMode
  | regular
  | executable
  /-- Only the owner can read it. -/
  | secret
deriving DecidableEq, Repr

def FileMode.bits : FileMode → Nat
  | .regular    => 0o644
  | .executable => 0o755
  | .secret     => 0o600

/-- A generated file, by its path in the project. -/
structure Artifact where
  path : Path
  contents : String
  mode : FileMode
deriving DecidableEq, Repr

def Artifact.bytes (a : Artifact) : ByteArray := a.contents.toUTF8

def Artifact.digest (a : Artifact) : String := Digest.sha256Hex a.bytes.toList

structure Artifacts where
  items : List Artifact
deriving DecidableEq, Repr

namespace Artifacts

def empty : Artifacts := ⟨[]⟩

/-- Put a file into a list, in place of one at the same path or behind all others. -/
def pushItem (a : Artifact) : List Artifact → List Artifact
  | []      => [a]
  | b :: bs => if b.path.same a.path then a :: bs else b :: pushItem a bs

/-- Add a file, replacing one at the same path. -/
def push (as : Artifacts) (a : Artifact) : Artifacts := ⟨pushItem a as.items⟩

def ofList (items : List Artifact) : Artifacts := items.foldl push empty

def get? (as : Artifacts) (p : Path) : Option Artifact := as.items.find? fun a => a.path.same p

def size (as : Artifacts) : Nat := as.items.length

def isEmpty (as : Artifacts) : Bool := as.items.isEmpty

end Artifacts

end TwoStage
