import TwoStage.Path

/-!
# The file tree

A file tree is a list of places, each with a directory, a file or a link; the root is always a
directory. A path is walked step by step: the place reached so far has to be a directory, a step to
the parent stays at the root, and a link is replaced by the steps of its target. A walk follows at
most `maxLinks` links. Names and paths have a greatest length, and no path holds a zero byte.
-/

namespace TwoStage

/-- A place by the names that lead to it from the root. -/
abbrev Location := List (List Char)

section

/-- Contents are compared as in the core library, whatever else is imported. -/
local instance decidableEqContents : DecidableEq ByteArray := ByteArray.instDecidableEq

/-- What is at a place. -/
inductive FileNode
  | directory (mode : Nat)
  | file (contents : ByteArray) (mode : Nat)
  | link (target : Path)
deriving DecidableEq

end

/-- Why an operation on files fails. -/
inductive FileError
  | notFound
  | notADirectory
  | isADirectory
  | alreadyExists
  | tooManyLinks
  | nameTooLong
  | zeroByte
  | badEncoding
deriving DecidableEq, Repr

/-- A file tree, and the directory that relative paths start from. -/
structure Files where
  entries : List (Location × FileNode)
  here : Location

inductive Step
  | stay
  | up
  | down (name : List Char)
deriving DecidableEq, Repr

/-- The step that a segment of a path asks for. -/
def Step.ofSegment : List Char → Step
  | []         => .stay
  | ['.']      => .stay
  | ['.', '.'] => .up
  | name       => .down name

def Path.steps (p : Path) : List Step := p.segments.map Step.ofSegment

def Path.ofLocation (place : Location) : Path := ⟨true, place⟩

namespace Files

/-- The permissions of a new directory. -/
def directoryMode : Nat := 0o755

/-- The permissions of a new file. -/
def fileMode : Nat := 0o644

/-- How many links a walk follows. -/
def maxLinks : Nat := 40

/-- The most bytes of a name. -/
def maxNameSize : Nat := 255

/-- The most bytes of a path. -/
def maxPathSize : Nat := 4095

def empty : Files := ⟨[], []⟩

def node? (fs : Files) (place : Location) : Option FileNode :=
  if place = [] then some (.directory directoryMode) else fs.entries.lookup place

/-- Refuse a name that no place can have. -/
def checkName (name : List Char) : Except FileError Unit :=
  if maxNameSize < (String.ofList name).utf8ByteSize then .error .nameTooLong else .ok ()

/-- Refuse a path that holds a zero byte. -/
def checkBytes (p : Path) : Except FileError Unit :=
  if p.toChars.contains '\x00' then .error .zeroByte else .ok ()

/-- Refuse a path that leads nowhere whatever the tree is. -/
def checkPath (p : Path) : Except FileError Unit := do
  checkBytes p
  if !p.absolute && p.segments = [] then throw .notFound
  if maxPathSize < p.text.utf8ByteSize then throw .nameTooLong

/-- Take steps from a place. Only the last name may lead to where nothing is. A link there is
followed on demand, any other link always: `jump` takes the steps from where a link leads. -/
def walkWith (fs : Files) (followLast : Bool)
    (jump : Location → List Step → Except FileError Location) (place : Location) :
    List Step → Except FileError Location
  | []           => .ok place
  | step :: rest =>
    match fs.node? place with
    | none                => .error .notFound
    | some (.file ..)     => .error .notADirectory
    | some (.link _)      => .error .notADirectory
    | some (.directory _) =>
      match step with
      | .stay      => fs.walkWith followLast jump place rest
      | .up        => fs.walkWith followLast jump place.dropLast rest
      | .down name =>
        match checkName name, fs.node? (place ++ [name]) with
        | .error e, _                   => .error e
        | .ok (),   some (.link target) =>
          if rest = [] && !followLast then .ok (place ++ [name])
          else jump (if target.absolute then [] else place) (target.steps ++ rest)
        | .ok (),   _                   => fs.walkWith followLast jump (place ++ [name]) rest

/-- Take steps from a place, following so many links at most. -/
def walk (fs : Files) (followLast : Bool) :
    (links : Nat) → (place : Location) → (steps : List Step) → Except FileError Location
  | 0         => fs.walkWith followLast fun _ _ => .error .tooManyLinks
  | links + 1 => fs.walkWith followLast (fs.walk followLast links)

/-- Where a path starts. -/
def start (fs : Files) (p : Path) : Location := if p.absolute then [] else fs.here

/-- Where a path leads. The empty path leads nowhere. -/
def locate (fs : Files) (followLast : Bool) (p : Path) : Except FileError Location := do
  checkPath p
  fs.walk followLast maxLinks (fs.start p) p.steps

/-- What a path leads to, and where. -/
def find (fs : Files) (p : Path) : Except FileError (Location × FileNode) := do
  let place ← fs.locate true p
  match fs.node? place with
  | some node => return (place, node)
  | none      => throw .notFound

/-- A path leads to something. -/
def hasAny (fs : Files) (p : Path) : Bool := (fs.find p).toOption.isSome

def hasFile (fs : Files) (p : Path) : Bool :=
  match fs.find p with
  | .ok (_, .file ..) => true
  | _                 => false

def hasDirectory (fs : Files) (p : Path) : Bool :=
  match fs.find p with
  | .ok (_, .directory _) => true
  | _                     => false

/-- The path without links, dots and steps to parents that leads to the same place. -/
def canonicalize (fs : Files) (p : Path) : Except FileError Path :=
  (fs.find p).map fun (place, _) => Path.ofLocation place

def read (fs : Files) (p : Path) : Except FileError ByteArray := do
  match ← fs.find p with
  | (_, .file contents _) => return contents
  | _                     => throw .isADirectory

def readText (fs : Files) (p : Path) : Except FileError String := do
  match String.fromUTF8? (← fs.read p) with
  | some s => return s
  | none   => throw .badEncoding

/-- The permissions of a file or a directory. -/
def mode (fs : Files) (p : Path) : Except FileError Nat := do
  match ← fs.find p with
  | (_, .file _ mode)    => return mode
  | (_, .directory mode) => return mode
  | (_, .link _)         => throw .tooManyLinks

/-- The names that lead from a place to another one below it. -/
def namesBelow? : Location → Location → Option (List (List Char))
  | [],      names   => some names
  | a :: as, b :: bs => if a = b then namesBelow? as bs else none
  | _ :: _,  []      => none

/-- What is not a directory below a directory. Links are not followed. -/
def list (fs : Files) (p : Path) : Except FileError (List Path) := do
  match ← fs.find p with
  | (top, .directory _) =>
    return fs.entries.filterMap fun (place, node) =>
      match namesBelow? top place, node with
      | none,       _            => none
      | some _,     .directory _ => none
      | some names, _            => some ⟨false, names⟩
  | _ => throw .notADirectory

end Files

end TwoStage
