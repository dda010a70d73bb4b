import TwoStage.Files.Basic

/-!
# Changes of the file tree

Directories are made with those above them, which stay even if the last one cannot be made. A file
is replaced as a whole, so that its place holds either what was there before or all of the new
contents; a link at the place itself is replaced, not followed. Writing to a path does follow links,
and makes the file that the last of them leads to.

A change is about the last name of a path. A path that ends in dots names nothing, and one that ends
in a slash names nothing but a directory.
-/

namespace TwoStage

/-- A path and the ones above it, longest first. -/
def Path.ancestorsFrom : Nat → Path → List Path
  | 0,     p => [p]
  | n + 1, p =>
    match p.parent? with
    | some q => p :: Path.ancestorsFrom n q
    | none   => [p]

/-- A path and the ones above it, longest first. -/
def Path.ancestors (p : Path) : List Path := Path.ancestorsFrom p.segments.length p

def Path.isEmpty (p : Path) : Bool := !p.absolute && p.segments.isEmpty

/-- What a path ends in: a name, behind which slashes may stand, or anything else. -/
inductive PathEnd
  | name (name : List Char) (closed : Bool)
  | dots
deriving DecidableEq, Repr

/-- The steps in front of the end of a path, and its end. -/
def Path.parts (p : Path) : List Step × PathEnd :=
  match p.segments.reverse.dropWhile (· = []) with
  | []          => ([], .dots)
  | s :: before =>
    (before.reverse.map Step.ofSegment,
      match Step.ofSegment s with
      | .down name => .name name (p.segments.getLast? = some [])
      | _          => .dots)

namespace Files

/-- Put a node into a list of entries. -/
def putEntry (place : Location) (node : FileNode) :
    List (Location × FileNode) → List (Location × FileNode)
  | []           => [(place, node)]
  | (q, n) :: es => if q = place then (q, node) :: es else (q, n) :: putEntry place node es

/-- Put a node at a place. -/
def put (fs : Files) (place : Location) (node : FileNode) : Files :=
  { fs with entries := putEntry place node fs.entries }

/-- Take away a place and everything below it. -/
def takeAway (fs : Files) (place : Location) : Files :=
  { fs with entries := fs.entries.filter fun (q, _) => !place.isPrefixOf q }

/-- The directory in which steps from a place end. -/
def directoryAt (fs : Files) (place : Location) (steps : List Step) :
    Except FileError Location := do
  let place ← fs.walk true maxLinks place steps
  match fs.node? place with
  | some (.directory _) => return place
  | some _              => throw .notADirectory
  | none                => throw .notFound

/-- The place that the end of a path names in a directory, and whether slashes follow its name. -/
def named? (above : Location) : PathEnd → Except FileError (Option (Location × Bool))
  | .dots             => .ok none
  | .name name closed => (checkName name).map fun _ => some (above ++ [name], closed)

/-- The place that a path names, whatever is there, and whether slashes follow its name. -/
def slot? (fs : Files) (p : Path) : Except FileError (Option (Location × Bool)) := do
  checkPath p
  let (before, ending) := p.parts
  named? (← fs.directoryAt (fs.start p) before) ending

/-! ### Directories -/

/-- Make one directory where nothing is. -/
def makeDirectory (fs : Files) (p : Path) : Except FileError Files := do
  match ← fs.slot? p with
  | none            => throw .alreadyExists
  | some (place, _) =>
    match fs.node? place with
    | some _ => throw .alreadyExists
    | none   => return fs.put place (.directory directoryMode)

/-- Make one directory unless it is there. -/
def ensureDirectory (fs : Files) (p : Path) : Files × Except FileError Unit :=
  match fs.makeDirectory p with
  | .ok fs   => (fs, .ok ())
  | .error e => (fs, if fs.hasDirectory p then .ok () else .error e)

/-- Make the first of some paths a directory, and the others before it as far as needed. -/
def makeDirectoriesAlong (fs : Files) : List Path → Files × Except FileError Unit
  | []         => (fs, .ok ())
  | p :: above =>
    if p.isEmpty then (fs, .ok ())
    else
      match fs.makeDirectory p with
      | .error .notFound =>
        match fs.makeDirectoriesAlong above with
        | (fs, .ok ())   => fs.ensureDirectory p
        | (fs, .error e) => (fs, .error e)
      | _ => fs.ensureDirectory p

/-- Make a directory and those above it, unless they are there. -/
def makeDirectories (fs : Files) (p : Path) : Files × Except FileError Unit :=
  fs.makeDirectoriesAlong p.ancestors

/-! ### Files and links -/

/-- Put a file at a path in place of what is there, unless that is a directory. -/
def replace (fs : Files) (p : Path) (contents : ByteArray) (mode : Nat) :
    Except FileError Files := do
  match ← fs.slot? p with
  | some (place, false) =>
    match fs.node? place with
    | some (.directory _) => throw .isADirectory
    | _                   => return fs.put place (.file contents mode)
  | _ => throw .isADirectory

/-- Write a file that a path names from a place. A file that is there keeps its permissions; a link
is followed on demand: `jump` writes from its directory to where it leads. -/
def writeWith (fs : Files) (contents : ByteArray)
    (jump : Location → Path → Except FileError Files) (origin : Location) (p : Path) :
    Except FileError Files := do
  let (before, ending) := p.parts
  let above ← fs.directoryAt origin before
  match ← named? above ending with
  | some (place, false) =>
    match fs.node? place with
    | none                => return fs.put place (.file contents fileMode)
    | some (.file _ mode) => return fs.put place (.file contents mode)
    | some (.directory _) => throw .isADirectory
    | some (.link target) => jump (if target.absolute then [] else above) target
  | _ => throw .isADirectory

/-- Write a file that a path names from a place, following so many links. -/
def writeFrom (fs : Files) (contents : ByteArray) :
    (links : Nat) → (origin : Location) → (p : Path) → Except FileError Files
  | 0         => fs.writeWith contents fun _ _ => .error .tooManyLinks
  | links + 1 => fs.writeWith contents (fs.writeFrom contents links)

/-- Write a file, following links. -/
def write (fs : Files) (p : Path) (contents : ByteArray) : Except FileError Files := do
  checkPath p
  fs.writeFrom contents maxLinks (fs.start p) p

/-- Make a link where nothing is. -/
def makeLink (fs : Files) (p target : Path) : Except FileError Files := do
  checkBytes p
  checkPath target
  match ← fs.slot? p with
  | none                 => throw .alreadyExists
  | some (place, closed) =>
    match fs.node? place with
    | some _ => throw .alreadyExists
    | none   => if closed then throw .notFound else return fs.put place (.link target)

/-- Remove a file, a link, or a directory with everything below it. Slashes or dots behind the name
ask for a directory. -/
def remove (fs : Files) (p : Path) : Except FileError Files := do
  let named : Path := ⟨p.absolute, Path.dropIdle p.segments⟩
  match ← fs.slot? named with
  | none            => throw .isADirectory
  | some (place, _) =>
    match fs.node? place with
    | none   => throw .notFound
    | some _ =>
      if named ≠ p && !fs.hasDirectory p then throw .notADirectory
      else return fs.takeAway place

end Files

end TwoStage
