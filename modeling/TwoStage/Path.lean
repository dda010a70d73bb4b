import TwoStage.Text.Split
import TwoStage.Text.Quoted

/-!
# Paths

A path is absolute or not and has segments, the texts between its slashes. The text of a path is
kept as it was given: segments that are empty or a single dot take no part in where the path leads,
except that a relative path may start with a dot. Two paths are the same when their components are.
-/

namespace TwoStage

open Text

/-- A path by its segments. A relative path without segments is the empty text. -/
structure Path where
  absolute : Bool
  segments : List (List Char)
deriving DecidableEq, Repr, Inhabited

/-- A step of a path. -/
inductive Component
  | root
  | current
  | parent
  | name (s : List Char)
deriving DecidableEq, Repr

namespace Path

/-- The path that a text writes. -/
def ofChars : List Char → Path
  | []         => ⟨false, []⟩
  | '/' :: cs  => ⟨true, splitAll '/' cs⟩
  | cs         => ⟨false, splitAll '/' cs⟩

def ofString (s : String) : Path := ofChars s.toList

def joinSegments : List (List Char) → List Char
  | []           => []
  | [s]          => s
  | s :: t :: ss => s ++ '/' :: joinSegments (t :: ss)

def toChars (p : Path) : List Char :=
  (if p.absolute then ['/'] else []) ++ joinSegments p.segments

def text (p : Path) : String := String.ofList p.toChars

/-- How one character of a path stands in messages: single quotes are escaped as well. -/
def shownChar : Char → List Char
  | '\'' => ['\\', '\'']
  | c    => quoteChar c

def shown (p : Path) : String := String.ofList (['"'] ++ p.toChars.flatMap shownChar ++ ['"'])

/-! ### Components -/

/-- The step that a segment stands for, if any. -/
def step? : List Char → Option Component
  | []         => none
  | ['.']      => none
  | ['.', '.'] => some .parent
  | s          => some (.name s)

def components (p : Path) : List Component :=
  if p.absolute then .root :: p.segments.filterMap step?
  else if p.segments.head? = some ['.'] then .current :: p.segments.filterMap step?
  else p.segments.filterMap step?

def same (p q : Path) : Bool := p.components == q.components

/-- The steps of `q` are the first steps of `p`. -/
def startsWith (p q : Path) : Bool := q.components.isPrefixOf p.components

/-- The name at the end of a path. -/
def fileName? (p : Path) : Option (List Char) :=
  match p.components.getLast? with
  | some (.name s) => some s
  | _              => none

/-- The segment takes no part in where the path leads. -/
def isIdle (s : List Char) : Bool := s = [] || s = ['.']

/-- Drop the idle segments at the end. -/
def dropIdle (ss : List (List Char)) : List (List Char) :=
  (ss.reverse.dropWhile isIdle).reverse

/-- The path without its last step. The root and the empty path have none. -/
def parent? (p : Path) : Option Path :=
  let (head, rest) :=
    if !p.absolute && p.segments.head? = some ['.'] then ([['.']], p.segments.drop 1)
    else ([], p.segments)
  match (dropIdle rest).reverse with
  | _ :: before => some ⟨p.absolute, head ++ dropIdle before.reverse⟩
  | []          => if head = [] then none else some ⟨false, []⟩

/-! ### Joining -/

/-- The path ends in a slash or is empty, so that more can follow. -/
def endsOpen (p : Path) : Bool :=
  p.toChars = [] || p.toChars.getLast? = some '/'

/-- The path `q` seen from `p`; an absolute one is on its own. -/
def join (p q : Path) : Path :=
  if q.absolute then q
  else if p.toChars = [] then q
  else
    let more := if q.segments = [] then [[]] else q.segments
    ⟨p.absolute, (if p.endsOpen then p.segments.dropLast else p.segments) ++ more⟩

/-- The path `name` seen from `p`. -/
def child (p : Path) (name : String) : Path := p.join (ofString name)

/-- A path made of one step. -/
def ofName (name : String) : Path := ⟨false, [name.toList]⟩

/-! ### Folding dots -/

/-- Take a step from the steps so far, the latest first. A step to the parent undoes a name,
stays at the root and is kept otherwise. -/
def foldStep : List Component → Component → List Component
  | acc,            .current => acc
  | .name _ :: acc, .parent  => acc
  | .root :: acc,   .parent  => .root :: acc
  | acc,            c        => c :: acc

/-- The text of a step as a segment. -/
def segmentOf? : Component → Option (List Char)
  | .name s  => some s
  | .parent  => some ['.', '.']
  | .current => some ['.']
  | .root    => none

/-- The path that takes the given steps. -/
def ofComponents (cs : List Component) : Path :=
  ⟨cs.head? = some .root, cs.filterMap segmentOf?⟩

/-- Fold the steps to parents without looking at any file. -/
def normalize (p : Path) : Path := ofComponents (p.components.foldl foldStep []).reverse

end Path

end TwoStage
