import TwoStage.Resolution
import TwoStage.Yaml.Merge
import TwoStage.Yaml.Printer

/-!
# Compose templates

A template is a mapping with a section of defaults, `x-cfg`. A context is laid over that section,
and every reference `${x-cfg.path}` in the rest of the template is replaced by what the section has
at that path. A text that is one reference becomes the node it refers to; a reference inside a
longer text has to refer to a scalar. What is null in the end is dropped.

Following a reference adds it to a chain, on which no reference may occur twice. As all references
but the first on a chain stand in the section, a chain is at most one longer than their number.
-/

namespace TwoStage

open Text Yaml

/-- The name of the section. -/
def contextKey : String := "x-cfg"

/-! ### References -/

/-- A reference into the section, by the names on its path. -/
structure Reference where
  names : List (List Char)
deriving DecidableEq, Repr

namespace Reference

def isNameChar (c : Char) : Bool := c.isAlphanum || c == '_' || c == '-'

/-- A nonempty run of name characters. -/
def isName (cs : List Char) : Bool := !cs.isEmpty && cs.all isNameChar

/-- What a reference starts with. -/
def opener : List Char := ['$', '\x7b'] ++ contextKey.toList

/-- Read the path of a reference: a dot and a name, at least once. -/
def ofPath? (path : List Char) : Option Reference :=
  match splitAll '.' path with
  | [] :: name :: names => if (name :: names).all isName then some ⟨name :: names⟩ else none
  | _                   => none

/-- The reference that stands at the start of a text, and what follows it. -/
def atStart? (cs : List Char) : Option (Reference × List Char) :=
  if opener.isPrefixOf cs then
    match cutAt? (· == '\x7d') (cs.drop opener.length) with
    | some (path, rest) => (ofPath? path).map fun r => (r, rest)
    | none              => none
  else none

/-- The name of a reference: the section, then its path. -/
def name (r : Reference) : String :=
  String.ofList (contextKey.toList ++ r.names.flatMap fun n => '.' :: n)

def source (r : Reference) : String :=
  String.ofList (opener ++ (r.names.flatMap fun n => '.' :: n) ++ ['\x7d'])

/-- What the reference leads to in the section. -/
def target? (context : Tree) (r : Reference) : Option Tree :=
  context.walk? (r.names.map String.ofList)

end Reference

/-- A character of a text or a reference in it. -/
inductive Piece
  | plain (c : Char)
  | reference (r : Reference)
deriving DecidableEq, Repr

/-- Cut a text of at most the given length into pieces. -/
def piecesWithin : Nat → List Char → List Piece
  | 0,     _       => []
  | _,     []      => []
  | n + 1, c :: cs =>
    match Reference.atStart? (c :: cs) with
    | some (r, rest) => .reference r :: piecesWithin n rest
    | none           => .plain c :: piecesWithin n cs

/-- Cut a text into pieces. -/
def piecesOf (s : String) : List Piece := piecesWithin s.toList.length s.toList

/-- How many references the texts of a tree hold. -/
def referenceCount (t : Tree) : Nat :=
  (t.textsOf.map fun (_, s) => ((piecesOf s).filter fun
    | .reference _ => true
    | .plain _     => false).length).foldr (· + ·) 0

namespace Template

/-! ### Resolving -/

/-- What a reference stands for, seen from a place. -/
abbrev Follow := String → Reference → Outcome Tree

/-- The text that a node gives inside a longer text. -/
def interpolated (path : String) (r : Reference) (node : Tree) : Outcome String :=
  match node with
  | .null => .ok ""
  | t     =>
    match t.scalarText? with
    | some s => .ok s
    | none   => .error (.templateReference path (r.source ++ " (not a scalar)"))

/-- The text that a piece gives. -/
def resolvePiece (follow : Follow) (path : String) : Piece → Outcome String
  | .plain c     => .ok (String.ofList [c])
  | .reference r => do interpolated path r (← follow path r)

/-- Resolve the references of a text. -/
def resolveText (follow : Follow) (path s : String) : Outcome Tree :=
  match piecesOf s with
  | [.reference r] => follow path r
  | pieces         =>
    (pieces.mapM (resolvePiece follow path)).map fun parts => .text (String.join parts)

mutual

/-- Resolve the references of a tree at a place. Keys and tagged values stay as they are. -/
def resolveTree (follow : Follow) (path : String) : Tree → Outcome Tree
  | .text s      => resolveText follow path s
  | .sequence ts => (resolveItems follow path 0 ts).map .sequence
  | .mapping es  => (resolveEntries follow path es).map .mapping
  | t            => .ok t

def resolveItems (follow : Follow) (path : String) (i : Nat) : List Tree → Outcome (List Tree)
  | []      => .ok []
  | t :: ts => do
    let t ← resolveTree follow (FieldPath.item path i) t
    let ts ← resolveItems follow path (i + 1) ts
    return t :: ts

def resolveEntries (follow : Follow) (path : String) :
    List (Tree × Tree) → Outcome (List (Tree × Tree))
  | []           => .ok []
  | (k, v) :: es => do
    let v ← resolveTree follow (FieldPath.child path (FieldPath.label k)) v
    let es ← resolveEntries follow path es
    return (k, v) :: es

end

/-- Follow a reference, and the ones that stand where it leads, behind a chain of others. -/
def follow (context : Tree) : Nat → List String → Follow
  | room, chain, path, r =>
    if chain.contains r.name then .error (.templateCycle (chain ++ [r.name]))
    else
      match r.target? context, room with
      | none,      _        => .error (.templateReference path r.name)
      | some _,    0        => .error (.templateCycle (chain ++ [r.name]))
      | some node, room + 1 =>
        resolveTree (follow context room (chain ++ [r.name])) r.name node

/-- Resolve every reference of a tree against a section. -/
def resolve (context t : Tree) : Outcome Tree :=
  resolveTree (follow context (referenceCount context + 1) []) "" t

/-! ### Rendering -/

/-- Render a template with a context. -/
def render (template context : Tree) : Outcome Tree := do
  match template with
  | .mapping entries =>
    let defaults := (Tree.lookupText? contextKey entries).getD (.mapping [])
    let resolved ← resolve (defaults.overlay context) (.mapping (Tree.eraseText contextKey entries))
    Resolution.rewriteAll resolved.dropNulls
  | _ => throw (.schema "<template>" .templateNotMapping)

def renderText (template : String) (context : Tree) : Outcome Tree := do
  let t ← (Yaml.read template).mapError fun cause => .invalidDocument (.unreadable cause)
  render t context

/-- What a rendered template has at a path of names between dots. -/
def get? (rendered : Tree) (path : String) : Option Tree := rendered.walk? (split '.' path)

def write (rendered : Tree) : Outcome String :=
  match Yaml.write? rendered with
  | some text => .ok text
  | none      => .error .unwritable

end Template

end TwoStage
