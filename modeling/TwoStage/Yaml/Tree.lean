import TwoStage.Decimal.Shortest

/-!
# Document trees

The value of a YAML document: scalars, sequences, mappings in the order of their entries, and
values under an application tag. A mapping may have any tree as a key; two keys are the same when
they are equal as values, so the order of a mapping inside a key does not matter.
-/

namespace TwoStage.Yaml

open Decimal

/-- Integers and floating point numbers are told apart. -/
inductive Number
  | int (n : Int)
  | float (x : Binary64)
deriving DecidableEq, Repr

def Number.text : Number → String
  | .int n   => intText n
  | .float x => x.text

/-- Numeric equality within one kind. -/
def Number.same : Number → Number → Bool
  | .int m,   .int n   => m == n
  | .float x, .float y => x.same y
  | _,        _        => false

/-- The value of a document. A tag is kept without its exclamation mark. -/
inductive Tree
  | null
  | bool (b : Bool)
  | number (n : Number)
  | text (s : String)
  | sequence (items : List Tree)
  | mapping (entries : List (Tree × Tree))
  | tagged (tag : String) (value : Tree)
deriving Repr, Inhabited

namespace Tree

def int (n : Int) : Tree := .number (.int n)

/-- A mapping whose keys are texts. -/
def record (fields : List (String × Tree)) : Tree :=
  .mapping (fields.map fun (name, value) => (.text name, value))

/-- A field that may be left out. -/
def fieldIf (name : String) (value : Option Tree) : List (String × Tree) :=
  (value.map fun t => (name, t)).toList

def texts (items : List String) : Tree := .sequence (items.map .text)

def boolText (b : Bool) : String := if b then "true" else "false"

def scalarText? : Tree → Option String
  | .text s   => some s
  | .number n => some n.text
  | .bool b   => some (boolText b)
  | _         => none

/-- The tree is null, whatever tags it has. -/
def isNull : Tree → Bool
  | .null       => true
  | .tagged _ t => t.isNull
  | _           => false

/-! ### Size -/

mutual

def size : Tree → Nat
  | .sequence items  => sizes items + 1
  | .mapping entries => entrySizes entries + 1
  | .tagged _ value  => value.size + 1
  | _                => 1

def sizes : List Tree → Nat
  | []      => 0
  | t :: ts => t.size + sizes ts

def entrySizes : List (Tree × Tree) → Nat
  | []           => 0
  | (k, v) :: es => k.size + v.size + entrySizes es

end

/-! ### Equality of keys -/

mutual

/-- Equality as values. -/
def same : Tree → Tree → Bool
  | .null,        .null        => true
  | .bool a,      .bool b      => a == b
  | .number a,    .number b    => a.same b
  | .text a,      .text b      => a == b
  | .sequence as, .sequence bs => sameItems as bs
  | .mapping es,  .mapping fs  => es.length == fs.length && entriesWithin es fs
  | .tagged a v,  .tagged b w  => a == b && v.same w
  | _,            _            => false

def sameItems : List Tree → List Tree → Bool
  | [],      []      => true
  | a :: as, b :: bs => a.same b && sameItems as bs
  | _,       _       => false

/-- Every entry of the first mapping is in the second. -/
def entriesWithin : List (Tree × Tree) → List (Tree × Tree) → Bool
  | [],           _  => true
  | (k, v) :: es, fs =>
    (fs.any fun (k', v') => k.same k' && v.same v') && entriesWithin es fs

end

/-! ### Entries of a mapping -/

def lookup? (key : Tree) : List (Tree × Tree) → Option Tree
  | []           => none
  | (k, v) :: es => if k.same key then some v else lookup? key es

def lookupText? (name : String) : List (Tree × Tree) → Option Tree
  | []                => none
  | (.text s, v) :: es => if s = name then some v else lookupText? name es
  | _ :: es           => lookupText? name es

/-- The entries but for the one under a text. -/
def eraseText (name : String) : List (Tree × Tree) → List (Tree × Tree)
  | []                 => []
  | (.text s, v) :: es => if s = name then es else (.text s, v) :: eraseText name es
  | e :: es            => e :: eraseText name es

/-- The node at the end of a path of names; a name counts the items of a sequence. -/
def walk? : List String → Tree → Option Tree
  | [],           t                => some t
  | name :: rest, .mapping entries => (lookupText? name entries).bind (walk? rest)
  | name :: rest, .sequence items  =>
    match ofSignedDigits? 10 name.toList with
    | some i => (items[i]?).bind (walk? rest)
    | none   => none
  | _ :: _,       _                => none

end Tree

end TwoStage.Yaml
