import TwoStage.Yaml.Tree
import TwoStage.Text.Blank
import TwoStage.Text.Quoted
import TwoStage.OrderedMap

/-!
# Typed values of trees

Decoders take a tree to a value of a type, or say what the tree is and what was expected of it. A
tag around a value is passed over unless it names the case of a choice. The fields of a record are
decoded in the order in which the document has them, so its first fault is the one reported.
-/

namespace TwoStage.Yaml

open Decimal Text

/-! ### Faults -/

/-- What a decoder takes. -/
inductive Expectation
  | text
  | boolean
  | nothing
  | sequence
  | mapping
  | record (title : String)
  | fieldName
  | choice
deriving DecidableEq, Repr

namespace Expectation

def shown : Expectation → String
  | .text         => "a string"
  | .boolean      => "a boolean"
  | .nothing      => "unit"
  | .sequence     => "a sequence"
  | .mapping      => "a map"
  | .record title => "struct " ++ title
  | .fieldName    => "field identifier"
  | .choice       => "a Value::Tagged enum"

end Expectation

def Tree.described : Tree → String
  | .null              => "unit value"
  | .bool b            => "boolean \x60" ++ boolText b ++ "\x60"
  | .number (.int n)   => "integer \x60" ++ intText n ++ "\x60"
  | .number (.float x) => "floating point \x60" ++ x.plainText ++ "\x60"
  | .text s            => "string " ++ quoted s
  | .sequence _        => "sequence"
  | .mapping _         => "map"
  | .tagged ..         => "enum"

/-- Why a tree has no value of a type. -/
inductive DecodeError
  | unexpected (found : Tree) (expected : Expectation)
  | unknownField (name : String) (known : List String)
  | unknownVariant (name : String) (known : List String)
  | missingField (name : String)
  | duplicateField (name : String)
  | noAlternative (title : String)
  | tagInAlternatives
  | outOfRange (n : Int)
  | notNumeric (s : String)
deriving Repr

namespace DecodeError

def named (s : String) : String := "\x60" ++ s ++ "\x60"

/-- The names that would have been right. -/
def choices : List String → String
  | []     => "there are no fields"
  | [a]    => "expected " ++ named a
  | [a, b] => "expected " ++ named a ++ " or " ++ named b
  | names  => "expected one of " ++ ", ".intercalate (names.map named)

def message : DecodeError → String
  | .unexpected found expected =>
    "invalid type: " ++ found.described ++ ", expected " ++ expected.shown
  | .unknownField name known   => "unknown field " ++ named name ++ ", " ++ choices known
  | .unknownVariant name known => "unknown variant " ++ named name ++ ", " ++ choices known
  | .missingField name         => "missing field " ++ named name
  | .duplicateField name       => "duplicate field " ++ named name
  | .noAlternative title       => "data did not match any variant of untagged enum " ++ title
  | .tagInAlternatives         => "untagged and internally tagged enums do not support enum input"
  | .outOfRange n              => intText n ++ " is out of range"
  | .notNumeric s              => "expected a number, found '" ++ s ++ "'"

end DecodeError

/-- A value or why there is none. -/
abbrev Decoded := Except DecodeError

/-! ### Simple values -/

/-- The tree without the tag around it. -/
def Tree.untagged : Tree → Tree
  | .tagged _ value => value.untagged
  | t               => t

namespace Decode

def text (t : Tree) : Decoded String :=
  match t.untagged with
  | .text s => .ok s
  | other   => .error (.unexpected other .text)

def boolean (t : Tree) : Decoded Bool :=
  match t.untagged with
  | .bool b => .ok b
  | other   => .error (.unexpected other .boolean)

def nothing : Tree → Decoded Unit
  | .null => .ok ()
  | other => .error (.unexpected other .nothing)

/-- A value that may be null. -/
def optional {α : Type} (f : Tree → Decoded α) : Tree → Decoded (Option α)
  | .null => .ok none
  | t     => (f t).map some

/-- The items of a sequence; null has none. -/
def items {α : Type} (f : Tree → Decoded α) (t : Tree) : Decoded (List α) :=
  match t.untagged with
  | .sequence ts => ts.mapM f
  | .null        => .ok []
  | other        => .error (.unexpected other .sequence)

/-- The entries of a mapping; null has none. A key that occurs again replaces the value. -/
def entries {α : Type} (f : Tree → Decoded α) (t : Tree) : Decoded (OrderedMap String α) :=
  match t.untagged with
  | .mapping es =>
    (es.mapM fun (k, v) => do return (← text k, ← f v)).map OrderedMap.ofList
  | .null       => .ok .empty
  | other       => .error (.unexpected other .mapping)

/-- One of several names: a text, or a tag around null. -/
def choice {α : Type} (names : List (String × α)) (t : Tree) : Decoded α :=
  let named (name : String) : Decoded α :=
    match names.lookup name with
    | some a => .ok a
    | none   => .error (.unknownVariant name (names.map Prod.fst))
  match t with
  | .text name         => named name
  | .tagged name value => do
    let a ← named name
    nothing value
    return a
  | other              => .error (.unexpected other .choice)

/-! ### Records -/

/-- A field of a record: its name, and what its value changes. -/
structure Field (α : Type) where
  name : String
  read : Tree → α → Decoded α

def field {α β : Type} (name : String) (f : Tree → Decoded β) (set : β → α → α) : Field α :=
  ⟨name, fun t a => (f t).map fun b => set b a⟩

def fieldName (t : Tree) : Decoded String :=
  match t.untagged with
  | .text s => .ok s
  | other   => .error (.unexpected other .fieldName)

/-- Decode the entries of a record one by one. Names without a field are refused in a closed record
and passed over otherwise. -/
def fields {α : Type} (known : List (Field α)) (closed : Bool) :
    (seen : List String) → α → List (Tree × Tree) → Decoded (α × List String)
  | seen, a, []           => .ok (a, seen)
  | seen, a, (k, v) :: es => do
    let name ← fieldName k
    match known.find? fun f => f.name = name with
    | some f =>
      if seen.contains name then .error (.duplicateField name)
      else fields known closed (name :: seen) (← f.read v a) es
    | none   =>
      if closed then .error (.unknownField name (known.map Field.name))
      else fields known closed seen a es

/-- A record that starts from `initial` and needs some of its fields. Null has no fields. -/
def record {α : Type} (title : String) (closed : Bool) (known : List (Field α))
    (required : List String) (initial : α) (t : Tree) : Decoded α := do
  let es ← match t.untagged with
    | .mapping es => .ok es
    | .null       => .ok []
    | other       => .error (.unexpected other (.record title))
  let (a, seen) ← fields known closed [] initial es
  match required.find? fun name => !seen.contains name with
  | some name => .error (.missingField name)
  | none      => .ok a

/-! ### Alternatives -/

end Decode

mutual

/-- There is a tag anywhere in the tree. -/
def Tree.hasTag : Tree → Bool
  | .sequence ts => hasTags ts
  | .mapping es  => hasEntryTags es
  | .tagged ..   => true
  | _            => false

def Tree.hasTags : List Tree → Bool
  | []      => false
  | t :: ts => t.hasTag || hasTags ts

def Tree.hasEntryTags : List (Tree × Tree) → Bool
  | []           => false
  | (k, v) :: es => k.hasTag || v.hasTag || hasEntryTags es

end

namespace Decode

/-- The first of several readings that fits a tree without tags. -/
def firstOf {α : Type} (title : String) (readings : List (Tree → Option α)) (t : Tree) :
    Decoded α :=
  if t.hasTag then .error .tagInAlternatives
  else
    match readings.findSome? fun f => f t with
    | some a => .ok a
    | none   => .error (.noAlternative title)

/-- A number up to `limit`, written as a number or as text with blanks around it. -/
def numeric (limit : Nat) (t : Tree) : Decoded Nat := do
  let whole : Tree → Option (Decoded Nat)
    | .number (.int (.ofNat n)) => some (if n ≤ limit then .ok n else .error (.outOfRange n))
    | _                         => none
  let written : Tree → Option (Decoded Nat)
    | .text s =>
      some (match ofSignedDigits? 10 (trimBoth s.toList) with
        | some n => if n ≤ limit then .ok n else .error (.notNumeric s)
        | none   => .error (.notNumeric s))
    | _       => none
  ← firstOf "Raw" [whole, written] t

/-- A text, or an integer of 64 bits as its digits. -/
def textOrInteger : Tree → Decoded String :=
  firstOf "Item" [
    fun
      | .number (.int n) => if n < Nat.pow 2 63 then some (intText n) else none
      | _                => none,
    fun
      | .text s => some s
      | _       => none]

end Decode

end TwoStage.Yaml
