import TwoStage.Yaml.Tree

/-!
# Where a value stands in a document

A place in a document is written as dotted names and bracketed positions, such as
`stage_2.custom.on_build[0]`; the whole document has the empty path.
-/

namespace TwoStage.FieldPath

open Yaml Decimal

/-- The name of an entry by its key; keys without a short text are a question mark. -/
def label : Tree → String
  | .text s   => s
  | .number n => n.text
  | .bool b   => Tree.boolText b
  | _         => "?"

/-- The place of an entry. -/
def child (parent name : String) : String :=
  if parent = "" then name else parent ++ "." ++ name

/-- The place of a name below a place that is not the whole document. -/
def below (parent name : String) : String := parent ++ "." ++ name

/-- The place of an item. -/
def item (parent : String) (i : Nat) : String := parent ++ "[" ++ natText i ++ "]"

def shown (path : String) : String := if path = "" then "<root>" else path

end TwoStage.FieldPath
