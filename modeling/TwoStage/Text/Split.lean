/-!
# Splitting a text

A text is cut at a separator: at its first occurrence, at its last one, or at all of them.
-/

namespace TwoStage.Text

/-- The parts before and after the first occurrence of `sep`. -/
def cutFirst? (sep : List Char) : List Char → Option (List Char × List Char)
  | []      => if sep = [] then some ([], []) else none
  | c :: cs =>
    if sep.isPrefixOf (c :: cs) then some ([], (c :: cs).drop sep.length)
    else (cutFirst? sep cs).map fun (before, after) => (c :: before, after)

/-- The parts before and after the first character in the class `p`. -/
def cutAt? (p : Char → Bool) : List Char → Option (List Char × List Char)
  | []      => none
  | c :: cs =>
    if p c then some ([], cs)
    else (cutAt? p cs).map fun (before, after) => (c :: before, after)

/-- The parts before and after the last character in the class `p`. -/
def cutLast? (p : Char → Bool) : List Char → Option (List Char × List Char)
  | []      => none
  | c :: cs =>
    match cutLast? p cs with
    | some (before, after) => some (c :: before, after)
    | none                 => if p c then some ([], cs) else none

/-- The stretches between the copies of `sep`; there is always at least one. -/
def splitAll (sep : Char) : List Char → List (List Char)
  | []      => [[]]
  | c :: cs =>
    if c = sep then [] :: splitAll sep cs
    else
      match splitAll sep cs with
      | part :: parts => (c :: part) :: parts
      | []            => [[c]]

/-- The stretches of a text between the copies of `sep`. -/
def split (sep : Char) (s : String) : List String :=
  (splitAll sep s.toList).map String.ofList

/-- The lines of a text: each ends before a line feed, and a carriage return there is dropped. -/
def lines (cs : List Char) : List (List Char) :=
  let parts := splitAll '\n' cs
  let parts := if parts.getLast? = some [] then parts.dropLast else parts
  parts.map fun line => if line.getLast? = some '\r' then line.dropLast else line

end TwoStage.Text
