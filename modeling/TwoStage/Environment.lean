import TwoStage.Error
import TwoStage.Shell

/-!
# Environment variables

The variables of a stage in the order in which they were first exported. Exporting a variable again
changes its value and leaves it in its place. A document writes them as a list of assignments or as
a mapping.
-/

namespace TwoStage

open Text Yaml

/-- Variables and their values, in order of first export. -/
abbrev Environment := OrderedMap String String

namespace Environment

/-- Export the variables of `f` on top of those of `e`. -/
def exportAll (e f : Environment) : Environment := e.insertAll f.entries

def assignments (e : Environment) : List String :=
  e.entries.map fun (name, value) => name ++ "=" ++ value

def toTree (e : Environment) : Tree :=
  .record (e.entries.map fun (name, value) => (name, .text value))

/-- One line of the profile script. -/
def exportLine (name value : String) : String :=
  "export " ++ name ++ "=" ++ Shell.word value ++ "\n"

/-- A script that exports the variables, each with its value as it is. -/
def profileScript (e : Environment) : String :=
  "#!/bin/sh\n# generated by stagecraft, do not edit\n" ++
    String.join (e.entries.map fun (name, value) => exportLine name value)

end Environment

/-- The variables as a document writes them. -/
inductive EnvironmentSection
  | list (entries : List String)
  | mapping (entries : OrderedMap String Tree)
deriving Repr

namespace EnvironmentSection

/-- The text of a tree that is one. -/
def text? : Tree → Option String
  | .text s => some s
  | _       => none

/-- An entry whose key is a text. -/
def namedEntry? : Tree × Tree → Option (String × Tree)
  | (.text name, value) => some (name, value)
  | _                   => none

/-- A sequence of texts as a list. -/
def ofSequence? : Tree → Option EnvironmentSection
  | .sequence ts => (ts.mapM text?).map .list
  | _            => none

/-- A mapping whose keys are texts. -/
def ofMapping? : Tree → Option EnvironmentSection
  | .mapping es => (es.mapM namedEntry?).map fun es => .mapping (OrderedMap.ofList es)
  | _           => none

def decode : Tree → Decoded EnvironmentSection :=
  Decode.firstOf "EnvironmentDoc" [ofSequence?, ofMapping?]

def toTree : EnvironmentSection → Tree
  | .list entries    => .texts entries
  | .mapping entries => .record entries.entries

/-- Refuse a name that no variable can have. -/
def checkName (path name : String) : Outcome Unit :=
  if isVariableName name.toList then .ok () else .error (.schema path (.badVariableName name))

/-- Read an assignment; blanks around the name are dropped. -/
def readAssignment (path entry : String) : Outcome (String × String) :=
  match cutAt? (· == '=') entry.toList with
  | none               => .error (.schema path (.noAssignment entry))
  | some (name, value) => do
    let name := String.ofList (trimBoth name)
    checkName path name
    return (name, String.ofList value)

/-- Read a list of assignments, the first of which has the given position. -/
def readAssignments (path : String) : Nat → List String → Outcome (List (String × String))
  | _, []      => .ok []
  | i, e :: es => do
    let a ← readAssignment (FieldPath.item path i) e
    let as ← readAssignments path (i + 1) es
    return a :: as

/-- The value of a variable is a scalar; null stands for the empty text. -/
def readValue (path : String) : Tree → Outcome String
  | .null => .ok ""
  | t     =>
    match t.scalarText? with
    | some s => .ok s
    | none   => .error (.schema path .valueNotScalar)

/-- Read one entry of a mapping. -/
def readEntry (path : String) (name : String) (value : Tree) : Outcome (String × String) := do
  let path := FieldPath.below path name
  checkName path name
  return (name, ← readValue path value)

/-- The variables of a section at a place of the document. -/
def environment (path : String) : EnvironmentSection → Outcome Environment
  | .list entries    => (readAssignments path 0 entries).map OrderedMap.ofList
  | .mapping entries =>
    (entries.entries.mapM fun (name, value) => readEntry path name value).map OrderedMap.ofList

end EnvironmentSection

end TwoStage
