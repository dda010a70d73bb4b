import TwoStage.Path
import TwoStage.Stage
import TwoStage.Text.Blank
import TwoStage.Yaml.Tree

/-!
# The name of a project

A project is known in image tags, volume names and compose by a slug: lower case letters, digits,
underscores and dashes, with no dash at either end.
-/

namespace TwoStage

open Text Yaml

def isSlugChar (c : Char) : Bool := c.isLower || c.isDigit || c == '_' || c == '-'

/-- Lower the letters and put a dash for what is no slug character, unless one stands there. -/
def squash : (behindDash : Bool) → List Char → List Char
  | _,          []      => []
  | behindDash, c :: cs =>
    if isSlugChar c.toLower then c.toLower :: squash (c == '-') cs
    else if behindDash then squash true cs
    else '-' :: squash true cs

def slug (s : String) : String := String.ofList (stripChar '-' (squash false s.toList))

structure Project where
  name : String
deriving DecidableEq, Repr

namespace Project

/-- The name of a project whose own name has no slug. -/
def fallbackName : String := "stagecraft"

def ofName (raw : String) : Project := ⟨if slug raw = "" then fallbackName else slug raw⟩

/-- The project in a directory, named by its document or else by the directory. -/
def of (configured : Option String) (dir : Path) : Project :=
  ofName ((configured <|> dir.fileName?.map String.ofList).getD "")

/-- The image of a stage that declares none. -/
def defaultImage (p : Project) (stage : Stage) : String := p.name ++ ":" ++ stage.label

def toTree (p : Project) : Tree := .record [("name", .text p.name)]

end Project

end TwoStage
