import Mathlib.Tactic.Lemma
import TwoStage.Document

/-!
# Reading characters

What a fixed text is read as can be evaluated. It is its characters that are read, and those of a
literal are read off (`String.toList_ofList`); evaluating them costs the square of its length.
-/

namespace TwoStage

def Yaml.readChars (cs : List Char) : Except ReadError Tree :=
  match Node.document? (tokens cs) with
  | none                  => .error .malformed
  | some (none, _)        => .ok .null
  | some (some node, behind) =>
    let scope : Node.Scope := ⟨node.anchored, 100 * node.events⟩
    match (node.tree scope maxDepth).run 0 with
    | .error e      => .error e
    | .ok (tree, _) => if Node.isLast behind then .ok tree else .error .severalDocuments

lemma Yaml.read_eq_readChars (text : String) : read text = readChars text.toList := rfl

def Document.ofChars (vars : String → Option String) (cs : List Char) : Outcome Document := do
  let t ← (Yaml.readChars cs).mapError fun cause => .invalidDocument (.unreadable cause)
  ofTree vars (rootOf t)

lemma Document.ofText_eq_ofChars (vars : String → Option String) (text : String) :
    ofText vars text = ofChars vars text.toList := rfl

end TwoStage
