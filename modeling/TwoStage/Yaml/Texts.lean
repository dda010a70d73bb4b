import TwoStage.FieldPath

/-!
# The texts of a tree

The texts that a tree holds as values, at any depth and under tags, each with the place where it
stands. Keys are not among them.
-/

namespace TwoStage.Yaml.Tree

/-! ### Listing -/

mutual

/-- The texts below a place, in the order of the document. -/
def textsAt (path : String) : Tree → List (String × String)
  | .text s          => [(path, s)]
  | .sequence items  => itemTextsAt path 0 items
  | .mapping entries => entryTextsAt path entries
  | .tagged _ value  => value.textsAt path
  | _                => []

/-- The texts of items, the first of which has the given position. -/
def itemTextsAt (path : String) (i : Nat) : List Tree → List (String × String)
  | []      => []
  | t :: ts => t.textsAt (FieldPath.item path i) ++ itemTextsAt path (i + 1) ts

def entryTextsAt (path : String) : List (Tree × Tree) → List (String × String)
  | []           => []
  | (k, v) :: es =>
    v.textsAt (FieldPath.child path (FieldPath.label k)) ++ entryTextsAt path es

end

/-! ### Changing -/

variable {ε : Type}

mutual

/-- Change the texts below a place one by one, in the order of the document. -/
def mapTextsAt (f : String → String → Except ε String) (path : String) : Tree → Except ε Tree
  | .text s          => (f path s).map .text
  | .sequence items  => (mapItemTextsAt f path 0 items).map .sequence
  | .mapping entries => (mapEntryTextsAt f path entries).map .mapping
  | .tagged tag v    => (v.mapTextsAt f path).map (.tagged tag)
  | t                => .ok t

def mapItemTextsAt (f : String → String → Except ε String) (path : String) (i : Nat) :
    List Tree → Except ε (List Tree)
  | []      => .ok []
  | t :: ts => do
    let t ← t.mapTextsAt f (FieldPath.item path i)
    let ts ← mapItemTextsAt f path (i + 1) ts
    return t :: ts

def mapEntryTextsAt (f : String → String → Except ε String) (path : String) :
    List (Tree × Tree) → Except ε (List (Tree × Tree))
  | []           => .ok []
  | (k, v) :: es => do
    let v ← v.mapTextsAt f (FieldPath.child path (FieldPath.label k))
    let es ← mapEntryTextsAt f path es
    return (k, v) :: es

end

def textsOf (t : Tree) : List (String × String) := t.textsAt ""

def mapTexts (f : String → String → Except ε String) (t : Tree) : Except ε Tree := t.mapTextsAt f ""

end TwoStage.Yaml.Tree
