import TwoStage.Yaml.Tree

/-!
# Laying one tree over another

Mappings are merged key by key, a null leaves what is below it alone, and anything else replaces it.
Keys keep their places, and new ones come behind. Nulls that are left can be dropped.
-/

namespace TwoStage.Yaml.Tree

/-- Change the value under a key, or put a new one behind all others. -/
def putWith (key : Tree) (change : Tree → Tree) (fresh : Tree) :
    List (Tree × Tree) → List (Tree × Tree)
  | []           => [(key, fresh)]
  | (k, v) :: es =>
    if k.same key then (k, change v) :: es else (k, v) :: putWith key change fresh es

mutual

/-- The first tree with the second laid over it. -/
def overlay : Tree → Tree → Tree
  | base,        .null       => base
  | .mapping es, .mapping fs => .mapping (overlayEntries es fs)
  | _,           t           => t

def overlayEntries : List (Tree × Tree) → List (Tree × Tree) → List (Tree × Tree)
  | es, []           => es
  | es, (k, v) :: fs => overlayEntries (putWith k (fun old => overlay old v) v es) fs

end

mutual

/-- Drop null entries and items, at every depth but under tags. -/
def dropNulls : Tree → Tree
  | .mapping es  => .mapping (dropNullEntries es)
  | .sequence ts => .sequence (dropNullItems ts)
  | t            => t

def dropNullItems : List Tree → List Tree
  | []      => []
  | t :: ts => if t.isNull then dropNullItems ts else t.dropNulls :: dropNullItems ts

def dropNullEntries : List (Tree × Tree) → List (Tree × Tree)
  | []           => []
  | (k, v) :: es => if v.isNull then dropNullEntries es else (k, v.dropNulls) :: dropNullEntries es

end

end TwoStage.Yaml.Tree
