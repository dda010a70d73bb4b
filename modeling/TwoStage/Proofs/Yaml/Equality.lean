import Mathlib.Tactic.Common
import TwoStage.Yaml.Tree

/-!
# Equality of trees

Whether two trees are the same can be found out by a walk over both, in the order of their items and
entries.
-/

namespace TwoStage.Yaml.Tree

mutual

/-- The trees have the same nodes in the same order. -/
def equals : Tree → Tree → Bool
  | .null,        .null         => true
  | .bool b,      .bool b'      => b = b'
  | .number n,    .number n'    => n = n'
  | .text s,      .text s'      => s = s'
  | .sequence ts, .sequence ts' => equalItems ts ts'
  | .mapping es,  .mapping es'  => equalEntries es es'
  | .tagged s t,  .tagged s' t' => s = s' && equals t t'
  | _,            _             => false

def equalItems : List Tree → List Tree → Bool
  | [],      []        => true
  | t :: ts, t' :: ts' => equals t t' && equalItems ts ts'
  | _,       _         => false

def equalEntries : List (Tree × Tree) → List (Tree × Tree) → Bool
  | [],           []              => true
  | (k, v) :: es, (k', v') :: es' => equals k k' && equals v v' && equalEntries es es'
  | _,            _               => false

end

mutual

lemma equals_iff (t t' : Tree) : equals t t' = true ↔ t = t' := by
  match t with
  | .null | .bool _ | .number _ | .text _ => cases t' <;> simp [equals]
  | .sequence ts => cases t' <;> simp [equals, equalItems_iff ts]
  | .mapping es => cases t' <;> simp [equals, equalEntries_iff es]
  | .tagged s t => cases t' <;> simp [equals, equals_iff t]

lemma equalItems_iff (ts ts' : List Tree) : equalItems ts ts' = true ↔ ts = ts' := by
  match ts with
  | [] => cases ts' <;> simp [equalItems]
  | t :: ts => cases ts' <;> simp [equalItems, equals_iff t, equalItems_iff ts]

lemma equalEntries_iff (es es' : List (Tree × Tree)) : equalEntries es es' = true ↔ es = es' := by
  match es with
  | [] => cases es' <;> simp [equalEntries]
  | (k, v) :: es =>
    cases es' <;> simp [equalEntries, equals_iff k, equals_iff v, equalEntries_iff es,
      Prod.ext_iff]

end

instance : DecidableEq Tree := fun t t' => decidable_of_iff _ (equals_iff t t')

end TwoStage.Yaml.Tree
