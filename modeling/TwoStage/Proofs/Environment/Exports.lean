import TwoStage.Environment
import TwoStage.Proofs.OrderedMap

/-!
# What exports leave

A step exports one variable, or all variables of another environment on top of those that are there.
Either comes down to single exports, one behind the other, and what these leave is told by their
list alone: each variable has the value of its last export and the place of its first one.
-/

namespace TwoStage.Environment

inductive Operation
  | exportOne (name value : String)
  | exportAll (f : Environment)

namespace Operation

def run (e : Environment) : Operation → Environment
  | .exportOne name value => e.insert name value
  | .exportAll f          => Environment.exportAll e f

def exports : Operation → List (String × String)
  | .exportOne name value => [(name, value)]
  | .exportAll f          => f.entries

/-- A step is a list of single exports. -/
lemma run_eq (e : Environment) (op : Operation) : op.run e = e.insertAll op.exports := by
  cases op with
  | exportOne name value => rfl
  | exportAll f => rfl

end Operation

def built (ops : List Operation) : Environment := ops.foldl Operation.run .empty

lemma foldl_run_eq (e : Environment) (ops : List Operation) :
    ops.foldl Operation.run e = e.insertAll (ops.flatMap Operation.exports) := by
  induction ops generalizing e with
  | nil => rfl
  | cons op ops ih =>
    rw [List.foldl_cons, ih, Operation.run_eq, List.flatMap_cons, OrderedMap.insertAll_append]

/-- Steps are a list of single exports. -/
lemma built_eq (ops : List Operation) :
    built ops = OrderedMap.ofList (ops.flatMap Operation.exports) := foldl_run_eq .empty ops

/-- The environment is what single exports, one behind the other, leave: a variable has the value of
its last export, and variables stand in the order of their first ones. -/
structure Records (e : Environment) (exports : List (String × String)) : Prop where
  value : ∀ name value, e.get? name = some value ↔
    ∃ before after, exports = before ++ (name, value) :: after ∧ name ∉ after.map Prod.fst
  missing : ∀ name, e.get? name = none ↔ name ∉ exports.map Prod.fst
  order : e.keys = (exports.map Prod.fst).eraseDups
  once : e.keys.Nodup
  size : e.size = (exports.map Prod.fst).toFinset.card

lemma records_ofList (es : List (String × String)) : Records (OrderedMap.ofList es) es where
  value _ _ := OrderedMap.get?_ofList_eq_some_iff
  missing _ := OrderedMap.get?_ofList_eq_none_iff
  order := OrderedMap.keys_ofList es
  once := OrderedMap.nodup_keys_ofList es
  size := OrderedMap.size_ofList es

/-- Exporting all that a list of exports has left is exporting the list behind the other one. -/
lemma exportAll_ofList (es fs : List (String × String)) :
    Environment.exportAll (OrderedMap.ofList es) (OrderedMap.ofList fs) =
      OrderedMap.ofList (es ++ fs) := by
  rw [Environment.exportAll, OrderedMap.insertAll_ofList, OrderedMap.ofList, OrderedMap.ofList,
    OrderedMap.insertAll_append]

/-- After any steps an environment records their exports. Exporting all of one environment on top of
another is associative, has the empty environment as its unit and changes nothing where both are
the same. -/
theorem built_records (ops : List Operation) :
    (built ops).Records (ops.flatMap Operation.exports) ∧
    (∀ ops' ops'', ((built ops).exportAll (built ops')).exportAll (built ops'') =
      (built ops).exportAll ((built ops').exportAll (built ops''))) ∧
    (built ops).exportAll .empty = built ops ∧
    Environment.exportAll .empty (built ops) = built ops ∧
    (built ops).exportAll (built ops) = built ops := by
  have honce : (built ops).keys.Nodup := by
    rw [built_eq]
    exact OrderedMap.nodup_keys_ofList _
  refine ⟨?_, fun ops' ops'' => ?_, rfl, ?_, ?_⟩
  · rw [built_eq]
    exact records_ofList _
  · simp only [built_eq, exportAll_ofList, List.append_assoc]
  · exact congrArg OrderedMap.mk (OrderedMap.entries_ofList honce)
  · exact OrderedMap.insertAll_of_subset honce fun _ => id

end TwoStage.Environment
