import Mathlib.Data.Finset.Card
import TwoStage.OrderedMap

/-!
# Entries of ordered maps

An entry of a map was inserted under its key, and no key occurs twice.
-/

namespace TwoStage.OrderedMap

variable {α β : Type} [DecidableEq α]

/-! ### Entries -/

lemma mem_of_mem_insertEntry {k : α} {v : β} {es : List (α × β)} {e : α × β}
    (h : e ∈ insertEntry k v es) : e = (k, v) ∨ e ∈ es := by
  induction es with
  | nil => simpa [insertEntry] using h
  | cons f es ih =>
    obtain ⟨k', v'⟩ := f
    unfold insertEntry at h
    split at h
    next heq =>
      rcases List.mem_cons.1 h with rfl | h
      · exact .inl (by rw [heq])
      · exact .inr (List.mem_cons_of_mem _ h)
    next =>
      rcases List.mem_cons.1 h with rfl | h
      · exact .inr List.mem_cons_self
      · exact (ih h).imp_right (List.mem_cons_of_mem _)

lemma mem_of_mem_insertAll {m : OrderedMap α β} {es : List (α × β)} {e : α × β}
    (h : e ∈ (m.insertAll es).entries) : e ∈ m.entries ∨ e ∈ es := by
  induction es generalizing m with
  | nil => exact .inl h
  | cons f es ih =>
    rcases ih (m := m.insert f.1 f.2) h with h | h
    · rcases mem_of_mem_insertEntry h with rfl | h
      · exact .inr List.mem_cons_self
      · exact .inl h
    · exact .inr (List.mem_cons_of_mem _ h)

lemma mem_of_mem_ofList {es : List (α × β)} {e : α × β} (h : e ∈ (ofList es).entries) : e ∈ es := by
  rcases mem_of_mem_insertAll h with h | h
  · simp [empty] at h
  · exact h

lemma mem_insertEntry_self {k : α} {v : β} {es : List (α × β)} : (k, v) ∈ insertEntry k v es := by
  induction es with
  | nil => exact List.mem_cons_self
  | cons f es ih =>
    unfold insertEntry
    split
    next heq => simp [heq]
    next => exact List.mem_cons_of_mem _ ih

lemma mem_insertEntry_of_ne {k : α} {v : β} {es : List (α × β)} {e : α × β} (h : e ∈ es)
    (hne : e.1 ≠ k) : e ∈ insertEntry k v es := by
  induction es with
  | nil => simp at h
  | cons f es ih =>
    unfold insertEntry
    split
    next heq =>
      rcases List.mem_cons.1 h with rfl | h
      · exact absurd heq hne
      · exact List.mem_cons_of_mem _ h
    next =>
      rcases List.mem_cons.1 h with rfl | h
      · exact List.mem_cons_self
      · exact List.mem_cons_of_mem _ (ih h)

/-- An entry stays when others are inserted under other keys. -/
lemma mem_insertAll_of_notMem {m : OrderedMap α β} {es : List (α × β)} {e : α × β}
    (h : e ∈ m.entries) (hkey : e.1 ∉ es.map Prod.fst) : e ∈ (m.insertAll es).entries := by
  induction es generalizing m with
  | nil => exact h
  | cons f es ih =>
    rw [List.map_cons, List.mem_cons, not_or] at hkey
    exact ih (m := m.insert f.1 f.2) (mem_insertEntry_of_ne h hkey.1) hkey.2

/-- An entry that is inserted stays when none is inserted under its key again. -/
lemma mem_insertAll_of_mem {m : OrderedMap α β} {es : List (α × β)} {e : α × β}
    (hkeys : (es.map Prod.fst).Nodup) (h : e ∈ es) : e ∈ (m.insertAll es).entries := by
  induction es generalizing m with
  | nil => simp at h
  | cons f es ih =>
    rw [List.map_cons, List.nodup_cons] at hkeys
    rcases List.mem_cons.1 h with rfl | h
    · exact mem_insertAll_of_notMem (m := m.insert e.1 e.2) mem_insertEntry_self hkeys.1
    · exact ih (m := m.insert f.1 f.2) hkeys.2 h

/-! ### Keys -/

lemma mem_keys_insertEntry {k k' : α} {v : β} {es : List (α × β)} :
    k' ∈ (insertEntry k v es).map Prod.fst ↔ k' = k ∨ k' ∈ es.map Prod.fst := by
  induction es with
  | nil => simp [insertEntry]
  | cons f es ih =>
    unfold insertEntry
    split
    next heq => simp [heq]
    next => simp only [List.map_cons, List.mem_cons, ih, or_left_comm]

lemma nodup_keys_insertEntry {k : α} {v : β} {es : List (α × β)} (h : (es.map Prod.fst).Nodup) :
    ((insertEntry k v es).map Prod.fst).Nodup := by
  induction es with
  | nil => simp [insertEntry]
  | cons f es ih =>
    rw [List.map_cons, List.nodup_cons] at h
    unfold insertEntry
    split
    next heq => simpa using h
    next hne =>
      rw [List.map_cons, List.nodup_cons, mem_keys_insertEntry, not_or]
      exact ⟨⟨hne, h.1⟩, ih h.2⟩

lemma nodup_keys_insertAll {m : OrderedMap α β} (h : m.keys.Nodup) (es : List (α × β)) :
    (m.insertAll es).keys.Nodup := by
  induction es generalizing m with
  | nil => exact h
  | cons f es ih => exact ih (m := m.insert f.1 f.2) (nodup_keys_insertEntry h)

lemma mem_keys_insertAll {m : OrderedMap α β} {es : List (α × β)} {k : α} :
    k ∈ (m.insertAll es).keys ↔ k ∈ es.map Prod.fst ∨ k ∈ m.keys := by
  induction es generalizing m with
  | nil => simp [insertAll]
  | cons f es ih =>
    have hinsert : k ∈ (m.insert f.1 f.2).keys ↔ k = f.1 ∨ k ∈ m.keys := mem_keys_insertEntry
    refine (ih (m := m.insert f.1 f.2)).trans ?_
    rw [hinsert, List.map_cons, List.mem_cons, or_left_comm, or_assoc]

/-- The keys of a map are those that were inserted. -/
lemma mem_keys_ofList {es : List (α × β)} {k : α} :
    k ∈ (ofList es).keys ↔ k ∈ es.map Prod.fst :=
  mem_keys_insertAll.trans (or_iff_left List.not_mem_nil)

lemma nodup_keys_ofList (es : List (α × β)) : (ofList es).keys.Nodup :=
  nodup_keys_insertAll (m := .empty) List.nodup_nil es

lemma insertEntry_of_notMem {k : α} {v : β} {es : List (α × β)} (h : k ∉ es.map Prod.fst) :
    insertEntry k v es = es ++ [(k, v)] := by
  induction es with
  | nil => rfl
  | cons f es ih =>
    rw [List.map_cons, List.mem_cons, not_or] at h
    rw [insertEntry, if_neg (Ne.symm h.1), ih h.2, List.cons_append]

/-- Entries under new keys are put behind the others. -/
lemma entries_insertAll {m : OrderedMap α β} {es : List (α × β)}
    (h : (m.keys ++ es.map Prod.fst).Nodup) : (m.insertAll es).entries = m.entries ++ es := by
  induction es generalizing m with
  | nil => exact (List.append_nil _).symm
  | cons f es ih =>
    have hnew : f.1 ∉ m.keys := fun hf =>
      (List.nodup_append.1 h).2.2 _ hf _ (List.mem_map_of_mem List.mem_cons_self) rfl
    have hinsert : (m.insert f.1 f.2).entries = m.entries ++ [f] := insertEntry_of_notMem hnew
    refine (ih (m := m.insert f.1 f.2) ?_).trans ?_
    · rw [keys, hinsert, List.map_append, List.append_assoc]
      exact h
    · rw [hinsert, List.append_assoc, List.singleton_append]

/-- A map of entries under different keys has these entries. -/
lemma entries_ofList {es : List (α × β)} (h : (es.map Prod.fst).Nodup) : (ofList es).entries = es :=
  entries_insertAll (m := .empty) h

/-! ### Values -/

lemma lookup_cons_eq {k : α} {e : α × β} {es : List (α × β)} :
    (e :: es).lookup k = if k = e.1 then some e.2 else es.lookup k := by
  obtain ⟨l, w⟩ := e
  by_cases hk : k = l
  · simp [hk]
  · simp [List.lookup_cons, hk, beq_false_of_ne hk]

lemma lookup_insertEntry {k k' : α} {v : β} {es : List (α × β)} :
    (insertEntry k v es).lookup k' = if k' = k then some v else es.lookup k' := by
  induction es with
  | nil => exact lookup_cons_eq
  | cons f es ih =>
    obtain ⟨l, w⟩ := f
    unfold insertEntry
    split
    next heq =>
      subst heq
      simp only [lookup_cons_eq]
      split <;> rfl
    next hne =>
      simp only [lookup_cons_eq, ih]
      by_cases hl : k' = l
      · simp [hl, hne]
      · simp [hl]

lemma get?_insertAll {m : OrderedMap α β} {es : List (α × β)} {k : α} :
    (m.insertAll es).get? k = (es.reverse.lookup k).or (m.get? k) := by
  induction es generalizing m with
  | nil => rfl
  | cons f es ih =>
    have hinsert : (m.insert f.1 f.2).get? k = if k = f.1 then some f.2 else m.get? k :=
      lookup_insertEntry
    refine (ih (m := m.insert f.1 f.2)).trans ?_
    rw [hinsert, List.reverse_cons, List.lookup_append, Option.or_assoc, lookup_cons_eq]
    split <;> rfl

/-- Under a key is the value that was inserted last. -/
lemma get?_ofList {es : List (α × β)} {k : α} : (ofList es).get? k = es.reverse.lookup k :=
  get?_insertAll.trans Option.or_none

lemma get?_ofList_eq_some_iff {es : List (α × β)} {k : α} {v : β} :
    (ofList es).get? k = some v ↔
      ∃ before after, es = before ++ (k, v) :: after ∧ k ∉ after.map Prod.fst := by
  rw [get?_ofList, List.lookup_eq_some_iff]
  constructor
  · rintro ⟨after, before, heq, hafter⟩
    refine ⟨before.reverse, after.reverse, ?_, fun hmem => ?_⟩
    · rw [← List.reverse_reverse es, heq]
      simp
    · obtain ⟨e, he, rfl⟩ := List.mem_map.1 hmem
      simpa using hafter e (List.mem_reverse.1 he)
  · rintro ⟨before, after, rfl, hafter⟩
    refine ⟨after.reverse, before.reverse, by simp, fun e he => ?_⟩
    have hne : e.1 ≠ k := fun heq => hafter (heq ▸ List.mem_map_of_mem (List.mem_reverse.1 he))
    simpa using hne.symm

lemma get?_ofList_eq_none_iff {es : List (α × β)} {k : α} :
    (ofList es).get? k = none ↔ k ∉ es.map Prod.fst := by
  rw [get?_ofList, List.lookup_eq_none_iff]
  constructor
  · intro h hmem
    obtain ⟨e, he, rfl⟩ := List.mem_map.1 hmem
    simpa using h e (List.mem_reverse.2 he)
  · intro h e he
    have hne : e.1 ≠ k := fun heq => h (heq ▸ List.mem_map_of_mem (List.mem_reverse.1 he))
    simpa using hne.symm

/-- What is found under a key is its entry. -/
lemma get?_eq_some_iff {m : OrderedMap α β} (h : m.keys.Nodup) {k : α} {v : β} :
    m.get? k = some v ↔ (k, v) ∈ m.entries := by
  obtain ⟨es⟩ := m
  change es.lookup k = some v ↔ (k, v) ∈ es
  change (es.map Prod.fst).Nodup at h
  induction es with
  | nil => simp
  | cons e es ih =>
    rw [List.map_cons, List.nodup_cons] at h
    rw [lookup_cons_eq, List.mem_cons]
    split
    next heq =>
      -- the key does not come again, so no later entry can be meant
      have hnone : (k, v) ∉ es := fun hmem => h.1 (heq ▸ List.mem_map_of_mem hmem)
      rw [Option.some.injEq, or_iff_left hnone, Prod.ext_iff]
      exact ⟨fun hv => ⟨heq, hv.symm⟩, fun hv => hv.2.symm⟩
    next hne =>
      rw [ih h.2, or_iff_right]
      exact fun hmem => hne (congrArg Prod.fst hmem)

/-! ### Order -/

lemma keys_insertEntry (k : α) (v : β) (es : List (α × β)) :
    (insertEntry k v es).map Prod.fst =
      if k ∈ es.map Prod.fst then es.map Prod.fst else es.map Prod.fst ++ [k] := by
  split
  next hk =>
    induction es with
    | nil => simp at hk
    | cons f es ih =>
      unfold insertEntry
      split
      next heq => rfl
      next hne =>
        rw [List.map_cons, List.mem_cons, or_iff_right (Ne.symm hne)] at hk
        rw [List.map_cons, List.map_cons, ih hk]
  next hk => rw [insertEntry_of_notMem hk, List.map_append, List.map_singleton]

lemma keys_insert (m : OrderedMap α β) (k : α) (v : β) :
    (m.insert k v).keys = if k ∈ m.keys then m.keys else m.keys ++ [k] :=
  keys_insertEntry k v m.entries

lemma ofList_concat (es : List (α × β)) (e : α × β) :
    ofList (es ++ [e]) = (ofList es).insert e.1 e.2 := List.foldl_append

/-- The keys of a map stand in the order in which they were first inserted. -/
lemma keys_ofList (es : List (α × β)) : (ofList es).keys = (es.map Prod.fst).eraseDups := by
  induction es using List.reverseRecOn with
  | nil => rfl
  | append_singleton es e ih =>
    rw [ofList_concat, keys_insert, List.map_append, List.map_singleton, List.eraseDups_append,
      ← ih]
    split
    next hmem =>
      rw [mem_keys_ofList] at hmem
      simp [List.removeAll, hmem]
    next hmem =>
      rw [mem_keys_ofList] at hmem
      simp [List.removeAll, hmem, List.eraseDups_cons]

/-- There are as many entries as different keys were inserted. -/
lemma size_ofList (es : List (α × β)) : (ofList es).size = (es.map Prod.fst).toFinset.card := by
  have hkeys : (ofList es).keys.toFinset = (es.map Prod.fst).toFinset := by
    ext k
    rw [List.mem_toFinset, List.mem_toFinset, mem_keys_ofList]
  rw [← hkeys, List.toFinset_card_of_nodup (nodup_keys_ofList es), keys, List.length_map, size]

/-! ### Inserting again -/

lemma insertEntry_insertEntry_self (k : α) (v w : β) (es : List (α × β)) :
    insertEntry k v (insertEntry k w es) = insertEntry k v es := by
  induction es with
  | nil => simp [insertEntry]
  | cons f es ih =>
    by_cases hf : f.1 = k
    · simp [insertEntry, hf]
    · simp [insertEntry, hf, ih]

/-- A key that is there gets its value before or after another key. -/
lemma insertEntry_comm {k l : α} {v w : β} {es : List (α × β)} (hne : l ≠ k)
    (hk : k ∈ es.map Prod.fst) :
    insertEntry k v (insertEntry l w es) = insertEntry l w (insertEntry k v es) := by
  induction es with
  | nil => simp at hk
  | cons f es ih =>
    rw [List.map_cons, List.mem_cons] at hk
    by_cases hfk : f.1 = k
    · simp [insertEntry, hfk, hne.symm]
    · have hrest := ih (hk.resolve_left (Ne.symm hfk))
      by_cases hfl : f.1 = l
      · simp [insertEntry, hfl, hne]
      · simp [insertEntry, hfk, hfl, hrest]

lemma insertEntry_of_mem {e : α × β} {es : List (α × β)} (hkeys : (es.map Prod.fst).Nodup)
    (h : e ∈ es) : insertEntry e.1 e.2 es = es := by
  induction es with
  | nil => simp at h
  | cons f es ih =>
    rw [List.map_cons, List.nodup_cons] at hkeys
    rcases List.mem_cons.1 h with rfl | h
    · simp [insertEntry]
    · have hne : f.1 ≠ e.1 := fun heq => hkeys.1 (heq ▸ List.mem_map_of_mem h)
      simp [insertEntry, hne, ih hkeys.2 h]

lemma insertAll_cons (m : OrderedMap α β) (e : α × β) (es : List (α × β)) :
    m.insertAll (e :: es) = (m.insert e.1 e.2).insertAll es := rfl

lemma insertAll_append (m : OrderedMap α β) (es fs : List (α × β)) :
    m.insertAll (es ++ fs) = (m.insertAll es).insertAll fs := List.foldl_append

/-- Inserting entries that are there changes nothing. -/
lemma insertAll_of_subset {m : OrderedMap α β} {es : List (α × β)} (hkeys : m.keys.Nodup)
    (h : ∀ e ∈ es, e ∈ m.entries) : m.insertAll es = m := by
  induction es with
  | nil => rfl
  | cons e es ih =>
    rw [List.forall_mem_cons] at h
    have hinsert : m.insert e.1 e.2 = m := congrArg mk (insertEntry_of_mem hkeys h.1)
    rw [insertAll_cons, hinsert, ih h.2]

/-- A key that is there gets its value before or after other keys. -/
lemma insert_insertAll {m : OrderedMap α β} {k : α} {v : β} {es : List (α × β)} (hk : k ∈ m.keys)
    (hnew : k ∉ es.map Prod.fst) : (m.insertAll es).insert k v = (m.insert k v).insertAll es := by
  induction es generalizing m with
  | nil => rfl
  | cons e es ih =>
    rw [List.map_cons, List.mem_cons, not_or] at hnew
    have hmem : k ∈ (m.insert e.1 e.2).keys := mem_keys_insertEntry.2 (.inr hk)
    have hcomm : (m.insert e.1 e.2).insert k v = (m.insert k v).insert e.1 e.2 :=
      congrArg mk (insertEntry_comm (Ne.symm hnew.1) hk)
    rw [insertAll_cons, insertAll_cons, ih hmem hnew.2, hcomm]

/-- Putting an entry among those that are inserted is inserting it behind them. -/
lemma insertAll_insertEntry {m : OrderedMap α β} {k : α} {v : β} {es : List (α × β)}
    (hkeys : (es.map Prod.fst).Nodup) :
    m.insertAll (insertEntry k v es) = (m.insertAll es).insert k v := by
  induction es generalizing m with
  | nil => rfl
  | cons e es ih =>
    rw [List.map_cons, List.nodup_cons] at hkeys
    unfold insertEntry
    split
    next heq =>
      subst heq
      have hmem : e.1 ∈ (m.insert e.1 e.2).keys := mem_keys_insertEntry.2 (.inl rfl)
      have hself : (m.insert e.1 e.2).insert e.1 v = m.insert e.1 v :=
        congrArg mk (insertEntry_insertEntry_self e.1 v e.2 m.entries)
      rw [insertAll_cons, insertAll_cons, insert_insertAll hmem hkeys.1, hself]
    next => exact ih (m := m.insert e.1 e.2) hkeys.2

/-- Inserting the entries of the map of a list is inserting the list. -/
lemma insertAll_ofList (m : OrderedMap α β) (es : List (α × β)) :
    m.insertAll (ofList es).entries = m.insertAll es := by
  induction es using List.reverseRecOn with
  | nil => rfl
  | append_singleton es e ih =>
    rw [ofList_concat, insertAll_append, insert, insertAll_insertEntry (nodup_keys_ofList es), ih]
    rfl

end TwoStage.OrderedMap
