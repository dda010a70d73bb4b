import TwoStage.Proofs.OrderedMap
import TwoStage.Proofs.Outcome
import TwoStage.Proofs.Yaml.Strings
import TwoStage.Yaml.Merge

/-!
# Records

How the operations on trees act on mappings whose keys are texts, in terms of their fields: laying
one record over another, dropping the fields that are null, changing all strings, and walking down.
-/

namespace TwoStage.Yaml.Tree

variable {fields more : List (String × Tree)} {name : String} {t : Tree}

/-! ### Strings -/

@[simp] lemma strings_record (fields : List (String × Tree)) :
    (record fields).strings = fields.flatMap fun f => f.2.strings := by
  simp [record, List.flatMap_map]

@[simp] lemma strings_texts (items : List String) : (texts items).strings = items := by
  simp [texts, List.flatMap_map]

lemma holds_record {P : String → Prop} : (record fields).Holds P ↔ ∀ f ∈ fields, f.2.Holds P := by
  simp only [Holds, strings_record, List.mem_flatMap]
  constructor
  · exact fun h f hf s hs => h s ⟨f, hf, hs⟩
  · rintro h s ⟨f, hf, hs⟩
    exact h f hf s hs

lemma holds_texts {P : String → Prop} {items : List String} :
    (texts items).Holds P ↔ ∀ s ∈ items, P s := by
  rw [Holds, strings_texts]

lemma holds_text {P : String → Prop} {s : String} : (text s).Holds P ↔ P s := by simp [Holds]

lemma holds_null {P : String → Prop} : null.Holds P := by simp [Holds]

/-! ### Laying over -/

/-- Lay one field over a record. -/
def layField : List (String × Tree) → String × Tree → List (String × Tree)
  | [],               field => [field]
  | (n, t) :: fields, field =>
    if n = field.1 then (n, t.overlay field.2) :: fields else (n, t) :: layField fields field

lemma overlay_null_left (t : Tree) : overlay .null t = t := by
  cases t <;> rfl

lemma putWith_record (fields : List (String × Tree)) (field : String × Tree) :
    putWith (.text field.1) (fun old => overlay old field.2) field.2
        (fields.map fun (name, value) => (.text name, value)) =
      (layField fields field).map fun (name, value) => (.text name, value) := by
  induction fields with
  | nil => rfl
  | cons f fields ih =>
    obtain ⟨n, t⟩ := f
    rw [List.map_cons, putWith, layField, ih]
    by_cases h : n = field.1 <;> simp [same, h]

/-- A record is laid over another field by field. -/
lemma overlay_record (fields more : List (String × Tree)) :
    (record fields).overlay (record more) = record (more.foldl layField fields) := by
  rw [record, record, overlay, record, mapping.injEq]
  induction more generalizing fields with
  | nil => rfl
  | cons f more ih =>
    rw [List.map_cons, overlayEntries, putWith_record, ih, List.foldl_cons]

lemma layField_of_notMem {field : String × Tree} (h : field.1 ∉ fields.map Prod.fst) :
    layField fields field = fields ++ [field] := by
  induction fields with
  | nil => rfl
  | cons f fields ih =>
    rw [List.map_cons, List.mem_cons, not_or] at h
    rw [layField, if_neg (Ne.symm h.1), ih h.2, List.cons_append]

/-- Fields with new names come behind all others. -/
lemma foldl_layField_of_nodup (fields more : List (String × Tree))
    (h : ((fields ++ more).map Prod.fst).Nodup) :
    more.foldl layField fields = fields ++ more := by
  induction more generalizing fields with
  | nil => simp
  | cons f more ih =>
    have hf : f.1 ∉ fields.map Prod.fst := by
      rw [List.map_append, List.nodup_append] at h
      exact fun hmem => h.2.2 _ hmem _ (by simp) rfl
    rw [List.foldl_cons, layField_of_notMem hf, ih _ (by simpa using h)]
    simp

/-! ### Dropping nulls -/

/-- What is left of a value when nulls are dropped. -/
def present? (t : Tree) : Option Tree := if t.isNull then none else some t.dropNulls

lemma dropNulls_record (fields : List (String × Tree)) :
    (record fields).dropNulls =
      record (fields.filterMap fun f => f.2.present?.map fun t => (f.1, t)) := by
  rw [record, dropNulls, record, mapping.injEq]
  induction fields with
  | nil => rfl
  | cons f fields ih =>
    rw [List.map_cons, dropNullEntries, ih, List.filterMap_cons, present?]
    split <;> simp

lemma dropNulls_texts (items : List String) : (texts items).dropNulls = texts items := by
  rw [texts, dropNulls, sequence.injEq]
  induction items with
  | nil => rfl
  | cons s items ih => simp [dropNullItems, isNull, dropNulls, ih]

lemma dropNulls_textFields (fields : List (String × String)) :
    (record (fields.map fun (name, s) => (name, text s))).dropNulls =
      record (fields.map fun (name, s) => (name, text s)) := by
  rw [dropNulls_record, List.filterMap_map]
  congr 1
  rw [← List.filterMap_eq_map]
  rfl

lemma present?_text (s : String) : (text s).present? = some (text s) := rfl

lemma present?_texts (items : List String) : (texts items).present? = some (texts items) := by
  rw [present?, dropNulls_texts]
  rfl

lemma present?_record (fields : List (String × Tree)) :
    (record fields).present? = some (record fields).dropNulls := rfl

lemma strings_of_isNull {t : Tree} (h : t.isNull = true) : t.strings = [] := by
  induction t using isNull.induct with
  | case1 => exact strings_null
  | case2 tag v ih => exact (strings_tagged tag v).trans (ih h)
  | case3 t hnull htagged => cases t <;> simp_all [isNull]

mutual

/-- Dropping nulls leaves the strings as they are. -/
lemma strings_dropNulls (t : Tree) : t.dropNulls.strings = t.strings := by
  match t with
  | .null | .bool _ | .number _ | .text _ | .tagged _ _ => simp [Tree.dropNulls]
  | .sequence ts =>
    rw [Tree.dropNulls, strings_sequence, strings_sequence, flatMap_strings_dropNullItems ts]
  | .mapping es =>
    rw [Tree.dropNulls, strings_mapping, strings_mapping, flatMap_strings_dropNullEntries es]

lemma flatMap_strings_dropNullItems (ts : List Tree) :
    (dropNullItems ts).flatMap strings = ts.flatMap strings := by
  match ts with
  | [] => simp [dropNullItems]
  | t :: ts =>
    rw [dropNullItems, List.flatMap_cons]
    split
    next hnull =>
      rw [strings_of_isNull hnull, List.nil_append, flatMap_strings_dropNullItems ts]
    next => rw [List.flatMap_cons, strings_dropNulls t, flatMap_strings_dropNullItems ts]

lemma flatMap_strings_dropNullEntries (es : List (Tree × Tree)) :
    (dropNullEntries es).flatMap (fun e => e.2.strings) = es.flatMap fun e => e.2.strings := by
  match es with
  | [] => simp [dropNullEntries]
  | (k, v) :: es =>
    rw [dropNullEntries, List.flatMap_cons]
    split
    next hnull =>
      rw [strings_of_isNull hnull, List.nil_append, flatMap_strings_dropNullEntries es]
    next => rw [List.flatMap_cons, strings_dropNulls v, flatMap_strings_dropNullEntries es]

end

lemma Holds.dropNulls {P : String → Prop} {t : Tree} (h : t.Holds P) : t.dropNulls.Holds P := by
  rwa [Holds, strings_dropNulls]

/-! ### Changing strings -/

mutual

def mapStrings (g : String → String) : Tree → Tree
  | .text s      => .text (g s)
  | .sequence ts => .sequence (mapItemStrings g ts)
  | .mapping es  => .mapping (mapEntryStrings g es)
  | .tagged n t  => .tagged n (t.mapStrings g)
  | t            => t

def mapItemStrings (g : String → String) : List Tree → List Tree
  | []      => []
  | t :: ts => t.mapStrings g :: mapItemStrings g ts

def mapEntryStrings (g : String → String) : List (Tree × Tree) → List (Tree × Tree)
  | []           => []
  | (k, v) :: es => (k, v.mapStrings g) :: mapEntryStrings g es

end

lemma mapStrings_record (g : String → String) (fields : List (String × Tree)) :
    (record fields).mapStrings g = record (fields.map fun f => (f.1, f.2.mapStrings g)) := by
  rw [record, mapStrings, record, mapping.injEq]
  induction fields with
  | nil => rfl
  | cons f fields ih => simp [mapEntryStrings, ih]

lemma mapStrings_texts (g : String → String) (items : List String) :
    (texts items).mapStrings g = texts (items.map g) := by
  rw [texts, mapStrings, texts, sequence.injEq]
  induction items with
  | nil => rfl
  | cons s items ih => simp [mapItemStrings, mapStrings, ih]

section

variable {g : String → String}

mutual

/-- A change that leaves every string as it is changes nothing. -/
lemma mapStrings_eq_self (t : Tree) (h : t.Holds fun s => g s = s) : t.mapStrings g = t := by
  match t with
  | .null | .bool _ | .number _ => simp [mapStrings]
  | .text s => rw [mapStrings, h s (by simp)]
  | .sequence ts =>
    rw [mapStrings, mapItemStrings_eq_self ts]
    intro t ht s hs
    exact h s (strings_sequence ts ▸ List.mem_flatMap.2 ⟨t, ht, hs⟩)
  | .mapping es =>
    rw [mapStrings, mapEntryStrings_eq_self es]
    intro e he s hs
    exact h s (strings_mapping es ▸ List.mem_flatMap.2 ⟨e, he, hs⟩)
  | .tagged n v =>
    rw [mapStrings, mapStrings_eq_self v]
    intro s hs
    exact h s (by simpa using hs)

lemma mapItemStrings_eq_self (ts : List Tree) (h : ∀ t ∈ ts, t.Holds fun s => g s = s) :
    mapItemStrings g ts = ts := by
  match ts with
  | [] => simp [mapItemStrings]
  | t :: ts =>
    rw [List.forall_mem_cons] at h
    rw [mapItemStrings, mapStrings_eq_self t h.1, mapItemStrings_eq_self ts h.2]

lemma mapEntryStrings_eq_self (es : List (Tree × Tree))
    (h : ∀ e ∈ es, e.2.Holds fun s => g s = s) : mapEntryStrings g es = es := by
  match es with
  | [] => simp [mapEntryStrings]
  | (k, v) :: es =>
    rw [List.forall_mem_cons] at h
    rw [mapEntryStrings, mapStrings_eq_self v h.1, mapEntryStrings_eq_self es h.2]

end

end

section

variable {ε : Type} {f : String → String → Except ε String} {g : String → String}

mutual

/-- A change that succeeds on every string changes every string. -/
lemma mapTextsAt_eq (path : String) (t : Tree) (h : t.Holds fun s => ∀ p, f p s = .ok (g s)) :
    t.mapTextsAt f path = .ok (t.mapStrings g) := by
  match t with
  | .null | .bool _ | .number _ => simp [mapTextsAt, mapStrings]
  | .text s =>
    have hs := h s (by simp) path
    simp [mapTextsAt, mapStrings, hs, Except.map]
  | .sequence ts =>
    have hts := mapItemTextsAt_eq path 0 ts fun t ht s hs =>
      h s (by simpa using ⟨t, ht, hs⟩)
    simp [mapTextsAt, mapStrings, hts, Except.map]
  | .mapping es =>
    have hes := mapEntryTextsAt_eq path es fun e he s hs =>
      h s (by rw [strings_mapping]; exact List.mem_flatMap.2 ⟨e, he, hs⟩)
    simp [mapTextsAt, mapStrings, hes, Except.map]
  | .tagged n v =>
    have hv := mapTextsAt_eq path v fun s hs => h s (by simpa using hs)
    simp [mapTextsAt, mapStrings, hv, Except.map]

lemma mapItemTextsAt_eq (path : String) (i : Nat) (ts : List Tree)
    (h : ∀ t ∈ ts, t.Holds fun s => ∀ p, f p s = .ok (g s)) :
    mapItemTextsAt f path i ts = .ok (mapItemStrings g ts) := by
  match ts with
  | [] => simp [mapItemTextsAt, mapItemStrings]
  | t :: ts =>
    rw [List.forall_mem_cons] at h
    have ht := mapTextsAt_eq (FieldPath.item path i) t h.1
    have hts := mapItemTextsAt_eq path (i + 1) ts h.2
    simp [mapItemTextsAt, mapItemStrings, ht, hts, bind, Except.bind, pure, Except.pure]

lemma mapEntryTextsAt_eq (path : String) (es : List (Tree × Tree))
    (h : ∀ e ∈ es, e.2.Holds fun s => ∀ p, f p s = .ok (g s)) :
    mapEntryTextsAt f path es = .ok (mapEntryStrings g es) := by
  match es with
  | [] => simp [mapEntryTextsAt, mapEntryStrings]
  | (k, v) :: es =>
    rw [List.forall_mem_cons] at h
    have hv := mapTextsAt_eq (FieldPath.child path (FieldPath.label k)) v h.1
    have hes := mapEntryTextsAt_eq path es h.2
    simp [mapEntryTextsAt, mapEntryStrings, hv, hes, bind, Except.bind, pure, Except.pure]

end

end

/-! ### Walking -/

lemma lookupText?_record (name : String) (fields : List (String × Tree)) :
    lookupText? name (fields.map fun (n, value) => (.text n, value)) = fields.lookup name := by
  induction fields with
  | nil => rfl
  | cons f fields ih =>
    rw [List.map_cons, lookupText?, ih, List.lookup_cons]
    split
    next h => rw [beq_iff_eq.2 h.symm]
    next h => rw [beq_eq_false_iff_ne.2 (Ne.symm h)]

lemma walk?_nil (t : Tree) : t.walk? [] = some t := by
  cases t <;> rfl

lemma walk?_record (name : String) (rest : List String) (fields : List (String × Tree)) :
    (record fields).walk? (name :: rest) = (fields.lookup name).bind (walk? rest) := by
  rw [record, walk?, lookupText?_record]

/-- A field is found among those that are left if its value is. -/
lemma lookup_dropNulls (h : (fields.map Prod.fst).Nodup) :
    (fields.filterMap fun f => f.2.present?.map fun t => (f.1, t)).lookup name =
      (fields.lookup name).bind present? := by
  induction fields with
  | nil => rfl
  | cons f fields ih =>
    rw [List.map_cons, List.nodup_cons] at h
    rw [List.filterMap_cons, List.lookup_cons]
    by_cases hn : name = f.1
    · rw [beq_iff_eq.2 hn, Option.bind_some]
      cases hp : f.2.present? with
      | some t => simp [hn]
      | none =>
        have hnone : fields.lookup name = none := by
          rw [List.lookup_eq_none_iff]
          rintro ⟨n, t⟩ hmem
          rw [bne_iff_ne]
          rintro rfl
          exact h.1 (hn ▸ List.mem_map_of_mem hmem)
        simp [ih h.2, hnone]
    · have hne : (name == f.1) = false := beq_eq_false_iff_ne.2 hn
      cases hp : f.2.present? <;> simp [ih h.2, List.lookup_cons, hne]

lemma lookup_mapStrings (g : String → String) (name : String) (fields : List (String × Tree)) :
    (fields.map fun f => (f.1, f.2.mapStrings g)).lookup name =
      (fields.lookup name).map (mapStrings g) := by
  induction fields with
  | nil => rfl
  | cons f fields ih =>
    rw [List.map_cons, List.lookup_cons, List.lookup_cons, ih]
    split <;> rfl

/-- Walking down a record whose nulls are dropped and whose strings are changed. -/
lemma walk?_changed (g : String → String) (name : String) (rest : List String)
    (h : (fields.map Prod.fst).Nodup) :
    ((record fields).dropNulls.mapStrings g).walk? (name :: rest) =
      ((fields.lookup name).bind present?).bind fun t => (t.mapStrings g).walk? rest := by
  rw [dropNulls_record, mapStrings_record, walk?_record, lookup_mapStrings, lookup_dropNulls h,
    Option.bind_map]
  rfl

end TwoStage.Yaml.Tree
