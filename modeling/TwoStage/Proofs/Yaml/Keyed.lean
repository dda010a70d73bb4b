import TwoStage.Proofs.Yaml.Correspondence
import TwoStage.Proofs.Yaml.Record
import TwoStage.Yaml.Printer

/-!
# Trees with texts for keys

A tree without tags whose keys are texts can be written, as no mapping in it could be taken for a
tag. Dropping nulls and changing strings keeps it one, and keeps what stands in it under a path of
keys.
-/

namespace TwoStage.Yaml.Tree

variable {t t' v w : Tree} {names : List String} {R : String → String → Prop}

/-! ### Keys -/

/-- Every key in the tree is a text, and nothing has a tag. -/
inductive TextKeyed : Tree → Prop
  | null : TextKeyed .null
  | bool (b : Bool) : TextKeyed (.bool b)
  | number (n : Number) : TextKeyed (.number n)
  | text (s : String) : TextKeyed (.text s)
  | sequence {ts : List Tree} (items : ∀ t ∈ ts, TextKeyed t) : TextKeyed (.sequence ts)
  | mapping {es : List (Tree × Tree)} (keys : ∀ e ∈ es, ∃ s, e.1 = .text s)
      (values : ∀ e ∈ es, TextKeyed e.2) : TextKeyed (.mapping es)

lemma textKeyed_record {fields : List (String × Tree)} (h : ∀ f ∈ fields, f.2.TextKeyed) :
    (record fields).TextKeyed := by
  refine .mapping (fun e he => ?_) fun e he => ?_
  all_goals obtain ⟨f, hf, rfl⟩ := List.mem_map.1 he
  · exact ⟨f.1, rfl⟩
  · exact h f hf

lemma textKeyed_texts (items : List String) : (texts items).TextKeyed := by
  refine .sequence fun t ht => ?_
  obtain ⟨s, -, rfl⟩ := List.mem_map.1 ht
  exact .text s

/-! ### Writing -/

lemma areWritable_iff {ts : List Tree} :
    areWritable ts = true ↔ ∀ t ∈ ts, isWritable false t = true := by
  induction ts with
  | nil => simp [areWritable]
  | cons t ts ih => simp [areWritable, ih]

lemma entriesWritable_iff {es : List (Tree × Tree)} :
    entriesWritable es = true ↔
      ∀ e ∈ es, isWritable false e.1 = true ∧ isWritable false e.2 = true := by
  induction es with
  | nil => simp [entriesWritable]
  | cons e es ih =>
    obtain ⟨k, v⟩ := e
    simp [entriesWritable, ih, and_assoc]

/-- Such a tree is not refused. -/
lemma TextKeyed.isWritable (h : t.TextKeyed) (tagged : Bool) : isWritable tagged t = true := by
  induction h generalizing tagged with
  | null | bool _ | number _ | text _ => simp [Yaml.isWritable]
  | sequence _ ih =>
    rw [Yaml.isWritable, areWritable_iff]
    exact fun t ht => ih t ht false
  | @mapping es keys _ ih =>
    have hlike : isTagLike es = false := by
      unfold isTagLike
      split
      next => exact absurd (keys _ List.mem_cons_self) (by simp)
      next => exact absurd (keys _ List.mem_cons_self) (by simp)
      next => rfl
    rw [Yaml.isWritable, hlike, Bool.not_false, Bool.or_true, Bool.true_and, entriesWritable_iff]
    intro e he
    obtain ⟨s, hs⟩ := keys e he
    rw [hs]
    exact ⟨by simp [Yaml.isWritable], ih e he false⟩

/-! ### Dropping nulls and changing strings -/

lemma exists_of_mem_dropNullItems {ts : List Tree} (h : t ∈ dropNullItems ts) :
    ∃ u ∈ ts, t = u.dropNulls := by
  induction ts with
  | nil => simp [dropNullItems] at h
  | cons u ts ih =>
    have hrest (h : t ∈ dropNullItems ts) : ∃ u' ∈ u :: ts, t = u'.dropNulls := by
      obtain ⟨u', hu', heq⟩ := ih h
      exact ⟨u', List.mem_cons_of_mem _ hu', heq⟩
    unfold dropNullItems at h
    split at h
    next => exact hrest h
    next =>
      rcases List.mem_cons.1 h with rfl | h
      · exact ⟨u, List.mem_cons_self, rfl⟩
      · exact hrest h

lemma exists_of_mem_dropNullEntries {es : List (Tree × Tree)} {e : Tree × Tree}
    (h : e ∈ dropNullEntries es) : ∃ f ∈ es, e = (f.1, f.2.dropNulls) := by
  induction es with
  | nil => simp [dropNullEntries] at h
  | cons f es ih =>
    have hrest (h : e ∈ dropNullEntries es) : ∃ f' ∈ f :: es, e = (f'.1, f'.2.dropNulls) := by
      obtain ⟨f', hf', heq⟩ := ih h
      exact ⟨f', List.mem_cons_of_mem _ hf', heq⟩
    unfold dropNullEntries at h
    split at h
    next => exact hrest h
    next =>
      rcases List.mem_cons.1 h with rfl | h
      · exact ⟨f, List.mem_cons_self, rfl⟩
      · exact hrest h

lemma TextKeyed.dropNulls (h : t.TextKeyed) : t.dropNulls.TextKeyed := by
  induction h with
  | null => exact .null
  | bool b => exact .bool b
  | number n => exact .number n
  | text s => exact .text s
  | sequence _ ih =>
    rw [Tree.dropNulls]
    refine .sequence fun u hu => ?_
    obtain ⟨t, ht, rfl⟩ := exists_of_mem_dropNullItems hu
    exact ih t ht
  | mapping keys _ ih =>
    rw [Tree.dropNulls]
    refine .mapping (fun e he => ?_) fun e he => ?_
    all_goals obtain ⟨f, hf, rfl⟩ := exists_of_mem_dropNullEntries he
    · exact keys f hf
    · exact ih f hf

lemma ItemsCorrespond.exists_of_mem {ts ts' : List Tree} (h : ItemsCorrespond R ts ts')
    (ht : t' ∈ ts') : ∃ t ∈ ts, Corresponds R t t' := by
  induction ts generalizing ts' with
  | nil =>
    cases h
    simp at ht
  | cons u ts ih =>
    cases h with
    | cons head tail =>
      rcases List.mem_cons.1 ht with rfl | ht
      · exact ⟨u, List.mem_cons_self, head⟩
      · obtain ⟨t, hmem, h⟩ := ih tail ht
        exact ⟨t, List.mem_cons_of_mem _ hmem, h⟩

lemma EntriesCorrespond.exists_of_mem {es es' : List (Tree × Tree)}
    (h : EntriesCorrespond R es es') {e' : Tree × Tree} (he : e' ∈ es') :
    ∃ e ∈ es, e.1 = e'.1 ∧ Corresponds R e.2 e'.2 := by
  induction es generalizing es' with
  | nil =>
    cases h
    simp at he
  | cons f es ih =>
    cases h with
    | cons k head tail =>
      rcases List.mem_cons.1 he with rfl | he
      · exact ⟨_, List.mem_cons_self, rfl, head⟩
      · obtain ⟨e, hmem, h⟩ := ih tail he
        exact ⟨e, List.mem_cons_of_mem _ hmem, h⟩

lemma TextKeyed.corresponds (h : t.TextKeyed) (hR : Corresponds R t t') : t'.TextKeyed := by
  induction h generalizing t' with
  | null =>
    cases hR
    exact .null
  | bool b =>
    cases hR
    exact .bool b
  | number n =>
    cases hR
    exact .number n
  | text s =>
    cases hR
    exact .text _
  | sequence _ ih =>
    cases hR with
    | sequence hitems =>
      refine .sequence fun u hu => ?_
      obtain ⟨t, ht, h⟩ := hitems.exists_of_mem hu
      exact ih t ht h
  | mapping keys _ ih =>
    cases hR with
    | mapping hentries =>
      refine .mapping (fun e' he' => ?_) fun e' he' => ?_
      all_goals obtain ⟨e, he, hkey, h⟩ := hentries.exists_of_mem he'
      -- only texts in values are changed, so the keys are those of before
      · rw [← hkey]
        exact keys e he
      · exact ih e he h

lemma EntriesCorrespond.exists_textFields {fields : List (String × String)}
    {es' : List (Tree × Tree)}
    (h : EntriesCorrespond R (fields.map fun (name, s) => (.text name, .text s)) es') :
    ∃ fields' : List (String × String), fields'.map Prod.fst = fields.map Prod.fst ∧
      es' = fields'.map fun (name, s) => (.text name, .text s) := by
  induction fields generalizing es' with
  | nil =>
    cases h
    exact ⟨[], rfl, rfl⟩
  | cons f fields ih =>
    cases h with
    | cons _ head tail =>
      cases head with
      | @text _ s' _ =>
        obtain ⟨fields', hnames, rfl⟩ := ih tail
        exact ⟨(f.1, s') :: fields', by simp [hnames], rfl⟩

/-- What corresponds to a record of texts is one with the same names. -/
lemma Corresponds.exists_textFields {fields : List (String × String)}
    (h : Corresponds R (record (fields.map fun (name, s) => (name, .text s))) t') :
    ∃ fields' : List (String × String), fields'.map Prod.fst = fields.map Prod.fst ∧
      t' = record (fields'.map fun (name, s) => (name, .text s)) := by
  simp only [record, List.map_map, Function.comp_def] at h
  cases h with
  | mapping h =>
    obtain ⟨fields', hnames, rfl⟩ := h.exists_textFields
    exact ⟨fields', hnames, by simp [record, Function.comp_def]⟩

/-! ### Keys at any depth -/

mutual

def keysWithin : Tree → List Tree
  | .sequence ts => keysInItems ts
  | .mapping es  => keysInEntries es
  | .tagged _ t  => t.keysWithin
  | _            => []

def keysInItems : List Tree → List Tree
  | []      => []
  | t :: ts => t.keysWithin ++ keysInItems ts

def keysInEntries : List (Tree × Tree) → List Tree
  | []           => []
  | (k, v) :: es => k :: (k.keysWithin ++ v.keysWithin) ++ keysInEntries es

end

@[simp] lemma keysWithin_null : null.keysWithin = [] := by simp [keysWithin]

@[simp] lemma keysWithin_bool (b : Bool) : (bool b).keysWithin = [] := by simp [keysWithin]

@[simp] lemma keysWithin_text (s : String) : (text s).keysWithin = [] := by simp [keysWithin]

@[simp] lemma keysWithin_sequence (ts : List Tree) :
    (sequence ts).keysWithin = ts.flatMap keysWithin := by
  rw [keysWithin]
  induction ts with
  | nil => simp [keysInItems]
  | cons t ts ih => simp [keysInItems, ih]

@[simp] lemma keysWithin_mapping (es : List (Tree × Tree)) :
    (mapping es).keysWithin = es.flatMap fun e => e.1 :: (e.1.keysWithin ++ e.2.keysWithin) := by
  rw [keysWithin]
  induction es with
  | nil => simp [keysInEntries]
  | cons e es ih => simp [keysInEntries, ih]

@[simp] lemma keysWithin_texts (items : List String) : (texts items).keysWithin = [] := by
  simp [texts, List.flatMap_map]

@[simp] lemma keysWithin_record (fields : List (String × Tree)) :
    (record fields).keysWithin = fields.flatMap fun f => .text f.1 :: f.2.keysWithin := by
  simp [record, List.flatMap_map]

/-- Every key in the tree is a text with the property. -/
def KeysHold (P : String → Prop) (t : Tree) : Prop := ∀ k ∈ t.keysWithin, ∃ s, k = .text s ∧ P s

lemma KeysHold.of_eq_nil {P : String → Prop} (h : t.keysWithin = []) : t.KeysHold P := by
  intro k hk
  rw [h] at hk
  exact absurd hk List.not_mem_nil

@[simp] lemma keysHold_null {P : String → Prop} : null.KeysHold P := .of_eq_nil (by simp)

@[simp] lemma keysHold_bool {P : String → Prop} (b : Bool) : (bool b).KeysHold P :=
  .of_eq_nil (by simp)

@[simp] lemma keysHold_text {P : String → Prop} (s : String) : (text s).KeysHold P :=
  .of_eq_nil (by simp)

@[simp] lemma keysHold_texts {P : String → Prop} (items : List String) : (texts items).KeysHold P :=
  .of_eq_nil (by simp)

lemma keysHold_record {P : String → Prop} {fields : List (String × Tree)} :
    (record fields).KeysHold P ↔ ∀ f ∈ fields, P f.1 ∧ f.2.KeysHold P := by
  simp only [KeysHold, keysWithin_record, List.mem_flatMap, List.mem_cons]
  constructor
  · intro h f hf
    constructor
    · obtain ⟨s, hs, hP⟩ := h (.text f.1) ⟨f, hf, .inl rfl⟩
      rwa [text.inj hs]
    · intro k hk
      exact h k ⟨f, hf, .inr hk⟩
  · rintro h k ⟨f, hf, rfl | hk⟩
    · exact ⟨f.1, rfl, (h f hf).1⟩
    · exact (h f hf).2 k hk

mutual

/-- Dropping nulls adds no key. -/
lemma keysWithin_dropNulls_subset (t : Tree) : t.dropNulls.keysWithin ⊆ t.keysWithin := by
  match t with
  | .null | .bool _ | .number _ | .text _ | .tagged _ _ =>
    rw [Tree.dropNulls]
    · exact List.Subset.refl _
    all_goals simp
  | .sequence ts =>
    rw [Tree.dropNulls, keysWithin, keysWithin]
    exact keysInItems_dropNullItems_subset ts
  | .mapping es =>
    rw [Tree.dropNulls, keysWithin, keysWithin]
    exact keysInEntries_dropNullEntries_subset es

lemma keysInItems_dropNullItems_subset (ts : List Tree) :
    keysInItems (dropNullItems ts) ⊆ keysInItems ts := by
  match ts with
  | [] => simp [dropNullItems]
  | t :: ts =>
    have hts := keysInItems_dropNullItems_subset ts
    rw [dropNullItems, keysInItems]
    split
    · exact List.subset_append_of_subset_right _ hts
    · rw [keysInItems]
      exact List.append_subset.2
        ⟨List.subset_append_of_subset_left _ (keysWithin_dropNulls_subset t),
          List.subset_append_of_subset_right _ hts⟩

lemma keysInEntries_dropNullEntries_subset (es : List (Tree × Tree)) :
    keysInEntries (dropNullEntries es) ⊆ keysInEntries es := by
  match es with
  | [] => simp [dropNullEntries]
  | (k, v) :: es =>
    have hes := keysInEntries_dropNullEntries_subset es
    rw [dropNullEntries, keysInEntries]
    split
    · exact List.subset_append_of_subset_right _ hes
    · have hv := keysWithin_dropNulls_subset v
      intro key hkey
      simp only [keysInEntries, List.mem_append, List.mem_cons] at hkey ⊢
      rcases hkey with (hkey | hkey | hkey) | hkey
      · exact .inl (.inl hkey)
      · exact .inl (.inr (.inl hkey))
      · exact .inl (.inr (.inr (hv hkey)))
      · exact .inr (hes hkey)

end

lemma KeysHold.dropNulls {P : String → Prop} (h : t.KeysHold P) : t.dropNulls.KeysHold P :=
  fun k hk => h k (keysWithin_dropNulls_subset t hk)

/-! ### Paths of keys -/

lemma lookupText?_cons_self {name : String} {es : List (Tree × Tree)} :
    lookupText? name ((.text name, v) :: es) = some v := by
  rw [lookupText?, if_pos rfl]

lemma lookupText?_cons_of_ne {k : Tree} {name : String} {es : List (Tree × Tree)}
    (hk : k ≠ .text name) : lookupText? name ((k, v) :: es) = lookupText? name es := by
  cases k with
  | text s => rw [lookupText?, if_neg fun heq => hk (by rw [heq])]
  | _ => rfl

lemma lookupText?_dropNullEntries {name : String} {es : List (Tree × Tree)}
    (h : lookupText? name es = some w) (hw : w.isNull = false) :
    lookupText? name (dropNullEntries es) = some w.dropNulls := by
  induction es with
  | nil => simp [lookupText?] at h
  | cons e es ih =>
    obtain ⟨k, u⟩ := e
    by_cases hk : k = .text name
    · subst hk
      rw [lookupText?_cons_self] at h
      obtain rfl := Option.some.inj h
      rw [dropNullEntries, hw, if_neg Bool.false_ne_true, lookupText?_cons_self]
    · rw [lookupText?_cons_of_ne hk] at h
      rw [dropNullEntries]
      split
      next => exact ih h
      next => rw [lookupText?_cons_of_ne hk, ih h]

lemma exists_lookupText?_of_entriesCorrespond {name : String} {es es' : List (Tree × Tree)}
    (hes : EntriesCorrespond R es es') (h : lookupText? name es = some w) :
    ∃ w', lookupText? name es' = some w' ∧ Corresponds R w w' := by
  induction es generalizing es' with
  | nil => simp [lookupText?] at h
  | cons e es ih =>
    cases hes with
    | @cons k v v' _ _ head tail =>
      by_cases hk : k = .text name
      · subst hk
        rw [lookupText?_cons_self] at h
        obtain rfl := Option.some.inj h
        exact ⟨v', lookupText?_cons_self, head⟩
      · rw [lookupText?_cons_of_ne hk] at h ⊢
        exact ih tail h

/-- The value stands in the tree under a path of keys. -/
inductive Has : Tree → List String → Tree → Prop
  | here (t : Tree) : Has t [] t
  | under {es : List (Tree × Tree)} {name : String} {rest : List String} {w v : Tree}
      (lookup : lookupText? name es = some w) (h : Has w rest v) :
      Has (.mapping es) (name :: rest) v

namespace Has

lemma record {fields : List (String × Tree)} {name : String}
    (hlookup : fields.lookup name = some w) (h : w.Has names v) :
    (Tree.record fields).Has (name :: names) v :=
  .under ((lookupText?_record name fields).trans hlookup) h

/-- What stands in a tree is found there. -/
lemma walk?_eq (h : t.Has names v) : t.walk? names = some v := by
  induction h with
  | here t => exact walk?_nil t
  | under lookup _ ih => rw [walk?, lookup, Option.bind_some, ih]

lemma isNull_eq_false (h : t.Has names v) (hv : v.isNull = false) : t.isNull = false := by
  cases h with
  | here => exact hv
  | under => rfl

/-- What is not null stays under its keys when nulls are dropped. -/
lemma dropNulls (h : t.Has names v) (hv : v.isNull = false) :
    t.dropNulls.Has names v.dropNulls := by
  induction h with
  | here t => exact .here _
  | under lookup h ih =>
    rw [Tree.dropNulls]
    exact .under (lookupText?_dropNullEntries lookup (h.isNull_eq_false hv)) (ih hv)

lemma corresponds (h : t.Has names v) (hR : Corresponds R t t') :
    ∃ v', t'.Has names v' ∧ Corresponds R v v' := by
  induction h generalizing t' with
  | here t => exact ⟨t', .here t', hR⟩
  | under lookup _ ih =>
    cases hR with
    | mapping hentries =>
      obtain ⟨w', hlookup, hw⟩ := exists_lookupText?_of_entriesCorrespond hentries lookup
      obtain ⟨v', hv', h⟩ := ih hw
      exact ⟨v', .under hlookup hv', h⟩

end Has

end TwoStage.Yaml.Tree
