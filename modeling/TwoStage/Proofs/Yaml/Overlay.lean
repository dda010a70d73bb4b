import TwoStage.Proofs.Yaml.Record
import TwoStage.Proofs.Yaml.Sameness

/-!
# Laying over, by paths

What a tree with another one laid over it holds at the end of a path of keys. A value of the overlay
that is neither null nor a mapping is there; what is below stays where the overlay is silent or says
null; and a mapping has the keys of both, those from below first. Laying the same tree over a second
time changes nothing.
-/

namespace TwoStage.Yaml.Tree

variable {es fs : List (Tree × Tree)} {key k : Tree}

/-! ### Looking up -/

lemma lookup?_cons (key : Tree) (e : Tree × Tree) (es : List (Tree × Tree)) :
    lookup? key (e :: es) = if e.1.same key then some e.2 else lookup? key es := rfl

lemma lookup?_eq_none_iff : lookup? key es = none ↔ ∀ e ∈ es, e.1.same key = false := by
  induction es with
  | nil => simp [lookup?]
  | cons e es ih =>
    rw [lookup?_cons, List.forall_mem_cons, ← ih]
    by_cases h : e.1.same key = true <;> simp [h]

/-- The key is the same as none of the given ones. -/
def isNew (keys : List Tree) (key : Tree) : Bool := keys.all fun k => !k.same key

lemma filter_isNew_nil (keys : List Tree) : keys.filter (isNew []) = keys :=
  List.filter_eq_self.2 fun _ _ => rfl

lemma isNone_lookup? (key : Tree) (es : List (Tree × Tree)) :
    (lookup? key es).isNone = isNew (es.map Prod.fst) key := by
  rw [Bool.eq_iff_iff, Option.isNone_iff_eq_none, lookup?_eq_none_iff]
  simp [isNew]

lemma exists_mem_of_lookup? {v : Tree} (h : lookup? key es = some v) :
    ∃ k, (k, v) ∈ es ∧ k.same key = true := by
  induction es with
  | nil => simp [lookup?] at h
  | cons e es ih =>
    rw [lookup?_cons] at h
    split at h
    next hsame =>
      obtain rfl := Option.some.inj h
      exact ⟨e.1, List.mem_cons_self, hsame⟩
    next =>
      obtain ⟨k, hmem, hsame⟩ := ih h
      exact ⟨k, List.mem_cons_of_mem _ hmem, hsame⟩

/-- In a mapping whose keys differ, each entry is found by its key. -/
lemma lookup?_of_mem {e : Tree × Tree} (h : ApartKeys es) (he : e ∈ es) :
    lookup? e.1 es = some e.2 := by
  induction es with
  | nil => simp at he
  | cons f es ih =>
    rw [ApartKeys, List.pairwise_cons] at h
    rw [lookup?_cons]
    rcases List.mem_cons.1 he with rfl | he
    · rw [if_pos (same_refl _)]
    · rw [if_neg (by simp [h.1 e he]), ih h.2 he]

/-! ### Putting -/

variable {change : Tree → Tree} {fresh : Tree}

/-- The keys as they are, and a new one behind them. -/
lemma keys_putWith : (putWith k change fresh es).map Prod.fst =
    es.map Prod.fst ++ if isNew (es.map Prod.fst) k then [k] else [] := by
  rw [← isNone_lookup?]
  induction es with
  | nil => rfl
  | cons e es ih =>
    rw [putWith, lookup?_cons]
    split
    · simp
    · rw [List.map_cons, ih, List.map_cons, List.cons_append]

lemma forall_mem_putWith {P : Tree × Tree → Prop} (hfresh : P (k, fresh))
    (h : ∀ e ∈ es, P e ∧ P (e.1, change e.2)) : ∀ e ∈ putWith k change fresh es, P e := by
  induction es with
  | nil => simpa [putWith] using hfresh
  | cons e es ih =>
    rw [List.forall_mem_cons] at h
    rw [putWith]
    split
    · exact List.forall_mem_cons.2 ⟨h.1.2, fun e he => (h.2 e he).1⟩
    · exact List.forall_mem_cons.2 ⟨h.1.1, ih h.2⟩

lemma lookup?_putWith_of_same (hk : k.KeysDiffer) (h : k.same key = true) :
    lookup? key (putWith k change fresh es) = some (((lookup? key es).map change).getD fresh) := by
  induction es with
  | nil => simp [putWith, lookup?, h]
  | cons e es ih =>
    have hiff : e.1.same k = true ↔ e.1.same key = true :=
      ⟨fun he => same_trans he h, fun he => same_trans he (same_symm hk h)⟩
    rw [putWith, lookup?_cons]
    by_cases he : e.1.same key = true
    · rw [if_pos (hiff.2 he), if_pos he, lookup?_cons, if_pos he]
      rfl
    · rw [if_neg fun he' => he (hiff.1 he'), if_neg he, lookup?_cons, if_neg he, ih]

lemma lookup?_putWith_of_not_same (hes : ∀ e ∈ es, e.1.KeysDiffer) (h : k.same key = false) :
    lookup? key (putWith k change fresh es) = lookup? key es := by
  induction es with
  | nil => simp [putWith, lookup?, h]
  | cons e es ih =>
    rw [List.forall_mem_cons] at hes
    rw [putWith]
    split
    next he =>
      have hne : ¬ e.1.same key = true := fun hkey => by
        simp [same_trans (same_symm hes.1 he) hkey] at h
      rw [lookup?_cons, lookup?_cons, if_neg hne, if_neg hne]
    next => rw [lookup?_cons, lookup?_cons, ih hes.2]

/-- A change that leaves the value under the key alone leaves the entries alone. -/
lemma putWith_eq_self {v : Tree} (h : lookup? k es = some v) (hv : change v = v) :
    putWith k change fresh es = es := by
  induction es with
  | nil => simp [lookup?] at h
  | cons e es ih =>
    rw [lookup?_cons] at h
    rw [putWith]
    split
    next he =>
      rw [if_pos he] at h
      obtain rfl := Option.some.inj h
      rw [hv]
    next he =>
      rw [if_neg he] at h
      rw [ih h]

/-! ### Laying entries over entries -/

/-- What is under a key when entries are laid over others. -/
lemma lookup?_overlayEntries (hes : ∀ e ∈ es, e.1.KeysDiffer) (hfs : (mapping fs).KeysDiffer) :
    lookup? key (overlayEntries es fs) =
      match lookup? key fs with
      | some v => some (((lookup? key es).map fun old => overlay old v).getD v)
      | none   => lookup? key es := by
  rw [keysDiffer_mapping] at hfs
  induction fs generalizing es with
  | nil => rfl
  | cons f fs ih =>
    obtain ⟨k, v⟩ := f
    obtain ⟨hapart, hdiffer⟩ := hfs
    rw [ApartKeys, List.pairwise_cons] at hapart
    rw [List.forall_mem_cons] at hdiffer
    have hput : ∀ e ∈ putWith k (fun old => overlay old v) v es, e.1.KeysDiffer :=
      forall_mem_putWith hdiffer.1.1 fun e he => ⟨hes e he, hes e he⟩
    rw [overlayEntries, ih hput ⟨hapart.2, hdiffer.2⟩, lookup?_cons]
    by_cases h : k.same key = true
    · have hnone : lookup? key fs = none := by
        rw [lookup?_eq_none_iff]
        intro f hf
        rw [Bool.eq_false_iff]
        intro hsame
        have hkeys := same_trans h (same_symm (hdiffer.2 f hf).1 hsame)
        simp [hapart.1 f hf] at hkeys
      rw [hnone, if_pos h, lookup?_putWith_of_same hdiffer.1.1 h]
    · rw [if_neg h, lookup?_putWith_of_not_same hes (by simpa using h)]

/-- The keys of the entries below, then the new ones in their order. -/
lemma keys_overlayEntries (hes : ∀ e ∈ es, e.1.KeysDiffer) (hfs : (mapping fs).KeysDiffer) :
    (overlayEntries es fs).map Prod.fst =
      es.map Prod.fst ++ (fs.map Prod.fst).filter (isNew (es.map Prod.fst)) := by
  rw [keysDiffer_mapping] at hfs
  induction fs generalizing es with
  | nil => simp [overlayEntries]
  | cons f fs ih =>
    obtain ⟨k, v⟩ := f
    obtain ⟨hapart, hdiffer⟩ := hfs
    rw [ApartKeys, List.pairwise_cons] at hapart
    rw [List.forall_mem_cons] at hdiffer
    have hput : ∀ e ∈ putWith k (fun old => overlay old v) v es, e.1.KeysDiffer :=
      forall_mem_putWith hdiffer.1.1 fun e he => ⟨hes e he, hes e he⟩
    have hnew : (fs.map Prod.fst).filter
          (isNew ((putWith k (fun old => overlay old v) v es).map Prod.fst)) =
        (fs.map Prod.fst).filter (isNew (es.map Prod.fst)) := by
      refine List.filter_congr fun k' hk' => ?_
      obtain ⟨f, hf, rfl⟩ := List.mem_map.1 hk'
      rw [← isNone_lookup?, ← isNone_lookup?, lookup?_putWith_of_not_same hes (hapart.1 f hf)]
    rw [overlayEntries, ih hput ⟨hapart.2, hdiffer.2⟩, hnew, keys_putWith, List.map_cons,
      List.filter_cons, List.append_assoc]
    split <;> rfl

/-! ### Laying trees over trees -/

lemma overlay_null_right (base : Tree) : base.overlay .null = base := by
  cases base <;> rfl

/-- A value that is neither null nor a mapping replaces what is below it. -/
lemma overlay_of_leaf (base : Tree) {upper : Tree} (hnull : upper ≠ .null)
    (hleaf : ∀ fs, upper ≠ .mapping fs) : base.overlay upper = upper := by
  cases upper with
  | null => exact absurd rfl hnull
  | mapping fs => exact absurd rfl (hleaf fs)
  | bool _ | number _ | text _ | sequence _ | tagged _ _ => cases base <;> rfl

/-- A mapping replaces what is none. -/
lemma overlay_mapping_of_ne {base : Tree} (h : ∀ es, base ≠ .mapping es)
    (fs : List (Tree × Tree)) : base.overlay (.mapping fs) = .mapping fs := by
  cases base with
  | mapping es => exact absurd rfl (h es)
  | null | bool _ | number _ | text _ | sequence _ | tagged _ _ => rfl

/-! ### Paths of keys -/

def valueAt? : List Tree → Tree → Option Tree
  | [],     t           => some t
  | k :: p, .mapping es => (lookup? k es).bind (valueAt? p)
  | _ :: _, _           => none

def keys : Tree → List Tree
  | .mapping es => es.map Prod.fst
  | _           => []

/-- The keys of the mapping at the end of a path of keys, if there is a mapping. -/
def keysAt (p : List Tree) (t : Tree) : List Tree := ((t.valueAt? p).map keys).getD []

/-- Walking down the keys through an overlay meets mappings only, until a key is absent or a value
is null, at the latest at the end. -/
inductive Spares : List Tree → Tree → Prop
  | null (p : List Tree) : Spares p .null
  | absent {k : Tree} (p : List Tree) {fs : List (Tree × Tree)} (h : lookup? k fs = none) :
      Spares (k :: p) (.mapping fs)
  | within {k : Tree} {p : List Tree} {fs : List (Tree × Tree)} {v : Tree}
      (h : lookup? k fs = some v) (hv : Spares p v) : Spares (k :: p) (.mapping fs)

def child : Tree → Tree → Tree
  | .mapping es, k => (lookup? k es).getD .null
  | _,           _ => .null

variable {base upper v w : Tree} {p : List Tree}

lemma keys_of_ne {t : Tree} (h : ∀ es, t ≠ .mapping es) : t.keys = [] := by
  cases t with
  | mapping es => exact absurd rfl (h es)
  | null | bool _ | number _ | text _ | sequence _ | tagged _ _ => rfl

lemma child_of_ne {t : Tree} (h : ∀ es, t ≠ .mapping es) : t.child k = .null := by
  cases t with
  | mapping es => exact absurd rfl (h es)
  | null | bool _ | number _ | text _ | sequence _ | tagged _ _ => rfl

lemma exists_mapping_of_valueAt? {t : Tree} (h : t.valueAt? (k :: p) = some v) :
    ∃ es u, t = .mapping es ∧ lookup? k es = some u ∧ u.valueAt? p = some v := by
  cases t with
  | mapping es =>
    obtain ⟨u, hu, hv⟩ := Option.bind_eq_some_iff.1 h
    exact ⟨es, u, rfl, hu, hv⟩
  | null | bool _ | number _ | text _ | sequence _ | tagged _ _ => simp [valueAt?] at h

lemma valueAt?_child {t : Tree} (h : t.valueAt? (k :: p) = some v) :
    (t.child k).valueAt? p = some v := by
  obtain ⟨es, u, rfl, hu, hv⟩ := exists_mapping_of_valueAt? h
  rw [child, hu]
  exact hv

lemma keysDiffer_of_lookup? (h : (mapping es).KeysDiffer) (hv : lookup? k es = some v) :
    v.KeysDiffer := by
  obtain ⟨l, hmem, -⟩ := exists_mem_of_lookup? hv
  exact ((keysDiffer_mapping.1 h).2 _ hmem).2

lemma KeysDiffer.child {t : Tree} (h : t.KeysDiffer) (k : Tree) : (t.child k).KeysDiffer := by
  cases t with
  | mapping es =>
    rw [Tree.child]
    cases hv : lookup? k es with
    | none => exact trivial
    | some v => exact keysDiffer_of_lookup? h hv
  | null | bool _ | number _ | text _ | sequence _ | tagged _ _ => exact trivial

lemma keysAt_null (p : List Tree) : keysAt p .null = [] := by
  cases p <;> rfl

lemma keysAt_cons (k : Tree) (p : List Tree) (t : Tree) :
    keysAt (k :: p) t = keysAt p (t.child k) := by
  cases t with
  | mapping es =>
    rw [keysAt, valueAt?, Tree.child]
    cases lookup? k es with
    | none => exact (keysAt_null p).symm
    | some v => rfl
  | null | bool _ | number _ | text _ | sequence _ | tagged _ _ => exact (keysAt_null p).symm

/-! ### One step down -/

/-- Under a key of the overlay is its value, laid over the one below. -/
lemma valueAt?_overlay_of_some (hbase : base.KeysDiffer) (hupper : (mapping fs).KeysDiffer)
    (hw : lookup? k fs = some w) :
    (base.overlay (.mapping fs)).valueAt? (k :: p) = ((base.child k).overlay w).valueAt? p := by
  by_cases hbelow : ∃ es, base = .mapping es
  · obtain ⟨es, rfl⟩ := hbelow
    have hkeys : ∀ e ∈ es, e.1.KeysDiffer := fun e he => ((keysDiffer_mapping.1 hbase).2 e he).1
    rw [overlay, valueAt?, lookup?_overlayEntries hkeys hupper, hw, child]
    cases lookup? k es with
    | none => exact congrArg (valueAt? p) (overlay_null_left w).symm
    | some old => rfl
  · rw [overlay_mapping_of_ne (not_exists.1 hbelow), child_of_ne (not_exists.1 hbelow),
      overlay_null_left, valueAt?, hw, Option.bind_some]

/-- Under any other key is what was there below. -/
lemma valueAt?_overlay_of_none (hbase : base.KeysDiffer) (hupper : (mapping fs).KeysDiffer)
    (hnone : lookup? k fs = none) :
    (base.overlay (.mapping fs)).valueAt? (k :: p) = base.valueAt? (k :: p) := by
  by_cases hbelow : ∃ es, base = .mapping es
  · obtain ⟨es, rfl⟩ := hbelow
    have hkeys : ∀ e ∈ es, e.1.KeysDiffer := fun e he => ((keysDiffer_mapping.1 hbase).2 e he).1
    rw [overlay, valueAt?, lookup?_overlayEntries hkeys hupper, hnone, valueAt?]
  · rw [overlay_mapping_of_ne (not_exists.1 hbelow), valueAt?, hnone, Option.bind_none, eq_comm,
      Option.eq_none_iff_forall_ne_some]
    intro v hv
    obtain ⟨es, -, hes, -⟩ := exists_mapping_of_valueAt? hv
    exact hbelow ⟨es, hes⟩

/-! ### Whole paths -/

/-- A value that replaces what is below it is found where it was. -/
lemma valueAt?_overlay_of_leaf (hbase : base.KeysDiffer) (hupper : upper.KeysDiffer)
    (hv : upper.valueAt? p = some v) (hnull : v ≠ .null) (hleaf : ∀ fs, v ≠ .mapping fs) :
    (base.overlay upper).valueAt? p = some v := by
  induction p generalizing base upper with
  | nil =>
    obtain rfl := Option.some.inj hv
    rw [overlay_of_leaf base hnull hleaf, valueAt?]
  | cons k p ih =>
    obtain ⟨fs, w, rfl, hw, hv⟩ := exists_mapping_of_valueAt? hv
    rw [valueAt?_overlay_of_some hbase hupper hw]
    exact ih (hbase.child k) (keysDiffer_of_lookup? hupper hw) hv

/-- What an overlay spares is found where it was. -/
lemma valueAt?_overlay_of_spares (hbase : base.KeysDiffer) (hupper : upper.KeysDiffer)
    (hv : base.valueAt? p = some v) (h : Spares p upper) :
    (base.overlay upper).valueAt? p = some v := by
  induction h generalizing base with
  | null p => rwa [overlay_null_right]
  | absent p hnone => rwa [valueAt?_overlay_of_none hbase hupper hnone]
  | @within k p fs w hw _ ih =>
    rw [valueAt?_overlay_of_some hbase hupper hw]
    exact ih (hbase.child k) (keysDiffer_of_lookup? hupper hw) (valueAt?_child hv)

/-- The keys of a mapping that lies over another tree. -/
lemma keys_overlay {gs : List (Tree × Tree)} (hbase : base.KeysDiffer) (hupper : upper.KeysDiffer)
    (h : base.overlay upper = .mapping gs) :
    gs.map Prod.fst = base.keys ++ upper.keys.filter (isNew base.keys) := by
  by_cases hnull : upper = .null
  · rw [hnull, overlay_null_right] at h
    simp [h, hnull, keys]
  by_cases hmapping : ∃ fs, upper = .mapping fs
  · obtain ⟨fs, rfl⟩ := hmapping
    by_cases hbelow : ∃ es, base = .mapping es
    · obtain ⟨es, rfl⟩ := hbelow
      obtain rfl := mapping.inj h
      exact keys_overlayEntries (fun e he => ((keysDiffer_mapping.1 hbase).2 e he).1) hupper
    · rw [overlay_mapping_of_ne (not_exists.1 hbelow)] at h
      obtain rfl := mapping.inj h
      rw [keys_of_ne (not_exists.1 hbelow), List.nil_append, filter_isNew_nil, keys]
  · rw [overlay_of_leaf base hnull (not_exists.1 hmapping)] at h
    exact absurd ⟨gs, h⟩ hmapping

/-- In every mapping of the result the keys from below come first and keep their order, and the new
ones come behind them in theirs. -/
lemma keys_of_valueAt?_overlay {gs : List (Tree × Tree)} (hbase : base.KeysDiffer)
    (hupper : upper.KeysDiffer) (h : (base.overlay upper).valueAt? p = some (.mapping gs)) :
    gs.map Prod.fst = keysAt p base ++ (keysAt p upper).filter (isNew (keysAt p base)) := by
  induction p generalizing base upper with
  | nil => exact keys_overlay hbase hupper (Option.some.inj h)
  | cons k p ih =>
    by_cases hnull : upper = .null
    · rw [hnull, overlay_null_right] at h
      simp [hnull, keysAt, h, keys, valueAt?]
    by_cases hmapping : ∃ fs, upper = .mapping fs
    · obtain ⟨fs, rfl⟩ := hmapping
      cases hw : lookup? k fs with
      | none =>
        rw [valueAt?_overlay_of_none hbase hupper hw] at h
        simp [keysAt, h, keys, valueAt?, hw]
      | some w =>
        rw [valueAt?_overlay_of_some hbase hupper hw] at h
        rw [keysAt_cons, keysAt_cons, child, hw]
        exact ih (hbase.child k) (keysDiffer_of_lookup? hupper hw) h
    · rw [overlay_of_leaf base hnull (not_exists.1 hmapping)] at h
      obtain ⟨fs, -, hfs, -⟩ := exists_mapping_of_valueAt? h
      exact absurd ⟨fs, hfs⟩ hmapping

/-! ### Laying over again -/

/-- Entries that are there as they would be laid over change nothing. -/
lemma overlayEntries_eq_self {gs : List (Tree × Tree)}
    (h : ∀ e ∈ fs, ∃ v, lookup? e.1 gs = some v ∧ v.overlay e.2 = v) :
    overlayEntries gs fs = gs := by
  induction fs with
  | nil => rfl
  | cons f fs ih =>
    rw [List.forall_mem_cons] at h
    obtain ⟨v, hv, hself⟩ := h.1
    rw [overlayEntries, putWith_eq_self hv hself, ih h.2]

lemma overlay_overlay (hbase : base.KeysDiffer) (hupper : upper.KeysDiffer) :
    (base.overlay upper).overlay upper = base.overlay upper := by
  induction upper using Tree.induction generalizing base with
  | null => rw [overlay_null_right]
  | bool _ | number _ | text _ | sequence _ | tagged _ _ =>
    rw [overlay_of_leaf _ (by simp) (by simp), overlay_of_leaf _ (by simp) (by simp)]
  | mapping fs ih =>
    obtain ⟨hapart, hdiffer⟩ := keysDiffer_mapping.1 hupper
    -- A value that is new was laid over nothing.
    have hself : ∀ f ∈ fs, f.2.overlay f.2 = f.2 := fun f hf => by
      have htwice : (null.overlay f.2).overlay f.2 = null.overlay f.2 :=
        (ih f hf).2 trivial (hdiffer f hf).2
      rwa [overlay_null_left] at htwice
    by_cases hbelow : ∃ es, base = .mapping es
    · obtain ⟨es, rfl⟩ := hbelow
      have hkeys : ∀ e ∈ es, e.1.KeysDiffer := fun e he => ((keysDiffer_mapping.1 hbase).2 e he).1
      rw [overlay, overlay, overlayEntries_eq_self]
      intro f hf
      rw [lookup?_overlayEntries hkeys hupper, lookup?_of_mem hapart hf]
      refine ⟨_, rfl, ?_⟩
      cases hold : lookup? f.1 es with
      | none => exact hself f hf
      | some old => exact (ih f hf).2 (keysDiffer_of_lookup? hbase hold) (hdiffer f hf).2
    · rw [overlay_mapping_of_ne (not_exists.1 hbelow), overlay, overlayEntries_eq_self]
      exact fun f hf => ⟨f.2, lookup?_of_mem hapart hf, hself f hf⟩

/-! ### Laying over keeps keys apart -/

lemma apartKeys_iff :
    ApartKeys es ↔ (es.map Prod.fst).Pairwise fun k l => k.same l = false := by
  rw [ApartKeys, List.pairwise_map]

lemma apartKeys_putWith (h : ApartKeys es) : ApartKeys (putWith k change fresh es) := by
  rw [apartKeys_iff] at h ⊢
  rw [keys_putWith]
  split
  next hnew =>
    refine List.pairwise_append.2 ⟨h, List.pairwise_singleton _ _, fun l hl k' hk' => ?_⟩
    obtain rfl := List.mem_singleton.1 hk'
    simpa using List.all_eq_true.1 hnew l hl
  next => rwa [List.append_nil]

lemma keysDiffer_overlayEntries (hes : (mapping es).KeysDiffer)
    (hfs : ∀ f ∈ fs, f.1.KeysDiffer ∧ f.2.KeysDiffer ∧
      ∀ t : Tree, t.KeysDiffer → (t.overlay f.2).KeysDiffer) :
    (mapping (overlayEntries es fs)).KeysDiffer := by
  induction fs generalizing es with
  | nil => exact hes
  | cons f fs ih =>
    rw [List.forall_mem_cons] at hfs
    obtain ⟨hapart, hdiffer⟩ := keysDiffer_mapping.1 hes
    refine ih (keysDiffer_mapping.2 ⟨apartKeys_putWith hapart, ?_⟩) hfs.2
    exact forall_mem_putWith ⟨hfs.1.1, hfs.1.2.1⟩ fun e he =>
      ⟨hdiffer e he, (hdiffer e he).1, hfs.1.2.2 e.2 (hdiffer e he).2⟩

/-- What is laid over gives no mapping a key twice. -/
lemma KeysDiffer.overlay (hbase : base.KeysDiffer) (hupper : upper.KeysDiffer) :
    (base.overlay upper).KeysDiffer := by
  induction upper using Tree.induction generalizing base with
  | null => rwa [overlay_null_right]
  | bool _ | number _ | text _ | sequence _ | tagged _ _ =>
    rwa [overlay_of_leaf _ (by simp) (by simp)]
  | mapping fs ih =>
    by_cases hbelow : ∃ es, base = .mapping es
    · obtain ⟨es, rfl⟩ := hbelow
      have hdiffer := (keysDiffer_mapping.1 hupper).2
      exact keysDiffer_overlayEntries hbase fun f hf =>
        ⟨(hdiffer f hf).1, (hdiffer f hf).2, fun t ht => (ih f hf).2 ht (hdiffer f hf).2⟩
    · rwa [overlay_mapping_of_ne (not_exists.1 hbelow)]

/-- A tree laid over another one, path by path: its values other than nulls and mappings are in the
result; so is what lies below where it is silent or says null; the keys of each mapping are those
from below and then the new ones, both in their order; and laying it over again changes nothing. -/
theorem overlay_by_paths (hbase : base.KeysDiffer) (hupper : upper.KeysDiffer) :
    (∀ p v, upper.valueAt? p = some v → v ≠ .null → (∀ fs, v ≠ .mapping fs) →
        (base.overlay upper).valueAt? p = some v) ∧
      (∀ p v, base.valueAt? p = some v → Spares p upper →
        (base.overlay upper).valueAt? p = some v) ∧
      (∀ p gs, (base.overlay upper).valueAt? p = some (.mapping gs) →
        gs.map Prod.fst = keysAt p base ++ (keysAt p upper).filter (isNew (keysAt p base))) ∧
      (base.overlay upper).overlay upper = base.overlay upper :=
  ⟨fun _ _ hv hnull hleaf => valueAt?_overlay_of_leaf hbase hupper hv hnull hleaf,
    fun _ _ hv h => valueAt?_overlay_of_spares hbase hupper hv h,
    fun _ _ h => keys_of_valueAt?_overlay hbase hupper h, overlay_overlay hbase hupper⟩

/-- Nested mappings, a null that spares what is below, a new key with a null in it, and a key that
is the same as another one without being equal to it. -/
theorem overlay_by_paths_of_nested :
    let zero (negative : Bool) : Tree := .number (.float (.finite negative 0 0))
    let base : Tree := .mapping
      [(.text "a", .mapping [(zero false, .text "x"), (.text "b", .int 1)]),
        (.text "c", .sequence [])]
    let upper : Tree := .mapping [(.text "d", .mapping [(.text "e", .null)]), (.text "c", .null),
      (.text "a", .mapping [(zero true, .bool true)])]
    base.KeysDiffer ∧ upper.KeysDiffer ∧
      upper.valueAt? [.text "a", zero false] = some (.bool true) ∧ Spares [.text "c"] upper ∧
      (base.overlay upper).valueAt? [.text "a", zero false] = some (.bool true) ∧
      (base.overlay upper).valueAt? [.text "c"] = some (.sequence []) ∧
      (base.overlay upper).overlay upper = base.overlay upper := by
  intro zero base upper
  have hbase : base.KeysDiffer := by
    simp [base, zero, KeysDiffer, EntryKeysDiffer, ItemKeysDiffer, ApartKeys, same, Tree.int]
  have hupper : upper.KeysDiffer := by
    simp [upper, zero, KeysDiffer, EntryKeysDiffer, ApartKeys, same]
  have hvalue : upper.valueAt? [.text "a", zero false] = some (.bool true) := by
    simp [upper, zero, valueAt?, lookup?, same, Number.same, Decimal.Binary64.same,
      Decimal.Binary64.isZero]
  have hspares : Spares [.text "c"] upper :=
    .within (v := .null) (by simp [lookup?, same]) (.null _)
  have hbelow : base.valueAt? [.text "c"] = some (.sequence []) := by
    simp [base, valueAt?, lookup?, same]
  obtain ⟨hleaf, hkept, -, htwice⟩ := overlay_by_paths hbase hupper
  exact ⟨hbase, hupper, hvalue, hspares, hleaf _ _ hvalue (by simp) (by simp),
    hkept _ _ hbelow hspares, htwice⟩

end TwoStage.Yaml.Tree
