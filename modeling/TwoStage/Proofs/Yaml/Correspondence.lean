import TwoStage.Proofs.Yaml.Strings

/-!
# Trees of the same shape

Two trees correspond when they differ in their strings only, and the strings at the same places are
related. Changing the texts of a tree one by one gives exactly the trees that correspond to it. The
listing of a tree's texts misses none: it holds the strings that the tree contains at any depth,
those below tags included.
-/

namespace TwoStage.Yaml.Tree

/-! ### Strings at any depth -/

/-- The string stands as a value somewhere in the tree. -/
inductive Contains : Tree → String → Prop
  | text (s : String) : Contains (.text s) s
  | item {ts : List Tree} {t : Tree} {s : String} (mem : t ∈ ts) (h : Contains t s) :
      Contains (.sequence ts) s
  | value {es : List (Tree × Tree)} {k v : Tree} {s : String} (mem : (k, v) ∈ es)
      (h : Contains v s) : Contains (.mapping es) s
  | tagged {tag : String} {v : Tree} {s : String} (h : Contains v s) : Contains (.tagged tag v) s

mutual

lemma contains_of_mem_strings (t : Tree) {s : String} (h : s ∈ t.strings) : t.Contains s := by
  match t with
  | .null | .bool _ | .number _ => simp at h
  | .text s' =>
    obtain rfl : s = s' := by simpa using h
    exact .text s
  | .sequence ts =>
    rw [strings_sequence] at h
    obtain ⟨t, ht, hs⟩ := exists_item_contains ts h
    exact .item ht hs
  | .mapping es =>
    rw [strings_mapping] at h
    obtain ⟨k, v, hmem, hs⟩ := exists_value_contains es h
    exact .value hmem hs
  | .tagged _ v =>
    rw [strings_tagged] at h
    exact .tagged (contains_of_mem_strings v h)

lemma exists_item_contains (ts : List Tree) {s : String} (h : s ∈ ts.flatMap strings) :
    ∃ t ∈ ts, t.Contains s := by
  match ts with
  | [] => simp at h
  | t :: ts =>
    rw [List.flatMap_cons, List.mem_append] at h
    rcases h with h | h
    · exact ⟨t, List.mem_cons_self, contains_of_mem_strings t h⟩
    · obtain ⟨u, hu, hs⟩ := exists_item_contains ts h
      exact ⟨u, List.mem_cons_of_mem _ hu, hs⟩

lemma exists_value_contains (es : List (Tree × Tree)) {s : String}
    (h : s ∈ es.flatMap fun e => e.2.strings) : ∃ k v, (k, v) ∈ es ∧ v.Contains s := by
  match es with
  | [] => simp at h
  | (k, v) :: es =>
    rw [List.flatMap_cons, List.mem_append] at h
    rcases h with h | h
    · exact ⟨k, v, List.mem_cons_self, contains_of_mem_strings v h⟩
    · obtain ⟨k', v', hmem, hs⟩ := exists_value_contains es h
      exact ⟨k', v', List.mem_cons_of_mem _ hmem, hs⟩

end

/-- The listing of a tree's texts finds the strings at any depth. -/
lemma mem_strings_iff {t : Tree} {s : String} : s ∈ t.strings ↔ t.Contains s := by
  refine ⟨contains_of_mem_strings t, fun h => ?_⟩
  induction h with
  | text s => simp
  | item mem _ ih => exact strings_sequence _ ▸ List.mem_flatMap.2 ⟨_, mem, ih⟩
  | value mem _ ih => exact strings_mapping _ ▸ List.mem_flatMap.2 ⟨_, mem, ih⟩
  | tagged _ ih => simpa using ih

/-! ### Correspondence -/

mutual

/-- The trees have the same shape, the same keys in the same order and the same scalars but for the
strings, and the strings at the same places are related. -/
inductive Corresponds (R : String → String → Prop) : Tree → Tree → Prop
  | null : Corresponds R .null .null
  | bool (b : Bool) : Corresponds R (.bool b) (.bool b)
  | number (n : Number) : Corresponds R (.number n) (.number n)
  | text {s s' : String} (h : R s s') : Corresponds R (.text s) (.text s')
  | sequence {ts ts' : List Tree} (h : ItemsCorrespond R ts ts') :
      Corresponds R (.sequence ts) (.sequence ts')
  | mapping {es es' : List (Tree × Tree)} (h : EntriesCorrespond R es es') :
      Corresponds R (.mapping es) (.mapping es')
  | tagged (tag : String) {v v' : Tree} (h : Corresponds R v v') :
      Corresponds R (.tagged tag v) (.tagged tag v')

inductive ItemsCorrespond (R : String → String → Prop) : List Tree → List Tree → Prop
  | nil : ItemsCorrespond R [] []
  | cons {t t' : Tree} {ts ts' : List Tree} (head : Corresponds R t t')
      (tail : ItemsCorrespond R ts ts') : ItemsCorrespond R (t :: ts) (t' :: ts')

/-- The entries have the same keys, and their values correspond one by one. -/
inductive EntriesCorrespond (R : String → String → Prop) :
    List (Tree × Tree) → List (Tree × Tree) → Prop
  | nil : EntriesCorrespond R [] []
  | cons (k : Tree) {v v' : Tree} {es es' : List (Tree × Tree)} (head : Corresponds R v v')
      (tail : EntriesCorrespond R es es') : EntriesCorrespond R ((k, v) :: es) ((k, v') :: es')

end

section

variable {R : String → String → Prop}

mutual

/-- A tree corresponds to itself if its strings are related to themselves. -/
lemma Corresponds.of_holds (t : Tree) (h : t.Holds fun s => R s s) : Corresponds R t t := by
  match t with
  | .null => exact .null
  | .bool b => exact .bool b
  | .number n => exact .number n
  | .text s => exact .text (h s (by simp))
  | .sequence ts =>
    exact .sequence (ItemsCorrespond.of_holds ts fun t ht s hs =>
      h s (strings_sequence ts ▸ List.mem_flatMap.2 ⟨t, ht, hs⟩))
  | .mapping es =>
    exact .mapping (EntriesCorrespond.of_holds es fun e he s hs =>
      h s (strings_mapping es ▸ List.mem_flatMap.2 ⟨e, he, hs⟩))
  | .tagged tag v => exact .tagged tag (Corresponds.of_holds v fun s hs => h s (by simpa using hs))

lemma ItemsCorrespond.of_holds (ts : List Tree) (h : ∀ t ∈ ts, t.Holds fun s => R s s) :
    ItemsCorrespond R ts ts := by
  match ts with
  | [] => exact .nil
  | t :: ts =>
    rw [List.forall_mem_cons] at h
    exact .cons (Corresponds.of_holds t h.1) (ItemsCorrespond.of_holds ts h.2)

lemma EntriesCorrespond.of_holds (es : List (Tree × Tree))
    (h : ∀ e ∈ es, e.2.Holds fun s => R s s) : EntriesCorrespond R es es := by
  match es with
  | [] => exact .nil
  | (k, v) :: es =>
    rw [List.forall_mem_cons] at h
    exact .cons k (Corresponds.of_holds v h.1) (EntriesCorrespond.of_holds es h.2)

end

/-- Corresponding entries, one by one. -/
lemma EntriesCorrespond.forall₂ {es es' : List (Tree × Tree)}
    (h : EntriesCorrespond R es es') :
    List.Forall₂ (fun e e' => e'.1 = e.1 ∧ e.2.Corresponds R e'.2) es es' := by
  induction es generalizing es' with
  | nil =>
    cases h
    exact .nil
  | cons e es ih =>
    cases h with
    | cons k head tail => exact .cons ⟨rfl, head⟩ (ih tail)

variable {ε : Type} {f : String → String → Except ε String}

mutual

/-- Changing the texts of a tree gives the trees that correspond to it by the change. -/
lemma mapTextsAt_eq_ok_iff (hf : ∀ p s s', f p s = .ok s' ↔ R s s') (path : String) (t t' : Tree) :
    t.mapTextsAt f path = .ok t' ↔ Corresponds R t t' := by
  match t with
  | .null | .bool _ | .number _ =>
    simp only [mapTextsAt, Except.ok.injEq]
    constructor
    · rintro rfl
      constructor
    · rintro ⟨⟩
      rfl
  | .text s =>
    rw [mapTextsAt, Outcome.map_eq_ok_iff]
    constructor
    · rintro ⟨s', hs, rfl⟩
      exact .text ((hf path s s').1 hs)
    · rintro (_ | _ | _ | ⟨hs⟩)
      exact ⟨_, (hf path s _).2 hs, rfl⟩
  | .sequence ts =>
    rw [mapTextsAt, Outcome.map_eq_ok_iff]
    constructor
    · rintro ⟨ts', hts, rfl⟩
      exact .sequence ((mapItemTextsAt_eq_ok_iff hf path 0 ts ts').1 hts)
    · rintro (_ | _ | _ | _ | ⟨hts⟩)
      exact ⟨_, (mapItemTextsAt_eq_ok_iff hf path 0 ts _).2 hts, rfl⟩
  | .mapping es =>
    rw [mapTextsAt, Outcome.map_eq_ok_iff]
    constructor
    · rintro ⟨es', hes, rfl⟩
      exact .mapping ((mapEntryTextsAt_eq_ok_iff hf path es es').1 hes)
    · rintro (_ | _ | _ | _ | _ | ⟨hes⟩)
      exact ⟨_, (mapEntryTextsAt_eq_ok_iff hf path es _).2 hes, rfl⟩
  | .tagged tag v =>
    rw [mapTextsAt, Outcome.map_eq_ok_iff]
    constructor
    · rintro ⟨v', hv, rfl⟩
      exact .tagged tag ((mapTextsAt_eq_ok_iff hf path v v').1 hv)
    · rintro (_ | _ | _ | _ | _ | _ | ⟨_, hv⟩)
      exact ⟨_, (mapTextsAt_eq_ok_iff hf path v _).2 hv, rfl⟩

lemma mapItemTextsAt_eq_ok_iff (hf : ∀ p s s', f p s = .ok s' ↔ R s s') (path : String) (i : Nat)
    (ts ts' : List Tree) : mapItemTextsAt f path i ts = .ok ts' ↔ ItemsCorrespond R ts ts' := by
  match ts with
  | [] =>
    rw [mapItemTextsAt, Except.ok.injEq]
    constructor
    · rintro rfl
      exact .nil
    · rintro ⟨⟩
      rfl
  | t :: ts =>
    rw [mapItemTextsAt, Outcome.bind_eq_ok_iff]
    constructor
    · rintro ⟨u, hu, h⟩
      obtain ⟨us, hus, h⟩ := Outcome.bind_eq_ok_iff.1 h
      obtain rfl := Outcome.pure_eq_ok_iff.1 h
      exact .cons ((mapTextsAt_eq_ok_iff hf _ t u).1 hu)
        ((mapItemTextsAt_eq_ok_iff hf path (i + 1) ts us).1 hus)
    · rintro (_ | ⟨hu, hus⟩)
      exact ⟨_, (mapTextsAt_eq_ok_iff hf _ t _).2 hu, Outcome.bind_eq_ok_iff.2
        ⟨_, (mapItemTextsAt_eq_ok_iff hf path (i + 1) ts _).2 hus, rfl⟩⟩

lemma mapEntryTextsAt_eq_ok_iff (hf : ∀ p s s', f p s = .ok s' ↔ R s s') (path : String)
    (es es' : List (Tree × Tree)) :
    mapEntryTextsAt f path es = .ok es' ↔ EntriesCorrespond R es es' := by
  match es with
  | [] =>
    rw [mapEntryTextsAt, Except.ok.injEq]
    constructor
    · rintro rfl
      exact .nil
    · rintro ⟨⟩
      rfl
  | (k, v) :: es =>
    rw [mapEntryTextsAt, Outcome.bind_eq_ok_iff]
    constructor
    · rintro ⟨u, hu, h⟩
      obtain ⟨us, hus, h⟩ := Outcome.bind_eq_ok_iff.1 h
      obtain rfl := Outcome.pure_eq_ok_iff.1 h
      exact .cons k ((mapTextsAt_eq_ok_iff hf _ v u).1 hu)
        ((mapEntryTextsAt_eq_ok_iff hf path es us).1 hus)
    · rintro (_ | ⟨_, hu, hus⟩)
      exact ⟨_, (mapTextsAt_eq_ok_iff hf _ v _).2 hu, Outcome.bind_eq_ok_iff.2
        ⟨_, (mapEntryTextsAt_eq_ok_iff hf path es _).2 hus, rfl⟩⟩

end

/-- A change that succeeds gives a tree that corresponds to the changed one. -/
lemma mapTexts_eq_ok_iff (hf : ∀ p s s', f p s = .ok s' ↔ R s s') {t t' : Tree} :
    t.mapTexts f = .ok t' ↔ Corresponds R t t' :=
  mapTextsAt_eq_ok_iff hf "" t t'

end

/-! ### Where a change fails -/

section

variable {ε : Type} {f : String → String → Except ε String}

mutual

/-- A change of the texts of a tree goes along the listing of them. -/
lemma map_mapTextsAt (path : String) (t : Tree) :
    (t.mapTextsAt f path).map (fun _ => ()) =
      (t.textsAt path).forM fun p => (f p.1 p.2).map fun _ => () := by
  match t with
  | .null | .bool _ | .number _ => rfl
  | .text s =>
    rw [mapTextsAt, textsAt]
    change _ = ((f path s).map fun _ => ()) >>= fun _ => pure ()
    cases f path s <;> rfl
  | .sequence ts =>
    rw [mapTextsAt, textsAt, ← map_mapItemTextsAt path 0 ts]
    cases mapItemTextsAt f path 0 ts <;> rfl
  | .mapping es =>
    rw [mapTextsAt, textsAt, ← map_mapEntryTextsAt path es]
    cases mapEntryTextsAt f path es <;> rfl
  | .tagged _ v =>
    rw [mapTextsAt, textsAt, ← map_mapTextsAt path v]
    cases v.mapTextsAt f path <;> rfl

lemma map_mapItemTextsAt (path : String) (i : Nat) (ts : List Tree) :
    (mapItemTextsAt f path i ts).map (fun _ => ()) =
      (itemTextsAt path i ts).forM fun p => (f p.1 p.2).map fun _ => () := by
  match ts with
  | [] => rfl
  | t :: ts =>
    rw [mapItemTextsAt, itemTextsAt]
    refine Eq.trans ?_ List.forM_append.symm
    refine Eq.trans ?_ (congrArg₂ (fun x y => x >>= fun _ => y)
      (map_mapTextsAt (FieldPath.item path i) t) (map_mapItemTextsAt path (i + 1) ts))
    cases t.mapTextsAt f (FieldPath.item path i) with
    | error e => rfl
    | ok u => cases mapItemTextsAt f path (i + 1) ts <;> rfl

lemma map_mapEntryTextsAt (path : String) (es : List (Tree × Tree)) :
    (mapEntryTextsAt f path es).map (fun _ => ()) =
      (entryTextsAt path es).forM fun p => (f p.1 p.2).map fun _ => () := by
  match es with
  | [] => rfl
  | (k, v) :: es =>
    rw [mapEntryTextsAt, entryTextsAt]
    refine Eq.trans ?_ List.forM_append.symm
    refine Eq.trans ?_ (congrArg₂ (fun x y => x >>= fun _ => y)
      (map_mapTextsAt (FieldPath.child path (FieldPath.label k)) v) (map_mapEntryTextsAt path es))
    cases v.mapTextsAt f (FieldPath.child path (FieldPath.label k)) with
    | error e => rfl
    | ok u => cases mapEntryTextsAt f path es <;> rfl

end

/-- A change of texts succeeds exactly if that of each text does. -/
lemma exists_mapTexts_eq_ok_iff {t : Tree} :
    (∃ t', t.mapTexts f = .ok t') ↔ ∀ p ∈ t.textsOf, ∃ s, f p.1 p.2 = .ok s := by
  have hmap := map_mapTextsAt (f := f) "" t
  constructor
  · rintro ⟨t', h⟩
    rw [mapTexts] at h
    rw [h] at hmap
    intro p hp
    obtain ⟨s, hs, -⟩ := Outcome.map_eq_ok_iff.1 (Outcome.forM_eq_ok_iff.1 hmap.symm p hp)
    exact ⟨s, hs⟩
  · intro h
    have hpass : (t.textsOf.forM fun p => (f p.1 p.2).map fun _ => ()) = .ok () :=
      Outcome.forM_eq_ok_iff.2 fun p hp => by
        obtain ⟨s, hs⟩ := h p hp
        rw [hs]
        rfl
    obtain ⟨t', ht', -⟩ := Outcome.map_eq_ok_iff.1 (hmap.trans hpass)
    exact ⟨t', ht'⟩

/-- A change of texts fails with the error of the first text that cannot be changed. -/
lemma mapTexts_eq_error_iff {t : Tree} {e : ε} :
    t.mapTexts f = .error e ↔ ∃ before path s after, t.textsOf = before ++ (path, s) :: after ∧
      (∀ p ∈ before, ∃ s, f p.1 p.2 = .ok s) ∧ f path s = .error e := by
  have hmap := map_mapTextsAt (f := f) "" t
  rw [mapTexts, ← Outcome.map_eq_error_iff (f := fun _ => ()), hmap, Outcome.forM_eq_error_iff]
  simp only [Outcome.map_eq_error_iff, Outcome.map_eq_ok_iff, and_true]
  exact ⟨fun ⟨before, p, after, h⟩ => ⟨before, p.1, p.2, after, h⟩,
    fun ⟨before, path, s, after, h⟩ => ⟨before, (path, s), after, h⟩⟩

end

end TwoStage.Yaml.Tree
