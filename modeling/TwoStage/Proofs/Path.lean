import TwoStage.Path
import TwoStage.Proofs.Text.Split

/-!
# Names at the end of a path

A path behind which a name was put ends in that name, whatever stands before it.
-/

namespace TwoStage.Path

open Text

/-- The text is one step of a path down to a name. -/
structure IsName (name : String) : Prop where
  noSlash : '/' ∉ name.toList
  step : step? name.toList = some (.name name.toList)

instance (name : String) : Decidable (IsName name) :=
  decidable_of_iff ('/' ∉ name.toList ∧ step? name.toList = some (.name name.toList))
    ⟨fun h => ⟨h.1, h.2⟩, fun h => ⟨h.1, h.2⟩⟩

def ofNames (names : List String) : Path := ⟨false, names.map String.toList⟩

lemma ofNames_injective : Function.Injective ofNames := fun names names' h => by
  have hsegments : names.map String.toList = names'.map String.toList := (Path.mk.inj h).2
  exact List.map_injective_iff.2 (fun _ _ => String.toList_inj.1) hsegments

lemma IsName.ofString_eq {name : String} (h : IsName name) : ofString name = ofNames [name] := by
  have hstep := h.step
  have hslash := h.noSlash
  change ofChars name.toList = ⟨false, [name.toList]⟩
  generalize name.toList = cs at hstep hslash ⊢
  cases cs with
  | nil => simp [step?] at hstep
  | cons c cs =>
    have hc : c ≠ '/' := fun heq => hslash (heq ▸ List.mem_cons_self)
    rw [ofChars]
    · rw [splitAll_of_notMem hslash]
    · simp
    · intro ds heq
      exact hc (List.cons.inj heq).1

lemma IsName.ne_nil {name : String} (h : IsName name) : name.toList ≠ [] := fun hnil => by
  have hstep := h.step
  simp [hnil, step?] at hstep

lemma joinSegments_cons (s : List Char) (ss : List (List Char)) :
    joinSegments (s :: ss) = s ++ ss.flatMap ('/' :: ·) := by
  induction ss generalizing s with
  | nil => simp [joinSegments]
  | cons t ss ih => rw [joinSegments, ih, List.flatMap_cons, List.cons_append]

/-- The path that a text writes has that text. -/
lemma toChars_ofChars (cs : List Char) : (ofChars cs).toChars = cs := by
  have hjoin (cs : List Char) : joinSegments (splitAll '/' cs) = cs := by
    obtain ⟨s, ss, hsplit⟩ := List.exists_cons_of_ne_nil (splitAll_ne_nil '/' cs)
    rw [hsplit, joinSegments_cons, ← eq_of_splitAll hsplit]
  unfold ofChars
  split
  · rfl
  · simp [toChars, hjoin]
  · simp [toChars, hjoin]

/-- The text of segments ends as the last of them. -/
lemma getLast?_joinSegments (front : List (List Char)) {s : List Char} (hs : s ≠ []) :
    (joinSegments (front ++ [s])).getLast? = s.getLast? := by
  induction front with
  | nil => rfl
  | cons t front ih =>
    obtain ⟨u, us, hus⟩ := List.exists_cons_of_ne_nil (l := front ++ [s]) (by simp)
    have hne : joinSegments (front ++ [s]) ≠ [] := fun hnil => by
      rw [hnil] at ih
      exact hs (List.getLast?_eq_none_iff.1 ih.symm)
    obtain ⟨c, cs, hcs⟩ := List.exists_cons_of_ne_nil hne
    rw [List.cons_append, hus, joinSegments, ← hus, hcs, List.getLast?_append_cons,
      List.getLast?_cons_cons, ← hcs, ih]

/-- A path whose last segment is not empty does not end in a slash. -/
lemma endsOpen_concat {absolute : Bool} {front : List (List Char)} {s : List Char} (hs : s ≠ [])
    (hslash : '/' ∉ s) : endsOpen ⟨absolute, front ++ [s]⟩ = false := by
  have hlast := getLast?_joinSegments front hs
  have hc := List.getLast?_eq_some_getLast hs
  generalize s.getLast hs = c at hc
  have hne : c ≠ '/' := fun heq => hslash (heq ▸ List.mem_of_getLast? hc)
  have hchars : (toChars ⟨absolute, front ++ [s]⟩).getLast? = some c := by
    rw [toChars, List.getLast?_append, hlast, hc]
    rfl
  rw [endsOpen, hchars]
  have hnil : toChars ⟨absolute, front ++ [s]⟩ ≠ [] := fun hnil => by simp [hnil] at hchars
  simp [hnil, hne]

/-- A name is put behind a path that does not end in a slash. -/
lemma child_eq {p : Path} {name : String} (hp : p.endsOpen = false) (h : IsName name) :
    p.child name = ⟨p.absolute, p.segments ++ [name.toList]⟩ := by
  have hne : p.toChars ≠ [] := fun hnil => by simp [endsOpen, hnil] at hp
  rw [child, h.ofString_eq, join]
  simp [ofNames, hne, hp]

lemma endsOpen_ofNames {names : List String} (hne : names ≠ []) (h : ∀ n ∈ names, IsName n) :
    (ofNames names).endsOpen = false := by
  obtain ⟨front, n, rfl⟩ := (List.eq_nil_or_concat names).resolve_left hne
  rw [List.concat_eq_append] at h ⊢
  have hn := h n (by simp)
  rw [ofNames, List.map_append]
  exact endsOpen_concat hn.ne_nil hn.noSlash

lemma child_ofNames {names : List String} {name : String} (hne : names ≠ [])
    (hnames : ∀ n ∈ names, IsName n) (h : IsName name) :
    (ofNames names).child name = ofNames (names ++ [name]) := by
  rw [child_eq (endsOpen_ofNames hne hnames) h]
  simp [ofNames]

/-- The last segment of a path is the name that was put behind it. -/
lemma exists_child_eq (p : Path) :
    ∃ absolute front, ∀ name, IsName name → p.child name = ⟨absolute, front ++ [name.toList]⟩ := by
  by_cases hp : p.toChars = []
  · refine ⟨false, [], fun name h => ?_⟩
    rw [child, h.ofString_eq, join]
    simp [ofNames, hp]
  · refine ⟨p.absolute, if p.endsOpen then p.segments.dropLast else p.segments, fun name h => ?_⟩
    rw [child, h.ofString_eq, join]
    simp [ofNames, hp]

/-! ### Paths that a text writes -/

/-- No segment has a slash, as in every path that is written as a text. -/
def IsParted (p : Path) : Prop := ∀ s ∈ p.segments, '/' ∉ s

lemma isParted_ofString (s : String) : (ofString s).IsParted := by
  intro part hpart
  unfold ofString ofChars at hpart
  split at hpart
  · simp at hpart
  · exact notMem_of_mem_splitAll hpart
  · exact notMem_of_mem_splitAll hpart

lemma IsParted.join {p q : Path} (hp : p.IsParted) (hq : q.IsParted) : (p.join q).IsParted := by
  unfold Path.join
  split
  · exact hq
  split
  · exact hq
  · intro s hs
    rcases List.mem_append.1 hs with hs | hs
    · split at hs
      · exact hp s ((List.dropLast_subset _) hs)
      · exact hp s hs
    · split at hs
      · simp only [List.mem_singleton] at hs
        simp [hs]
      · exact hq s hs

/-- What is put behind a path comes behind all of its segments, or in the place of an empty one at
its end. -/
lemma IsParted.exists_front {p : Path} (h : p.IsParted) :
    ∃ front, (if p.endsOpen then p.segments.dropLast else p.segments) = front ∧
      (p.segments = front ∨ p.segments = front ++ [[]]) := by
  obtain ⟨absolute, segments⟩ := p
  rcases List.eq_nil_or_concat segments with rfl | ⟨front, s, rfl⟩
  · exact ⟨[], by simp, .inl rfl⟩
  · rw [List.concat_eq_append] at h ⊢
    by_cases hs : s = []
    · subst hs
      by_cases hends : endsOpen ⟨absolute, front ++ [[]]⟩ = true
      · exact ⟨front, by simp [hends], .inr rfl⟩
      · exact ⟨front ++ [[]], by simp [hends], .inl rfl⟩
    · rw [endsOpen_concat hs (h s (by simp))]
      exact ⟨front ++ [s], rfl, .inl rfl⟩

/-- The steps of a name behind a path are those of the path and the one to the name. -/
lemma IsParted.exists_child_eq {p : Path} (h : p.IsParted) :
    ∃ front, (p.segments = front ∨ p.segments = front ++ [[]]) ∧ ∀ name, IsName name →
      p.child name = ⟨p.absolute, front ++ [name.toList]⟩ := by
  by_cases hp : p.toChars = []
  · obtain ⟨absolute, segments⟩ := p
    obtain ⟨rfl, hsegments⟩ : absolute = false ∧ (segments = [] ∨ segments = [] ++ [[]]) := by
      rcases segments with - | ⟨s, - | ⟨t, ss⟩⟩ <;> cases absolute <;>
        simp_all [toChars, joinSegments]
    refine ⟨[], hsegments, fun name hname => ?_⟩
    rw [child, hname.ofString_eq, Path.join]
    simp [ofNames, hp]
  · obtain ⟨front, hfront, hsegments⟩ := h.exists_front
    refine ⟨front, hsegments, fun name hname => ?_⟩
    rw [child, hname.ofString_eq, Path.join]
    simp [ofNames, hp, hfront]

/-! ### Names at the end -/

lemma fileName?_child (p : Path) {name : String} (h : IsName name) :
    (p.child name).fileName? = some name.toList := by
  obtain ⟨absolute, front, hchild⟩ := exists_child_eq p
  have heq := hchild name h
  have hlast : (p.child name).components.getLast? = some (.name name.toList) := by
    have hmap : (front ++ [name.toList]).filterMap step? =
        front.filterMap step? ++ [.name name.toList] := by simp [h.step]
    rw [heq, components]
    split
    · rw [hmap, ← List.cons_append, List.getLast?_concat]
    · split
      · rw [hmap, ← List.cons_append, List.getLast?_concat]
      · rw [hmap, List.getLast?_concat]
  rw [fileName?, hlast]

/-- Paths that are the same end in the same name. -/
lemma fileName?_eq_of_same {p q : Path} (h : p.same q = true) : p.fileName? = q.fileName? := by
  rw [fileName?, fileName?, eq_of_beq h]

end TwoStage.Path
