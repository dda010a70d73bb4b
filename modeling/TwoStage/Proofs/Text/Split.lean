import Mathlib.Data.List.Basic
import Mathlib.Data.List.TakeWhile
import TwoStage.Text.Blank
import TwoStage.Text.Split

/-!
# Stretches of a text

Where a text is cut, what the ends of a text lose to trimming, and which stretches (`<:+:`) of a
text that was put together stood in one of its parts.
-/

namespace TwoStage.Text

/-! ### Stretches across a seam -/

/-- A stretch without the character at a seam stands on one side of it. -/
lemma infix_append_cons_iff {w xs ys : List Char} {c : Char} (hc : c ∉ w) :
    w <:+: xs ++ c :: ys ↔ w <:+: xs ∨ w <:+: ys := by
  constructor
  · rintro ⟨s, t, h⟩
    rw [List.append_assoc] at h
    -- where the stretch ends: in front of the seam, or behind it and then begins there or goes over
    -- it
    rcases List.append_eq_append_iff.1 h with ⟨u, rfl, hu⟩ | ⟨u, rfl, hu⟩
    · rcases List.append_eq_append_iff.1 hu with ⟨v, hv, hv'⟩ | ⟨v, rfl, hv'⟩
      · exact .inl ⟨s, v, by rw [hv, List.append_assoc]⟩
      · cases v with
        | nil => exact .inl ⟨s, [], by simp⟩
        | cons d v =>
          simp only [List.cons_append, List.cons.injEq] at hv'
          exact absurd (by simp [hv'.1]) hc
    · cases u with
      | nil =>
        simp only [List.nil_append] at hu
        cases w with
        | nil => exact .inl (List.nil_infix)
        | cons d w =>
          simp only [List.cons_append, List.cons.injEq] at hu
          exact absurd (by simp [hu.1]) hc
      | cons d u =>
        simp only [List.cons_append, List.cons.injEq] at hu
        exact .inr ⟨u, t, by rw [hu.2, List.append_assoc]⟩
  · rintro (h | h)
    · exact h.trans ⟨[], c :: ys, by simp⟩
    · exact h.trans ⟨xs ++ [c], [], by simp⟩

/-- A stretch that starts with a character which the first part lacks stands in the second. -/
lemma infix_of_infix_append {w xs ys : List Char} {c : Char} (hx : c ∉ xs)
    (h : c :: w <:+: xs ++ ys) : c :: w <:+: ys := by
  induction xs with
  | nil => exact h
  | cons x xs ih =>
    rw [List.mem_cons, not_or] at hx
    rcases List.infix_cons_iff.1 h with h | h
    · exact absurd (List.cons_prefix_cons.1 h).1 hx.1
    · exact ih hx.2 h

/-- A character that the parts around it lack stands in the middle part. -/
lemma exists_of_append_eq {xs ys zs us vs : List Char} {c : Char} (hx : c ∉ xs) (hz : c ∉ zs)
    (h : xs ++ ys ++ zs = us ++ c :: vs) :
    ∃ front back, ys = front ++ c :: back ∧ us = xs ++ front ∧ vs = back ++ zs := by
  rw [List.append_assoc] at h
  -- the character stands behind the first part, since it is none of its own, and then in front of
  -- the last
  rcases List.append_eq_append_iff.1 h with ⟨front, rfl, hrest⟩ | ⟨more, rfl, hrest⟩
  · rcases List.append_eq_append_iff.1 hrest with ⟨more, rfl, rfl⟩ | ⟨back, rfl, hback⟩
    · exact absurd (by simp) hz
    · cases back with
      | nil =>
        obtain rfl : c :: vs = zs := hback
        exact absurd List.mem_cons_self hz
      | cons d back =>
        obtain ⟨rfl, rfl⟩ := List.cons.inj hback
        exact ⟨front, back, rfl, rfl, rfl⟩
  · cases more with
    | nil =>
      cases ys with
      | nil =>
        obtain rfl : c :: vs = zs := hrest
        exact absurd List.mem_cons_self hz
      | cons d ys =>
        obtain ⟨rfl, rfl⟩ := List.cons.inj hrest
        exact ⟨[], ys, rfl, by simp, rfl⟩
    | cons d more =>
      obtain ⟨rfl, -⟩ := List.cons.inj hrest
      exact absurd (by simp) hx

/-- The text up to a first occurrence is a start of the text up to any other one. -/
lemma prefix_of_append_cons_eq {p q ys zs : List Char} {c : Char} (hp : c ∉ p)
    (h : p ++ c :: ys = q ++ c :: zs) : p ++ [c] <+: q ++ [c] := by
  rcases List.append_eq_append_iff.1 h with ⟨more, rfl, hrest⟩ | ⟨more, rfl, hrest⟩
  · cases more with
    | nil => exact ⟨[], by simp⟩
    | cons d more =>
      obtain ⟨rfl, -⟩ := List.cons.inj hrest
      exact ⟨more ++ [c], by simp⟩
  · cases more with
    | nil => exact ⟨[], by simp⟩
    | cons d more =>
      obtain ⟨rfl, -⟩ := List.cons.inj hrest
      exact absurd (by simp) hp

/-! ### The first occurrence of a separator -/

lemma infix_of_prefix_cons {sep xs ys : List Char} {c : Char} (h : sep <+: c :: (xs ++ sep ++ ys)) :
    sep <:+: c :: (xs ++ sep.dropLast) := by
  refine (List.prefix_of_prefix_length_le h ?_ ?_).isInfix
  · rw [List.append_assoc, List.cons_prefix_cons, List.prefix_append_right_inj]
    exact ⟨rfl, (List.dropLast_prefix sep).trans (List.prefix_append sep ys)⟩
  · simp only [List.length_cons, List.length_append, List.length_dropLast]
    omega

/-- Cutting at the first occurrence: the separator does not occur any earlier. -/
lemma cutFirst?_eq_some_iff {sep cs before after : List Char} (hsep : sep ≠ []) :
    cutFirst? sep cs = some (before, after) ↔
      cs = before ++ sep ++ after ∧ ¬ sep <:+: before ++ sep.dropLast := by
  -- nothing stands in front of a separator that the text starts with
  have hlast : ¬ sep <:+: sep.dropLast := fun h => by
    have hlen := h.length_le
    have hpos := List.length_pos_iff.2 hsep
    rw [List.length_dropLast] at hlen
    omega
  induction cs generalizing before with
  | nil => simp [cutFirst?, hsep]
  | cons c cs ih =>
    unfold cutFirst?
    split
    next hp =>
      rw [List.isPrefixOf_iff_prefix] at hp
      constructor
      · intro h
        simp only [Option.some.injEq, Prod.mk.injEq] at h
        obtain ⟨rfl, rfl⟩ := h
        exact ⟨by simpa using (List.prefix_iff_eq_append.1 hp).symm, by simpa using hlast⟩
      · rintro ⟨heq, hno⟩
        cases before with
        | nil => simp [heq]
        | cons d before =>
          rw [heq] at hp
          exact absurd (infix_of_prefix_cons hp) hno
    next hp =>
      rw [List.isPrefixOf_iff_prefix] at hp
      cases before with
      | nil =>
        simp only [Option.map_eq_some_iff, Prod.mk.injEq, reduceCtorEq, false_and, and_false,
          exists_false, false_iff, not_and]
        intro heq
        exact absurd (by simp [heq]) hp
      | cons d before =>
        simp only [Option.map_eq_some_iff, Prod.mk.injEq, List.cons.injEq, List.cons_append]
        constructor
        · rintro ⟨⟨b, a⟩, hcut, ⟨rfl, rfl⟩, rfl⟩
          obtain ⟨rfl, hno⟩ := ih.1 hcut
          refine ⟨⟨rfl, rfl⟩, fun h => ?_⟩
          -- an occurrence that ends too early is at the head, where there is none, or in the rest
          rcases List.infix_cons_iff.1 h with h | h
          · refine hp (h.trans ?_)
            rw [List.append_assoc, List.cons_prefix_cons, List.prefix_append_right_inj]
            exact ⟨rfl, (List.dropLast_prefix sep).trans (List.prefix_append sep a)⟩
          · exact hno h
        · rintro ⟨⟨rfl, rfl⟩, hno⟩
          exact ⟨(before, after),
            ih.2 ⟨rfl, fun h => hno (h.trans (List.infix_cons (List.infix_refl _)))⟩,
            ⟨rfl, rfl⟩, rfl⟩

/-- There is no cut only where the separator does not occur. -/
lemma cutFirst?_eq_none_iff {sep cs : List Char} (hsep : sep ≠ []) :
    cutFirst? sep cs = none ↔ ¬ sep <:+: cs := by
  induction cs with
  | nil => simp [cutFirst?, hsep]
  | cons c cs ih =>
    unfold cutFirst?
    split
    next hp =>
      rw [List.isPrefixOf_iff_prefix] at hp
      simp [hp.isInfix]
    next hp =>
      rw [List.isPrefixOf_iff_prefix] at hp
      simp [List.infix_cons_iff, hp, ih]

/-! ### Cutting at a character -/

lemma cutAt?_append {p : Char → Bool} {c : Char} {xs ys : List Char} (hc : p c = true)
    (hxs : ∀ x ∈ xs, p x = false) : cutAt? p (xs ++ c :: ys) = some (xs, ys) := by
  induction xs with
  | nil => simp [cutAt?, hc]
  | cons x xs ih =>
    rw [List.forall_mem_cons] at hxs
    simp [cutAt?, hxs.1, ih hxs.2]

lemma eq_of_cutAt? {p : Char → Bool} {cs before after : List Char}
    (h : cutAt? p cs = some (before, after)) : ∃ c, p c = true ∧ cs = before ++ c :: after := by
  induction cs generalizing before with
  | nil => simp [cutAt?] at h
  | cons c cs ih =>
    unfold cutAt? at h
    split at h
    next hc =>
      simp only [Option.some.injEq, Prod.mk.injEq] at h
      obtain ⟨rfl, rfl⟩ := h
      exact ⟨c, hc, rfl⟩
    next =>
      obtain ⟨⟨b, a⟩, hb, heq⟩ := Option.map_eq_some_iff.1 h
      simp only [Prod.mk.injEq] at heq
      obtain ⟨rfl, rfl⟩ := heq
      obtain ⟨d, hd, rfl⟩ := ih hb
      exact ⟨d, hd, rfl⟩

/-- What stands before a cut is not of the class that is cut at. -/
lemma forall_of_cutAt? {p : Char → Bool} {cs before after : List Char}
    (h : cutAt? p cs = some (before, after)) : ∀ c ∈ before, p c = false := by
  induction cs generalizing before after with
  | nil => simp [cutAt?] at h
  | cons c cs ih =>
    unfold cutAt? at h
    split at h
    next =>
      obtain ⟨rfl, -⟩ := Prod.mk.inj (Option.some.inj h)
      simp
    next hc =>
      obtain ⟨⟨b, a⟩, hb, heq⟩ := Option.map_eq_some_iff.1 h
      obtain ⟨rfl, rfl⟩ := Prod.mk.inj heq
      exact List.forall_mem_cons.2 ⟨eq_false_of_ne_true hc, ih hb⟩

lemma forall_of_cutAt?_eq_none {p : Char → Bool} {cs : List Char} (h : cutAt? p cs = none) :
    ∀ c ∈ cs, p c = false := by
  induction cs with
  | nil => simp
  | cons c cs ih =>
    unfold cutAt? at h
    split at h
    next => simp at h
    next hc =>
      exact List.forall_mem_cons.2
        ⟨eq_false_of_ne_true hc, ih (Option.map_eq_none_iff.1 h)⟩

lemma of_cutLast?_eq_none {p : Char → Bool} {cs : List Char} (h : cutLast? p cs = none) :
    ∀ d ∈ cs, p d = false := by
  induction cs with
  | nil => simp
  | cons c cs ih =>
    unfold cutLast? at h
    cases hrec : cutLast? p cs with
    | some pair => simp [hrec] at h
    | none =>
      simp only [hrec, ite_eq_right_iff, reduceCtorEq, imp_false, Bool.not_eq_true] at h
      exact List.forall_mem_cons.2 ⟨h, ih hrec⟩

lemma eq_of_cutLast? {p : Char → Bool} {cs before after : List Char}
    (h : cutLast? p cs = some (before, after)) :
    (∃ c, p c = true ∧ cs = before ++ c :: after) ∧ ∀ d ∈ after, p d = false := by
  induction cs generalizing before after with
  | nil => simp [cutLast?] at h
  | cons c cs ih =>
    unfold cutLast? at h
    cases hrec : cutLast? p cs with
    | some pair =>
      simp only [hrec, Option.some.injEq, Prod.mk.injEq] at h
      obtain ⟨rfl, rfl⟩ := h
      obtain ⟨⟨d, hd, heq⟩, hafter⟩ := ih hrec
      exact ⟨⟨d, hd, by rw [heq]; rfl⟩, hafter⟩
    | none =>
      simp only [hrec] at h
      split at h
      next hc =>
        simp only [Option.some.injEq, Prod.mk.injEq] at h
        obtain ⟨rfl, rfl⟩ := h
        exact ⟨⟨c, hc, rfl⟩, of_cutLast?_eq_none hrec⟩
      next => simp at h

lemma cutLast?_eq_none {p : Char → Bool} {cs : List Char} (h : ∀ c ∈ cs, p c = false) :
    cutLast? p cs = none := by
  induction cs with
  | nil => rfl
  | cons c cs ih =>
    rw [List.forall_mem_cons] at h
    simp [cutLast?, ih h.2, h.1]

lemma cutLast?_append {p : Char → Bool} {c : Char} {xs ys : List Char} (hc : p c = true)
    (hys : ∀ y ∈ ys, p y = false) : cutLast? p (xs ++ c :: ys) = some (xs, ys) := by
  induction xs with
  | nil => simp [cutLast?, cutLast?_eq_none hys, hc]
  | cons x xs ih => simp [cutLast?, ih]

/-! ### Cutting at every copy of a character -/

lemma splitAll_ne_nil (sep : Char) (cs : List Char) : splitAll sep cs ≠ [] := by
  cases cs with
  | nil => simp [splitAll]
  | cons c cs =>
    unfold splitAll
    split
    · simp
    · split <;> simp

/-- The parts and the separators between them make up the text. -/
lemma eq_of_splitAll {sep : Char} {cs part : List Char} {parts : List (List Char)}
    (h : splitAll sep cs = part :: parts) : cs = part ++ parts.flatMap (sep :: ·) := by
  induction cs generalizing part parts with
  | nil =>
    obtain ⟨rfl, rfl⟩ := List.cons.inj h
    rfl
  | cons c cs ih =>
    unfold splitAll at h
    cases hrec : splitAll sep cs with
    | nil => exact absurd hrec (splitAll_ne_nil sep cs)
    | cons p ps =>
      rw [hrec] at h
      split at h
      next hc =>
        obtain ⟨rfl, rfl⟩ := List.cons.inj h
        simp [hc, ih hrec]
      next =>
        obtain ⟨rfl, rfl⟩ := List.cons.inj h
        rw [ih hrec]
        rfl

/-- The separator stands in no stretch. -/
lemma notMem_of_mem_splitAll {sep : Char} {cs part : List Char} (h : part ∈ splitAll sep cs) :
    sep ∉ part := by
  induction cs generalizing part with
  | nil => simp_all [splitAll]
  | cons c cs ih =>
    unfold splitAll at h
    split at h
    next =>
      rcases List.mem_cons.1 h with rfl | h
      · simp
      · exact ih h
    next hc =>
      split at h
      next first parts hsplit =>
        rw [hsplit] at ih
        rcases List.mem_cons.1 h with rfl | h
        · simpa [Ne.symm hc] using ih List.mem_cons_self
        · exact ih (List.mem_cons_of_mem _ h)
      next hsplit => exact absurd hsplit (splitAll_ne_nil sep cs)

lemma splitAll_of_notMem {sep : Char} {cs : List Char} (h : sep ∉ cs) : splitAll sep cs = [cs] := by
  induction cs with
  | nil => rfl
  | cons c cs ih =>
    rw [List.mem_cons, not_or] at h
    rw [splitAll, if_neg (Ne.symm h.1), ih h.2]

lemma splitAll_append_cons {sep : Char} {xs ys : List Char} (h : sep ∉ xs) :
    splitAll sep (xs ++ sep :: ys) = xs :: splitAll sep ys := by
  induction xs with
  | nil => simp [splitAll]
  | cons x xs ih =>
    rw [List.mem_cons, not_or] at h
    rw [List.cons_append, splitAll, if_neg (Ne.symm h.1), ih h.2]

/-- What stands around a separator is split on its own. -/
lemma splitAll_append (sep : Char) (xs ys : List Char) :
    splitAll sep (xs ++ sep :: ys) = splitAll sep xs ++ splitAll sep ys := by
  induction xs with
  | nil => simp [splitAll]
  | cons x xs ih =>
    obtain ⟨part, parts, hsplit⟩ := List.exists_cons_of_ne_nil (splitAll_ne_nil sep xs)
    rw [List.cons_append, splitAll, splitAll, ih, hsplit]
    split <;> rfl

/-- Texts with separators between them are split one by one. -/
lemma splitAll_flatMap {sep : Char} (part : List Char) (parts : List (List Char)) :
    splitAll sep (part ++ parts.flatMap (sep :: ·)) =
      splitAll sep part ++ parts.flatMap (splitAll sep) := by
  induction parts generalizing part with
  | nil => simp
  | cons p ps ih =>
    rw [List.flatMap_cons, List.cons_append, splitAll_append, ih p, List.flatMap_cons]

/-- Parts without the separator are found again. -/
lemma splitAll_append_flatMap {sep : Char} (part : List Char) {parts : List (List Char)}
    (hpart : sep ∉ part) (hparts : ∀ p ∈ parts, sep ∉ p) :
    splitAll sep (part ++ parts.flatMap (sep :: ·)) = part :: parts := by
  have hkept : parts.flatMap (splitAll sep) = parts := by
    rw [List.flatMap_congr fun p hp => splitAll_of_notMem (hparts p hp), List.flatMap_singleton']
  rw [splitAll_flatMap, splitAll_of_notMem hpart, hkept, List.singleton_append]

/-- What stands around a text makes no more parts: those of the whole are parts of the text, or they
take in all that stands on one side of it. -/
lemma mem_splitAll_around {sep : Char} {front cs back part : List Char} (hfront : sep ∉ front)
    (hback : sep ∉ back) (h : part ∈ splitAll sep (front ++ cs ++ back)) :
    part ∈ splitAll sep cs ∨ front <+: part ∨ back <:+ part := by
  obtain ⟨first, parts, hsplit⟩ := List.exists_cons_of_ne_nil (splitAll_ne_nil sep cs)
  have hcs := eq_of_splitAll hsplit
  have hno : ∀ p ∈ first :: parts, sep ∉ p := fun p hp => notMem_of_mem_splitAll (hsplit ▸ hp)
  rw [List.forall_mem_cons] at hno
  have hfirst : sep ∉ front ++ first := by simp [hfront, hno.1]
  -- the first part has the front before it and the last the back behind it; there may be only one
  rcases List.eq_nil_or_concat' parts with rfl | ⟨parts, last, rfl⟩
  · have hwhole : part = front ++ cs ++ back := by
      rw [List.flatMap_nil, List.append_nil] at hcs
      rwa [splitAll_of_notMem (by simp [hcs, hfront, hno.1, hback]), List.mem_singleton] at h
    exact .inr (.inl ⟨cs ++ back, by rw [hwhole, List.append_assoc]⟩)
  · rw [List.forall_mem_append, List.forall_mem_singleton] at hno
    have hwhole : front ++ cs ++ back =
        (front ++ first) ++ (parts ++ [last ++ back]).flatMap (sep :: ·) := by
      simp [hcs]
    have hparts : ∀ p ∈ parts ++ [last ++ back], sep ∉ p := by
      rw [List.forall_mem_append, List.forall_mem_singleton]
      exact ⟨hno.2.1, by simp [hno.2.2, hback]⟩
    rw [hwhole, splitAll_append_flatMap _ hfirst hparts, List.mem_cons, List.mem_append,
      List.mem_singleton] at h
    rcases h with rfl | h | rfl
    · exact .inr (.inl (List.prefix_append front first))
    · exact .inl (hsplit ▸ List.mem_cons_of_mem _ (List.mem_append_left _ h))
    · exact .inr (.inr (List.suffix_append last back))

lemma mem_of_mem_splitAll {sep c : Char} {cs part : List Char} (hpart : part ∈ splitAll sep cs)
    (hc : c ∈ part) : c ∈ cs := by
  obtain ⟨first, parts, hsplit⟩ := List.exists_cons_of_ne_nil (splitAll_ne_nil sep cs)
  rw [eq_of_splitAll hsplit]
  rw [hsplit] at hpart
  rcases List.mem_cons.1 hpart with rfl | hpart
  · exact List.mem_append_left _ hc
  · exact List.mem_append_right _ (List.mem_flatMap.2 ⟨part, hpart, List.mem_cons_of_mem _ hc⟩)

lemma split_of_notMem {sep : Char} {s : String} (h : sep ∉ s.toList) : split sep s = [s] := by
  rw [split, splitAll_of_notMem h]
  simp

/-- A text without a character has no part with it. -/
lemma notMem_split {sep c : Char} {s part : String} (hs : c ∉ s.toList) (hpart : c ∈ part.toList) :
    part ∉ split sep s := by
  intro hmem
  obtain ⟨cs, hcs, rfl⟩ := List.mem_map.1 hmem
  rw [String.toList_ofList] at hpart
  exact hs (mem_of_mem_splitAll hcs hpart)

/-- Lines that are written one behind the other, each with a line end, are found again. -/
lemma split_join_lines {ls : List String} (h : ∀ l ∈ ls, '\n' ∉ l.toList) :
    split '\n' (String.join (ls.map fun l => l ++ "\n")) = ls ++ [""] := by
  induction ls with
  | nil => rfl
  | cons l ls ih =>
    rw [List.forall_mem_cons] at h
    have hchars : (String.join ((l :: ls).map fun l => l ++ "\n")).toList =
        l.toList ++ '\n' :: (String.join (ls.map fun l => l ++ "\n")).toList := by
      simp [String.toList_append, String.toList_join]
    have hrest := ih h.2
    rw [split] at hrest ⊢
    rw [hchars, splitAll_append_cons h.1, List.map_cons, String.ofList_toList, hrest,
      List.cons_append]

lemma intercalate_eq {sep : Char} (part : List Char) (parts : List (List Char)) :
    [sep].intercalate (part :: parts) = part ++ parts.flatMap (sep :: ·) := by
  induction parts generalizing part with
  | nil => simp
  | cons next parts ih => simp [List.intercalate_cons_cons, ih]

/-! ### The ends of a text -/

lemma trimLeft_suffix (cs : List Char) : trimLeft cs <:+ cs := List.dropWhile_suffix _

lemma trimRight_isPrefix (cs : List Char) : trimRight cs <+: cs := by
  rw [← List.reverse_suffix, trimRight, List.reverse_reverse]
  exact List.dropWhile_suffix _

lemma trimBoth_isInfix (cs : List Char) : trimBoth cs <:+: cs :=
  (trimRight_isPrefix _).isInfix.trans (trimLeft_suffix cs).isInfix

lemma stripChar_isInfix (c : Char) (cs : List Char) : stripChar c cs <:+: cs := by
  refine List.IsInfix.trans ?_ (List.dropWhile_suffix (· == c)).isInfix
  rw [stripChar, ← List.reverse_infix, List.reverse_reverse]
  exact (List.dropWhile_suffix _).isInfix

/-- What is dropped from the start of a text is of the class that is dropped. -/
lemma mem_dropWhile_of_not {p : Char → Bool} {cs : List Char} {c : Char} (hmem : c ∈ cs)
    (hc : p c = false) : c ∈ cs.dropWhile p := by
  rw [← List.takeWhile_append_dropWhile (p := p) (l := cs), List.mem_append] at hmem
  rcases hmem with hmem | hmem
  · exact absurd (List.mem_takeWhile_imp hmem) (by simp [hc])
  · exact hmem

lemma mem_stripChar {cs : List Char} {c d : Char} (hmem : d ∈ cs) (hne : d ≠ c) :
    d ∈ stripChar c cs := by
  have hd : (d == c) = false := by simpa using hne
  rw [stripChar, List.mem_reverse]
  exact mem_dropWhile_of_not (List.mem_reverse.2 (mem_dropWhile_of_not hmem hd)) hd

lemma mem_trimBoth {cs : List Char} {c : Char} (hmem : c ∈ cs) (hc : isBlank c = false) :
    c ∈ trimBoth cs := by
  rw [trimBoth, trimRight, List.mem_reverse]
  exact mem_dropWhile_of_not (List.mem_reverse.2 (mem_dropWhile_of_not hmem hc)) hc

/-- What is blank throughout has no other character. -/
lemma notMem_of_trimBoth_eq_nil {cs : List Char} {c : Char} (h : trimBoth cs = [])
    (hc : isBlank c = false) : c ∉ cs :=
  fun hmem => absurd (h ▸ mem_trimBoth hmem hc) List.not_mem_nil

/-- A text without the character loses nothing when it is dropped at the ends. -/
lemma stripChar_eq_self {c : Char} {cs : List Char} (h : c ∉ cs) : stripChar c cs = cs := by
  have hdrop {ds : List Char} (hds : c ∉ ds) : ds.dropWhile (· == c) = ds := by
    cases ds with
    | nil => rfl
    | cons d ds =>
      rw [List.mem_cons, not_or] at hds
      exact List.dropWhile_cons_of_neg (by simpa using Ne.symm hds.1)
  rw [stripChar, hdrop h, hdrop (by simpa using h), List.reverse_reverse]

/-- What is left when a character is dropped at the ends does not begin with it. -/
lemma head?_stripChar_ne (c : Char) (cs : List Char) : (stripChar c cs).head? ≠ some c := by
  intro h
  have hleft := List.head?_dropWhile_not (· == c) cs
  obtain ⟨bs, hbs⟩ : stripChar c cs <+: cs.dropWhile (· == c) := by
    rw [← List.reverse_suffix, stripChar, List.reverse_reverse]
    exact List.dropWhile_suffix _
  cases hstrip : stripChar c cs with
  | nil => simp [hstrip] at h
  | cons d ds =>
    obtain rfl : d = c := by simpa [hstrip] using h
    rw [← hbs, hstrip] at hleft
    simp at hleft

/-- What is left when a character is dropped at the ends does not end with it. -/
lemma getLast?_stripChar_ne (c : Char) (cs : List Char) : (stripChar c cs).getLast? ≠ some c := by
  intro h
  have hright := List.head?_dropWhile_not (· == c) (cs.dropWhile (· == c)).reverse
  rw [stripChar, List.getLast?_reverse] at h
  rw [h] at hright
  simp at hright

/-- Nothing is left when a character is dropped from copies of it. -/
lemma stripChar_eq_nil_iff {c : Char} {cs : List Char} :
    stripChar c cs = [] ↔ ∀ d ∈ cs, d = c := by
  constructor
  · exact fun h d hd => by_contra fun hne => List.ne_nil_of_mem (mem_stripChar hd hne) h
  · intro h
    by_contra hne
    obtain ⟨d, ds, hds⟩ := List.exists_cons_of_ne_nil hne
    have hd : d ∈ cs := (stripChar_isInfix c cs).subset (hds ▸ List.mem_cons_self)
    exact head?_stripChar_ne c cs (by rw [hds, h d hd]; rfl)

/-- The blanks that trimming drops at the start. -/
lemma exists_append_trimLeft (cs : List Char) :
    ∃ bs, (∀ b ∈ bs, isBlank b = true) ∧ cs = bs ++ trimLeft cs :=
  ⟨cs.takeWhile isBlank, fun _ hb => List.mem_takeWhile_imp hb,
    List.takeWhile_append_dropWhile.symm⟩

/-- The blanks that trimming drops at the end. -/
lemma exists_trimRight_append (cs : List Char) :
    ∃ bs, (∀ b ∈ bs, isBlank b = true) ∧ cs = trimRight cs ++ bs := by
  refine ⟨(cs.reverse.takeWhile isBlank).reverse, fun b hb => ?_, ?_⟩
  · exact List.mem_takeWhile_imp (List.mem_reverse.1 hb)
  · rw [trimRight, ← List.reverse_append, List.takeWhile_append_dropWhile, List.reverse_reverse]

/-- A text without blanks at its ends stays as it is. -/
lemma trimBoth_eq_self {cs : List Char} (hhead : ∀ c ∈ cs.head?, isBlank c = false)
    (hlast : ∀ c ∈ cs.getLast?, isBlank c = false) : trimBoth cs = cs := by
  have hleft : trimLeft cs = cs := by
    cases cs with
    | nil => rfl
    | cons c cs => exact List.dropWhile_cons_of_neg (by simp [hhead c (by simp)])
  rw [trimBoth, hleft, trimRight]
  cases hrev : cs.reverse with
  | nil => simpa using hrev.symm
  | cons d ds =>
    have hd : isBlank d = false := hlast d (by rw [← List.head?_reverse, hrev]; rfl)
    rw [List.dropWhile_cons_of_neg (by simp [hd]), ← hrev, List.reverse_reverse]

lemma trimBoth_of_forall {cs : List Char} (h : ∀ c ∈ cs, isBlank c = false) : trimBoth cs = cs :=
  trimBoth_eq_self (fun c hc => h c (List.mem_of_mem_head? hc))
    fun c hc => h c (List.mem_of_mem_getLast? hc)

/-- The front of a text is kept if the text starts without a blank and the front ends so. -/
lemma trimBoth_front_eq_self {xs ys : List Char} (hne : xs ≠ [])
    (hhead : ∀ c ∈ (xs ++ ys).head?, isBlank c = false)
    (hlast : ∀ c ∈ xs.getLast?, isBlank c = false) : trimBoth xs = xs := by
  refine trimBoth_eq_self (fun c hc => hhead c ?_) hlast
  rw [List.head?_append_of_ne_nil xs hne]
  exact hc

/-- The back of a text is kept if it starts without a blank and the text ends so. -/
lemma trimBoth_back_eq_self {xs ys : List Char} (hne : ys ≠ [])
    (hhead : ∀ c ∈ ys.head?, isBlank c = false)
    (hlast : ∀ c ∈ (xs ++ ys).getLast?, isBlank c = false) : trimBoth ys = ys := by
  refine trimBoth_eq_self hhead fun c hc => hlast c ?_
  rw [List.getLast?_append_of_ne_nil xs hne]
  exact hc

lemma isBlank_of_isAlphanum {c : Char} (h : c.isAlphanum = true) : isBlank c = false := by
  have hval : c.toNat = c.val.toNat := rfl
  change (decide ('A'.val ≤ c.val ∧ c.val ≤ 'Z'.val) ||
    decide ('a'.val ≤ c.val) && decide (c.val ≤ 'z'.val) ||
    decide ('0'.val ≤ c.val) && decide (c.val ≤ '9'.val)) = true at h
  simp only [Bool.or_eq_true, Bool.and_eq_true, decide_eq_true_eq, UInt32.le_iff_toNat_le] at h
  have hA : 'A'.val.toNat = 65 := rfl
  have hZ : 'Z'.val.toNat = 90 := rfl
  have ha : 'a'.val.toNat = 97 := rfl
  have hz : 'z'.val.toNat = 122 := rfl
  have h0 : '0'.val.toNat = 48 := rfl
  have h9 : '9'.val.toNat = 57 := rfl
  simp only [isBlank, Bool.or_eq_false_iff, Bool.and_eq_false_iff, decide_eq_false_iff_not,
    beq_eq_false_iff_ne]
  omega

/-- What is left by trimming has no blanks at its ends. -/
lemma isBlank_head_trimLeft (cs : List Char) : ∀ c ∈ (trimLeft cs).head?, isBlank c = false := by
  intro c hc
  have := List.head?_dropWhile_not isBlank cs
  rw [trimLeft] at hc
  rw [Option.mem_def.1 hc] at this
  simpa using this

lemma isBlank_last_trimRight (cs : List Char) :
    ∀ c ∈ (trimRight cs).getLast?, isBlank c = false := by
  intro c hc
  rw [trimRight, List.getLast?_reverse] at hc
  exact isBlank_head_trimLeft _ c hc

lemma isBlank_head_trimBoth (cs : List Char) : ∀ c ∈ (trimBoth cs).head?, isBlank c = false := by
  intro c hc
  obtain ⟨t, ht⟩ := trimRight_isPrefix (trimLeft cs)
  rw [trimBoth] at hc
  refine isBlank_head_trimLeft cs c ?_
  cases h : trimRight (trimLeft cs) with
  | nil => simp [h] at hc
  | cons d ds =>
    rw [h] at hc ht
    rw [← ht]
    simpa using hc

lemma isBlank_last_trimBoth (cs : List Char) : ∀ c ∈ (trimBoth cs).getLast?, isBlank c = false :=
  isBlank_last_trimRight _

lemma trimBoth_trimBoth (cs : List Char) : trimBoth (trimBoth cs) = trimBoth cs :=
  trimBoth_eq_self (isBlank_head_trimBoth cs) (isBlank_last_trimBoth cs)

/-- Trimmed parts with a character between them have no blanks at the ends. -/
lemma trimBoth_seam {xs ys : List Char} {c : Char} (hx : trimBoth xs ≠ []) (hy : trimBoth ys ≠ []) :
    trimBoth (trimBoth xs ++ c :: trimBoth ys) = trimBoth xs ++ c :: trimBoth ys := by
  apply trimBoth_eq_self
  · rw [List.head?_append_of_ne_nil _ hx]
    exact isBlank_head_trimBoth xs
  · rw [List.getLast?_append_of_ne_nil _ (List.cons_ne_nil _ _), List.getLast?_cons_of_ne_nil hy]
    exact isBlank_last_trimBoth ys

end TwoStage.Text
