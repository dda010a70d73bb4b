import TwoStage.Proofs.Marker.Cut
import TwoStage.Proofs.Outcome

/-!
# The markers of a text

The scanner as a relation between a text and its markers. What stands between the markers may
change: plain characters may go from either end and texts may be joined, and the markers stay the
same, in the same order.
-/

namespace TwoStage

open Text

/-! ### Markers among segments -/

lemma mem_markersOf {ss : List Segment} {m : Marker} : m ∈ markersOf ss ↔ .marker m ∈ ss := by
  rw [markersOf, List.mem_filterMap]
  constructor
  · rintro ⟨s, hs, heq⟩
    cases s with
    | plain c => simp at heq
    | marker m' => exact Option.some.inj heq ▸ hs
  · exact fun h => ⟨_, h, rfl⟩

lemma markersOf_plain (c : Char) (ss : List Segment) :
    markersOf (.plain c :: ss) = markersOf ss := rfl

lemma markersOf_marker (m : Marker) (ss : List Segment) :
    markersOf (.marker m :: ss) = m :: markersOf ss := rfl

lemma markersOf_append (ss ts : List Segment) :
    markersOf (ss ++ ts) = markersOf ss ++ markersOf ts := List.filterMap_append

lemma markersOf_plain_append (xs : List Char) (ss : List Segment) :
    markersOf (xs.map .plain ++ ss) = markersOf ss := by
  induction xs with
  | nil => rfl
  | cons c xs ih => exact ih

lemma map_marker_locate (offset : Nat) (ss : List Segment) :
    (locate offset ss).map Located.marker = markersOf ss := by
  fun_induction locate offset ss with
  | case1 => rfl
  | case2 offset c ss ih => exact ih
  | case3 offset m ss stop ih => exact congrArg (m :: ·) ih

/-! ### The relation -/

/-- The text can be cut, and these are its markers in order. -/
def Marked (cs : List Char) (ms : List Marker) : Prop := ∃ ss, Cut cs ss ∧ markersOf ss = ms

/-- The scanner decides the relation. -/
lemma marked_iff {s : String} {ms : List Marker} :
    Marked s.toList ms ↔ ∃ ls, scanMarkers s = .ok ls ∧ ls.map Located.marker = ms := by
  constructor
  · rintro ⟨ss, hss, rfl⟩
    exact ⟨locate 0 ss, by rw [scanMarkers, segments_eq_ok_iff.2 hss]; rfl, map_marker_locate 0 ss⟩
  · rintro ⟨ls, hscan, rfl⟩
    obtain ⟨ss, hss, rfl⟩ := Outcome.map_eq_ok_iff.1 hscan
    exact ⟨ss, segments_eq_ok_iff.1 hss, (map_marker_locate 0 ss).symm⟩

namespace Marked

variable {cs xs ys : List Char} {ms ns : List Marker}

lemma append (hx : Marked xs ms) (hy : Marked ys ns) (seam : ∀ zs, ys ≠ '\x7b' :: zs) :
    Marked (xs ++ ys) (ms ++ ns) := by
  obtain ⟨ss, hss, rfl⟩ := hx
  obtain ⟨ts, hts, rfl⟩ := hy
  exact ⟨ss ++ ts, hss.append hts seam, markersOf_append ss ts⟩

/-- A character that is neither a dollar nor a brace can be put in front. -/
lemma cons {c : Char} (hc : c ≠ '$' ∧ c ≠ '\x7b') (h : Marked cs ms) : Marked (c :: cs) ms := by
  obtain ⟨ss, hss, rfl⟩ := h
  exact ⟨.plain c :: ss, hss.cons hc, markersOf_plain c ss⟩

lemma append_cons {c : Char} (hc : c ≠ '$' ∧ c ≠ '\x7b') (hx : Marked xs ms) (hy : Marked ys ns) :
    Marked (xs ++ c :: ys) (ms ++ ns) :=
  hx.append (hy.cons hc) fun _ h => hc.2 (List.cons.inj h).1

/-- Characters that start no marker can be taken away from the front. -/
lemma of_append (hx : ∀ c ∈ xs, c ≠ '$' ∧ c ≠ '\x7b') (h : Marked (xs ++ ys) ms) :
    Marked ys ms := by
  obtain ⟨ss, hss, rfl⟩ := h
  obtain ⟨ts, rfl, hts⟩ := hss.of_append hx
  exact ⟨ts, hts, (markersOf_plain_append xs ts).symm⟩

/-- A text without the first characters of markers has none. -/
lemma eq_nil (hcs : ∀ c ∈ cs, c ≠ '$' ∧ c ≠ '\x7b') (h : Marked cs ms) : ms = [] := by
  rw [← List.append_nil cs] at h
  obtain ⟨ss, hss, rfl⟩ := h.of_append hcs
  rw [hss.unique .nil]
  rfl

/-- A text behind which no brace stands can be taken away from the end. -/
lemma of_append_of_no_brace (hy : ∀ c ∈ ys, c ≠ '\x7d') (h : Marked (xs ++ ys) ms) :
    Marked xs ms := by
  induction ys generalizing xs with
  | nil => simpa using h
  | cons c ys ih =>
    obtain ⟨ss, hss, rfl⟩ : Marked (xs ++ [c]) ms :=
      ih (fun d hd => hy d (List.mem_cons_of_mem _ hd)) (by simpa using h)
    rcases hss.at_char with ⟨ss₁, ss₂, rfl, hx, hnil, -⟩ |
      ⟨ss₁, m, ss₂, us, vs, -, -, hsource, -, hvs⟩
    · obtain rfl := hnil.unique .nil
      exact ⟨ss₁, hx, by simp [markersOf]⟩
    · obtain ⟨rfl, -⟩ := List.append_eq_nil_iff.1 hvs.symm
      obtain ⟨cs, hlast⟩ := Cut.last_source m
      rw [hlast] at hsource
      obtain ⟨-, hc⟩ := List.append_inj' hsource rfl
      exact absurd (List.cons.inj hc).1.symm (hy c List.mem_cons_self)

/-- Blanks around a text hold no part of a marker. -/
lemma trimmed (h : Marked cs ms) : Marked (trimBoth cs) ms := by
  obtain ⟨bs, hbs, hleft⟩ := exists_append_trimLeft cs
  obtain ⟨es, hes, hright⟩ := exists_trimRight_append (trimLeft cs)
  rw [hleft, hright] at h
  have hfront : ∀ c ∈ bs, c ≠ '$' ∧ c ≠ '\x7b' := fun c hc =>
    ⟨fun heq => absurd (hbs c hc) (by rw [heq]; decide),
      fun heq => absurd (hbs c hc) (by rw [heq]; decide)⟩
  have hback : ∀ c ∈ es, c ≠ '\x7d' := fun c hc heq => absurd (hes c hc) (by rw [heq]; decide)
  exact of_append_of_no_brace hback (of_append hfront h)

end Marked

end TwoStage
