import TwoStage.Proofs.Marker.Cut
import TwoStage.Proofs.Outcome

/-!
# Where the markers of a text stand

The scanner as a grammar of spans between byte offsets: each span holds one marker and ends at the
first closer behind its opener, spans follow one another, and no opener stands outside of them. At
most one list of spans has all that, and the scanner gives it or an error. The offsets of the parts
of a text are counted from where the text starts, so that the text behind a segment is a text of the
same kind.
-/

namespace TwoStage

open Text

/-! ### Lengths in bytes -/

@[simp] lemma byteLength_nil : byteLength [] = 0 := rfl

@[simp] lemma byteLength_cons (c : Char) (cs : List Char) :
    byteLength (c :: cs) = c.utf8Size + byteLength cs := rfl

@[simp] lemma byteLength_append (xs ys : List Char) :
    byteLength (xs ++ ys) = byteLength xs + byteLength ys := by
  induction xs with
  | nil => simp
  | cons c xs ih => rw [List.cons_append, byteLength_cons, byteLength_cons, ih, Nat.add_assoc]

lemma byteLength_pos {cs : List Char} (h : cs ≠ []) : 0 < byteLength cs := by
  obtain ⟨c, cs, rfl⟩ := List.exists_cons_of_ne_nil h
  rw [byteLength_cons]
  exact Nat.add_pos_left c.utf8Size_pos _

lemma eq_nil_of_byteLength_eq_zero {cs : List Char} (h : byteLength cs = 0) : cs = [] := by
  by_contra hne
  exact (byteLength_pos hne).ne' h

lemma byteLength_toList (s : String) : byteLength s.toList = s.utf8ByteSize := by
  have hlen (cs : List Char) : byteLength cs = (String.ofList cs).utf8ByteSize := by
    induction cs with
    | nil => rfl
    | cons c cs ih =>
      rw [byteLength_cons, ih, String.ofList_cons, String.utf8ByteSize_append,
        String.utf8ByteSize_singleton]
  rw [hlen, String.ofList_toList]

/-- Of two starts of a text the one with fewer bytes is a start of the other. -/
lemma prefix_of_byteLength_le {xs ys xs' ys' : List Char} (h : xs ++ ys = xs' ++ ys')
    (hle : byteLength xs ≤ byteLength xs') : ∃ zs, xs' = xs ++ zs ∧ ys = zs ++ ys' := by
  rcases List.append_eq_append_iff.1 h with ⟨zs, rfl, rfl⟩ | ⟨zs, rfl, rfl⟩
  · exact ⟨zs, rfl, rfl⟩
  · rw [byteLength_append] at hle
    have hempty : byteLength zs = 0 := by omega
    obtain rfl := eq_nil_of_byteLength_eq_zero hempty
    exact ⟨[], by simp, by simp⟩

/-! ### Where a stretch stands -/

/-- The stretch stands at the byte offset `i` of a text that starts at the given one. -/
def StandsAt (offset : Nat) (w : List Char) (i : Nat) (cs : List Char) : Prop :=
  ∃ before after, cs = before ++ w ++ after ∧ offset + byteLength before = i

namespace StandsAt

variable {offset i : Nat} {w xs ys cs : List Char} {c : Char}

lemma le (h : StandsAt offset w i cs) : offset ≤ i := by
  obtain ⟨before, after, -, rfl⟩ := h
  exact Nat.le_add_right _ _

/-- What stands at the start of a text is a start of it. -/
lemma start_iff : StandsAt offset w offset cs ↔ w <+: cs := by
  constructor
  · rintro ⟨before, after, rfl, heq⟩
    have hempty : byteLength before = 0 := by omega
    obtain rfl := eq_nil_of_byteLength_eq_zero hempty
    exact List.prefix_append w after
  · rintro ⟨after, rfl⟩
    exact ⟨[], after, rfl, rfl⟩

lemma append_left (h : StandsAt (offset + byteLength xs) w i ys) :
    StandsAt offset w i (xs ++ ys) := by
  obtain ⟨before, after, rfl, rfl⟩ := h
  exact ⟨xs ++ before, after, by simp, by rw [byteLength_append, Nat.add_assoc]⟩

/-- What stands behind the first part of a text stands in the second. -/
lemma of_append (h : StandsAt offset w i (xs ++ ys)) (hle : offset + byteLength xs ≤ i) :
    StandsAt (offset + byteLength xs) w i ys := by
  obtain ⟨before, after, heq, rfl⟩ := h
  rw [List.append_assoc] at heq
  obtain ⟨front, rfl, hys⟩ := prefix_of_byteLength_le heq (by omega)
  exact ⟨front, after, by rw [hys, List.append_assoc], by rw [byteLength_append, Nat.add_assoc]⟩

/-- A stretch stands at the first character of a text or behind it. -/
lemma cons_cases (h : StandsAt offset w i (c :: cs)) :
    i = offset ∧ w <+: c :: cs ∨ StandsAt (offset + c.utf8Size) w i cs := by
  obtain ⟨before, after, heq, rfl⟩ := h
  cases before with
  | nil => exact .inl ⟨rfl, after, heq.symm⟩
  | cons d before =>
    obtain ⟨rfl, rfl⟩ := List.cons.inj heq
    exact .inr ⟨before, after, rfl, by rw [byteLength_cons, Nat.add_assoc]⟩

lemma cons (h : StandsAt (offset + c.utf8Size) w i cs) : StandsAt offset w i (c :: cs) := by
  obtain ⟨before, after, rfl, rfl⟩ := h
  exact ⟨c :: before, after, rfl, by rw [byteLength_cons, Nat.add_assoc]⟩

end StandsAt

/-! ### Spans -/

/-- The spans are those of the markers of a text that starts at the given byte offset. -/
structure SpansFrom (offset : Nat) (cs : List Char) (ms : List Located) : Prop where
  /-- Spans follow one another. -/
  ordered : ms.Pairwise fun a b => a.stop ≤ b.start
  /-- A span holds its marker as it is written. -/
  source : ∀ l ∈ ms, StandsAt offset l.marker.source l.start cs ∧
    l.stop = l.start + byteLength l.marker.source
  /-- The name of a marker is one. -/
  name : ∀ l ∈ ms, isVariableName l.marker.name = true
  /-- A span ends at the first closer behind its opener. -/
  closed : ∀ l ∈ ms, ∀ i, StandsAt offset l.marker.round.closer i cs →
    l.start + byteLength l.marker.round.opener ≤ i →
      l.stop ≤ i + byteLength l.marker.round.closer
  /-- No opener stands outside of the spans. -/
  covered : ∀ round i, StandsAt offset (Round.opener round) i cs →
    ∃ l ∈ ms, l.start ≤ i ∧ i < l.stop

/-- The spans are those of the markers of the text. -/
structure IsScan (s : String) (ms : List Located) : Prop extends SpansFrom 0 s.toList ms where
  /-- Spans are not empty and lie in the text. -/
  within : ∀ l ∈ ms, l.start < l.stop ∧ l.stop ≤ s.utf8ByteSize
  /-- Spans start and end between characters. -/
  boundaries : ∀ l ∈ ms, String.Pos.Raw.IsValid s ⟨l.start⟩ ∧ String.Pos.Raw.IsValid s ⟨l.stop⟩

lemma Marker.source_ne_nil (m : Marker) : m.source ≠ [] := by
  obtain ⟨c, cs, -, hsource⟩ := Cut.head_source m
  simp [hsource]

lemma Marker.opener_prefix_source (m : Marker) : m.round.opener <+: m.source := by
  rw [Marker.source, List.append_assoc]
  exact List.prefix_append _ _

namespace SpansFrom

variable {offset : Nat} {cs : List Char} {ms : List Located} {c : Char} {m : Marker} {l : Located}

lemma start_lt_stop (h : SpansFrom offset cs ms) (hl : l ∈ ms) : l.start < l.stop := by
  have hpos := byteLength_pos l.marker.source_ne_nil
  have hstop := (h.source l hl).2
  omega

lemma le_start (h : SpansFrom offset cs ms) (hl : l ∈ ms) : offset ≤ l.start :=
  (h.source l hl).1.le

lemma nil : SpansFrom offset [] [] where
  ordered := .nil
  source := by simp
  name := by simp
  closed := by simp
  covered := by
    rintro round i ⟨before, after, heq, -⟩
    simp at heq

/-- A text without characters has no spans. -/
lemma eq_nil (h : SpansFrom offset [] ms) : ms = [] := by
  refine List.eq_nil_iff_forall_not_mem.2 fun l hl => ?_
  obtain ⟨before, after, heq, -⟩ := (h.source l hl).1
  simp [l.marker.source_ne_nil] at heq

/-- A character in front that begins no opener adds no span and takes none away. -/
lemma cons_iff (unopened : ∀ round : Round, ¬ round.opener <+: c :: cs) :
    SpansFrom offset (c :: cs) ms ↔ SpansFrom (offset + c.utf8Size) cs ms := by
  constructor
  · intro h
    refine ⟨h.ordered, fun l hl => ⟨?_, (h.source l hl).2⟩, h.name,
      fun l hl i hi => h.closed l hl i hi.cons, fun round i hi => h.covered round i hi.cons⟩
    rcases (h.source l hl).1.cons_cases with ⟨-, hprefix⟩ | hrest
    · exact absurd (l.marker.opener_prefix_source.trans hprefix) (unopened _)
    · exact hrest
  · intro h
    refine ⟨h.ordered, fun l hl => ⟨(h.source l hl).1.cons, (h.source l hl).2⟩, h.name,
      fun l hl i hi hle => ?_, fun round i hi => ?_⟩
    · rcases hi.cons_cases with ⟨rfl, -⟩ | hrest
      · have hstart := h.le_start hl
        have hpos := c.utf8Size_pos
        omega
      · exact h.closed l hl i hrest hle
    · rcases hi.cons_cases with ⟨-, hprefix⟩ | hrest
      · exact absurd hprefix (unopened round)
      · exact h.covered round i hrest

/-- In front of a marker's closer no other closer has ended. -/
lemma le_of_closed (hm : ¬ m.round.closer <:+: m.body ++ m.round.closer.dropLast) {i : Nat}
    (hi : StandsAt offset m.round.closer i (m.source ++ cs))
    (hle : offset + byteLength m.round.opener ≤ i) :
    offset + byteLength m.source ≤ i + byteLength m.round.closer := by
  obtain ⟨before, after, heq, rfl⟩ := hi
  -- were it to end earlier, it would stand in the body and the closer without its last character
  by_contra hlt
  simp only [Marker.source, List.append_assoc] at heq
  obtain ⟨front, rfl, hfront⟩ := prefix_of_byteLength_le heq (by omega)
  simp only [Marker.source, byteLength_append] at hlt
  have hclosers : (front ++ m.round.closer) ++ after = (m.body ++ m.round.closer) ++ cs := by
    simpa using hfront.symm
  obtain ⟨zs, hzs, -⟩ := prefix_of_byteLength_le hclosers (by simp only [byteLength_append]; omega)
  have hne : zs ≠ [] := by
    rintro rfl
    have hlength := congrArg byteLength hzs
    simp only [byteLength_append, byteLength_nil] at hlength
    omega
  refine hm ⟨front, zs.dropLast, ?_⟩
  rw [← List.dropLast_append_of_ne_nil hne, ← hzs,
    List.dropLast_append_of_ne_nil m.round.closer_ne_nil]

/-- A marker whose span ends at the first closer can be written. -/
lemma isValid_of_closed (hname : isVariableName m.name = true)
    (hclosed : ∀ i, StandsAt offset m.round.closer i (m.source ++ cs) →
      offset + byteLength m.round.opener ≤ i →
        offset + byteLength m.source ≤ i + byteLength m.round.closer) : m.IsValid := by
  refine ⟨hname, ?_⟩
  rintro ⟨front, back, heq⟩
  have hlast := List.dropLast_concat_getLast m.round.closer_ne_nil
  have hbody : m.body ++ m.round.closer =
      front ++ m.round.closer ++ back ++ [m.round.closer.getLast m.round.closer_ne_nil] := by
    rw [heq, List.append_assoc, hlast]
  have hends := hclosed (offset + byteLength (m.round.opener ++ front))
    ⟨m.round.opener ++ front, back ++ [m.round.closer.getLast m.round.closer_ne_nil] ++ cs, by
      rw [Marker.source, List.append_assoc m.round.opener, hbody]
      simp, rfl⟩ (by simp only [byteLength_append]; omega)
  have hpos := (m.round.closer.getLast m.round.closer_ne_nil).utf8Size_pos
  rw [Marker.source, List.append_assoc, hbody] at hends
  simp only [byteLength_append, byteLength_cons, byteLength_nil] at hends
  omega

/-- A marker in front adds its own span. -/
lemma marker (hm : m.IsValid) (h : SpansFrom (offset + byteLength m.source) cs ms) :
    SpansFrom offset (m.source ++ cs) (⟨m, offset, offset + byteLength m.source⟩ :: ms) where
  ordered := List.pairwise_cons.2 ⟨fun l hl => h.le_start hl, h.ordered⟩
  source := List.forall_mem_cons.2
    ⟨⟨StandsAt.start_iff.2 (List.prefix_append _ _), rfl⟩,
      fun l hl => ⟨(h.source l hl).1.append_left, (h.source l hl).2⟩⟩
  name := List.forall_mem_cons.2 ⟨hm.name, h.name⟩
  closed := List.forall_mem_cons.2 ⟨fun i hi hle => le_of_closed hm.closed hi hle,
    fun l hl i hi hle => by
      have hstart := h.le_start hl
      exact h.closed l hl i (hi.of_append (by omega)) hle⟩
  covered round i hi := by
    by_cases hlt : i < offset + byteLength m.source
    · exact ⟨_, List.mem_cons_self, hi.le, hlt⟩
    · obtain ⟨l, hl, hspan⟩ := h.covered round i (hi.of_append (by omega))
      exact ⟨l, List.mem_cons_of_mem _ hl, hspan⟩

/-- A marker in front takes its own span away. -/
lemma of_marker
    (h : SpansFrom offset (m.source ++ cs) (⟨m, offset, offset + byteLength m.source⟩ :: ms)) :
    m.IsValid ∧ SpansFrom (offset + byteLength m.source) cs ms := by
  have hbehind : ∀ l ∈ ms, offset + byteLength m.source ≤ l.start :=
    (List.pairwise_cons.1 h.ordered).1
  have hmem {l : Located} (hl : l ∈ ms) := List.mem_cons_of_mem
    (⟨m, offset, offset + byteLength m.source⟩ : Located) hl
  refine ⟨isValid_of_closed (h.name _ List.mem_cons_self) (h.closed _ List.mem_cons_self),
    (List.pairwise_cons.1 h.ordered).2, fun l hl => ⟨?_, (h.source l (hmem hl)).2⟩,
    fun l hl => h.name l (hmem hl),
    fun l hl i hi => h.closed l (hmem hl) i hi.append_left, fun round i hi => ?_⟩
  · exact (h.source l (hmem hl)).1.of_append (hbehind l hl)
  · obtain ⟨l, hl, hspan⟩ := h.covered round i hi.append_left
    rcases List.mem_cons.1 hl with rfl | hl
    · exact absurd hi.le (by simpa using hspan.2)
    · exact ⟨l, hl, hspan⟩

/-- An opener at the start of a text begins the first span. -/
lemma exists_head (h : SpansFrom offset cs ms) {round : Round} (hopen : round.opener <+: cs) :
    ∃ m ms' rest, ms = ⟨m, offset, offset + byteLength m.source⟩ :: ms' ∧
      cs = m.source ++ rest := by
  obtain ⟨l, hl, hle, hlt⟩ := h.covered round offset (StandsAt.start_iff.2 hopen)
  obtain rfl : l.start = offset := le_antisymm hle (h.le_start hl)
  cases ms with
  | nil => simp at hl
  | cons first ms =>
    -- a span in front of it would have ended where the text starts
    obtain rfl : l = first := by
      rcases List.mem_cons.1 hl with rfl | hrest
      · rfl
      · have hstop := (List.pairwise_cons.1 h.ordered).1 l hrest
        have hstart := h.le_start (l := first) List.mem_cons_self
        have hspan := h.start_lt_stop (l := first) List.mem_cons_self
        omega
    obtain ⟨hstands, hstop⟩ := h.source l hl
    obtain ⟨rest, rfl⟩ := StandsAt.start_iff.1 hstands
    refine ⟨l.marker, ms, rest, ?_, rfl⟩
    rw [← hstop]

/-- The spans of a cut text are those of its markers. -/
lemma of_cut {ss : List Segment} (h : Cut cs ss) : SpansFrom offset cs (locate offset ss) := by
  induction h generalizing offset with
  | nil => exact .nil
  | plain unopened _ ih => exact (cons_iff unopened).2 ih
  | marker valid _ ih => exact ih.marker valid

/-- A text with spans can be cut. -/
lemma exists_cut {offset : Nat} {cs : List Char} {ms : List Located}
    (h : SpansFrom offset cs ms) : ∃ ss, Cut cs ss ∧ locate offset ss = ms := by
  -- on the length, since a marker is cut off as a whole
  induction hn : cs.length using Nat.strong_induction_on generalizing offset cs ms with
  | _ n ih =>
    cases cs with
    | nil => exact ⟨[], .nil, h.eq_nil.symm⟩
    | cons c cs =>
      by_cases hopen : ∃ round : Round, round.opener <+: c :: cs
      · obtain ⟨round, hopen⟩ := hopen
        obtain ⟨m, ms', rest, rfl, hsource⟩ := h.exists_head hopen
        rw [hsource] at h hn ⊢
        obtain ⟨hm, hrest⟩ := h.of_marker
        have hpos := List.length_pos_iff.2 m.source_ne_nil
        rw [List.length_append] at hn
        obtain ⟨ss, hss, hms⟩ := ih rest.length (by omega) hrest rfl
        exact ⟨.marker m :: ss, .marker hm hss, by rw [locate, hms]⟩
      · have unopened : ∀ round : Round, ¬ round.opener <+: c :: cs := not_exists.1 hopen
        rw [List.length_cons] at hn
        obtain ⟨ss, hss, hms⟩ := ih cs.length (by omega) ((cons_iff unopened).1 h) rfl
        exact ⟨.plain c :: ss, .plain unopened hss, hms⟩

end SpansFrom

/-! ### The scanner -/

/-- Between two characters of a text. -/
lemma isValid_pos_of_append {s : String} {xs ys : List Char} (h : s.toList = xs ++ ys) :
    String.Pos.Raw.IsValid s ⟨byteLength xs⟩ := by
  refine String.Pos.Raw.isValid_iff_exists_append.2 ⟨String.ofList xs, String.ofList ys, ?_, ?_⟩
  · rw [← String.toList_inj, String.toList_append, String.toList_ofList, String.toList_ofList, h]
  · rw [String.rawEndPos, ← byteLength_toList, String.toList_ofList]

/-- Spans lie in the text and end between characters. -/
lemma SpansFrom.isScan {s : String} {ms : List Located} (h : SpansFrom 0 s.toList ms) :
    IsScan s ms := by
  refine ⟨h, fun l hl => ⟨h.start_lt_stop hl, ?_⟩, fun l hl => ?_⟩
  · obtain ⟨⟨before, after, heq, hstart⟩, hstop⟩ := h.source l hl
    rw [← byteLength_toList, heq, hstop, ← hstart]
    simp only [byteLength_append]
    omega
  · obtain ⟨⟨before, after, heq, hstart⟩, hstop⟩ := h.source l hl
    rw [Nat.zero_add] at hstart
    rw [hstop, ← hstart, ← byteLength_append]
    exact ⟨isValid_pos_of_append (by rw [heq, List.append_assoc]), isValid_pos_of_append heq⟩

/-- The scanner gives the spans of a text. -/
lemma scanMarkers_eq_ok_iff_isScan {s : String} {ms : List Located} :
    scanMarkers s = .ok ms ↔ IsScan s ms := by
  constructor
  · intro h
    obtain ⟨ss, hss, rfl⟩ := Outcome.map_eq_ok_iff.1 h
    exact (SpansFrom.of_cut (segments_eq_ok_iff.1 hss)).isScan
  · intro h
    obtain ⟨ss, hss, rfl⟩ := h.toSpansFrom.exists_cut
    exact Outcome.map_eq_ok_iff.2 ⟨ss, segments_eq_ok_iff.2 hss, rfl⟩

/-- A marker without an end is one whose opener has no closer behind it. -/
lemma exists_of_segmentsFrom_unterminated {offset i : Nat} {cs : List Char} {round : Round}
    (h : segmentsFrom offset cs = .error (.unterminated round i)) :
    ∃ before after, cs = before ++ round.opener ++ after ∧ offset + byteLength before = i ∧
      ¬ round.closer <:+: after := by
  fun_induction segmentsFrom offset cs with
  | case1 => simp at h
  | case2 offset c cs _ ih =>
    obtain ⟨before, after, rfl, rfl, hno⟩ := ih (Outcome.map_eq_error_iff.1 h)
    exact ⟨c :: before, after, rfl, by rw [byteLength_cons, Nat.add_assoc], hno⟩
  | case3 offset c cs round' rest hopen hclose =>
    simp only [Except.error.injEq, MarkerError.unterminated.injEq] at h
    obtain ⟨rfl, rfl⟩ := h
    exact ⟨[], rest, Round.eq_of_opening? hopen, rfl,
      (cutFirst?_eq_none_iff round'.closer_ne_nil).1 hclose⟩
  | case4 => simp at h
  | case5 offset c cs round' rest hopen body rest' hclose m hm ih =>
    obtain ⟨before, after, rfl, rfl, hno⟩ := ih (Outcome.map_eq_error_iff.1 h)
    refine ⟨m.source ++ before, after, ?_, by rw [byteLength_append, Nat.add_assoc], hno⟩
    rw [Round.eq_of_opening? hopen, Text.eq_of_cutFirst? hclose, Marker.source_of_ofBody? hm]
    simp

/-- The scanner decides a grammar. It gives the markers of a text exactly with the spans in which
they stand, of which a text has one list at most, and an error exactly if the text has none. An
opener that the error names as unterminated stands where the error says, and no closer behind it. -/
theorem scanMarkers_decides (s : String) :
    (∀ ms, scanMarkers s = .ok ms ↔ IsScan s ms ∧ ∀ ms', IsScan s ms' → ms' = ms) ∧
    (∀ ms ms', IsScan s ms → IsScan s ms' → ms = ms') ∧
    ((∃ e, scanMarkers s = .error e) ↔ ¬ ∃ ms, IsScan s ms) ∧
    ∀ round i, scanMarkers s = .error (.unterminated round i) →
      ∃ before after, s.toList = before ++ round.opener ++ after ∧ byteLength before = i ∧
        ¬ round.closer <:+: after := by
  have hunique : ∀ ms ms', IsScan s ms → IsScan s ms' → ms = ms' := fun ms ms' h h' =>
    Except.ok.inj <| (scanMarkers_eq_ok_iff_isScan.2 h).symm.trans <|
      scanMarkers_eq_ok_iff_isScan.2 h'
  refine ⟨fun ms => ?_, hunique, ?_, fun round i h => ?_⟩
  · rw [scanMarkers_eq_ok_iff_isScan]
    exact ⟨fun h => ⟨h, fun ms' h' => hunique ms' ms h' h⟩, fun h => h.1⟩
  · simp only [← scanMarkers_eq_ok_iff_isScan]
    cases scanMarkers s <;> simp
  · obtain ⟨before, after, heq, hi, hno⟩ :=
      exists_of_segmentsFrom_unterminated (Outcome.map_eq_error_iff.1 h)
    exact ⟨before, after, heq, by omega, hno⟩

/-- Offsets count bytes, and a third closing brace stands behind a marker. -/
theorem scanMarkers_decides_behind_umlaut :
    IsScan "ü\x7b\x7bA:-x\x7d\x7d\x7d" [⟨⟨.compose, ['A'], some ['x']⟩, 2, 10⟩] ∧
    ∃ before after, "ü\x7b\x7bB\x7d".toList = before ++ Round.compose.opener ++ after ∧
      byteLength before = 2 ∧ ¬ Round.compose.closer <:+: after :=
  ⟨(((scanMarkers_decides _).1 _).1 (by decide +kernel)).1,
    (scanMarkers_decides _).2.2.2 _ _ (by decide +kernel)⟩

end TwoStage
