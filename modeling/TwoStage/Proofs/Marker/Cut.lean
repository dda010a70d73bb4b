import TwoStage.Marker
import TwoStage.Proofs.Text.Split

/-!
# How a text is cut

The scanner as a relation between a text and its segments. Every segment is told by its own source
alone: a plain character does not stand in front of an opener, and a marker ends at the first closer
behind its opener. A text can therefore be taken apart at any seam between segments, and two texts
can be put together unless their seam makes a new opener.
-/

namespace TwoStage

open Text

/-! ### Openers and bodies -/

namespace Round

@[simp] lemma opener_ne_nil (round : Round) : round.opener ≠ [] := by cases round <;> decide

@[simp] lemma closer_ne_nil (round : Round) : round.closer ≠ [] := by cases round <;> decide

lemma opening?_opener_append (round : Round) (cs : List Char) :
    opening? (round.opener ++ cs) = some (round, cs) := by cases round <;> rfl

lemma opening?_eq_some_iff {cs rest : List Char} {round : Round} :
    opening? cs = some (round, rest) ↔ cs = round.opener ++ rest :=
  ⟨Round.eq_of_opening?, fun h => h ▸ opening?_opener_append round rest⟩

lemma opening?_eq_none_iff {cs : List Char} :
    opening? cs = none ↔ ∀ round : Round, ¬ round.opener <+: cs := by
  constructor
  · rintro h round ⟨rest, rfl⟩
    simp [opening?_opener_append] at h
  · intro h
    cases ho : opening? cs with
    | none => rfl
    | some pair => exact absurd ⟨pair.2, (opening?_eq_some_iff.1 ho).symm⟩ (h pair.1)

/-- An opener is a dollar or a brace with a brace behind it. -/
lemma exists_opener_eq (round : Round) :
    ∃ c, (c = '$' ∨ c = '\x7b') ∧ round.opener = [c, '\x7b'] := by
  cases round
  · exact ⟨'$', .inl rfl, rfl⟩
  · exact ⟨'\x7b', .inr rfl, rfl⟩

lemma not_opener_prefix_cons {c : Char} (hc : c ≠ '$' ∧ c ≠ '\x7b') (round : Round)
    (cs : List Char) : ¬ round.opener <+: c :: cs := by
  intro h
  obtain ⟨d, hd, hopen⟩ := round.exists_opener_eq
  rw [hopen, List.cons_prefix_cons] at h
  rcases hd with rfl | rfl
  · exact hc.1 h.1.symm
  · exact hc.2 h.1.symm

/-- What stands behind the first character of an opener can be changed as long as a brace stands
there. -/
lemma opener_prefix_cons {round : Round} {c : Char} {cs ds : List Char}
    (h : round.opener <+: c :: ds) (hbrace : ∀ zs, ds = '\x7b' :: zs → ∃ ws, cs = '\x7b' :: ws) :
    round.opener <+: c :: cs := by
  obtain ⟨d, -, hopen⟩ := round.exists_opener_eq
  rw [hopen, List.cons_prefix_cons] at h ⊢
  obtain ⟨zs, hzs⟩ := h.2
  obtain ⟨ws, rfl⟩ := hbrace zs hzs.symm
  exact ⟨h.1, List.cons_prefix_cons.2 ⟨rfl, List.nil_prefix⟩⟩

end Round

/-- The characters of a variable name. -/
lemma mem_of_isVariableName {name : List Char} (h : isVariableName name = true) :
    ∀ c ∈ name, c.isAlphanum = true ∨ c = '_' := by
  cases name with
  | nil => simp
  | cons c cs =>
    simp only [isVariableName, Bool.and_eq_true, Bool.or_eq_true, beq_iff_eq,
      List.all_eq_true] at h
    refine List.forall_mem_cons.2 ⟨?_, h.2⟩
    rcases h.1 with h | h
    · exact .inl (by simp [Char.isAlphanum, h])
    · exact .inr h

/-- A variable name holds nothing that is no letter, digit or underscore. -/
lemma not_mem_of_isVariableName {name : List Char} {c : Char} (h : isVariableName name = true)
    (hc : c.isAlphanum = false) (hc' : c ≠ '_') : c ∉ name := fun hmem => by
  rcases mem_of_isVariableName h c hmem with h | h
  · simp [hc] at h
  · exact hc' h

lemma isBlank_of_mem_of_isVariableName {name : List Char} (h : isVariableName name = true) :
    ∀ c ∈ name, isBlank c = false := by
  intro c hc
  rcases mem_of_isVariableName h c hc with hc | rfl
  · exact isBlank_of_isAlphanum hc
  · decide

namespace Marker

/-- The marker can be written: its name is one, and nothing of it closes it too early. -/
structure IsValid (m : Marker) : Prop where
  name : isVariableName m.name = true
  closed : ¬ m.round.closer <:+: m.body ++ m.round.closer.dropLast

/-- A body is read back where the name is one. -/
lemma ofBody_body {m : Marker} (h : isVariableName m.name = true) :
    ofBody m.round m.body = m := by
  have hcolon : ':' ∉ m.name := not_mem_of_isVariableName h (by decide) (by decide)
  have hsep : defaultSeparator ≠ [] := by decide
  obtain ⟨round, name, default?⟩ := m
  unfold ofBody
  cases default? with
  | none =>
    have hcut : cutFirst? defaultSeparator name = none :=
      (cutFirst?_eq_none_iff hsep).2 fun hin => hcolon (hin.subset (by decide))
    simp [body, hcut]
  | some d =>
    have hcut : cutFirst? defaultSeparator (name ++ defaultSeparator ++ d) = some (name, d) := by
      refine (cutFirst?_eq_some_iff hsep).2 ⟨rfl, fun hin => ?_⟩
      -- were the separator to end earlier, its dash would be a character of the name or the colon
      have hdash : '-' ∈ name ++ defaultSeparator.dropLast := hin.subset (by decide)
      rcases List.mem_append.1 hdash with hdash | hdash
      · exact not_mem_of_isVariableName h (by decide) (by decide) hdash
      · exact absurd hdash (by decide)
    rw [body, hcut]

@[simp] lemma round_ofBody (round : Round) (cs : List Char) : (ofBody round cs).round = round := by
  unfold ofBody
  split <;> rfl

@[simp] lemma body_ofBody (round : Round) (cs : List Char) : (ofBody round cs).body = cs := by
  unfold ofBody
  split
  next hcut => simp [body, Text.eq_of_cutFirst? hcut]
  next => rfl

/-- The bodies that make a marker. -/
lemma ofBody?_eq_some_iff {round : Round} {cs : List Char} {m : Marker} :
    ofBody? round cs = some m ↔ m.round = round ∧ m.body = cs ∧ isVariableName m.name = true := by
  unfold ofBody?
  constructor
  · intro h
    split at h
    next hname =>
      obtain rfl := Option.some.inj h
      exact ⟨round_ofBody round cs, body_ofBody round cs, hname⟩
    next => simp at h
  · rintro ⟨rfl, rfl, hname⟩
    rw [ofBody_body hname, if_pos hname]

end Marker

/-! ### The relation -/

/-- The text is cut into the segments. -/
inductive Cut : List Char → List Segment → Prop
  | nil : Cut [] []
  | plain {c : Char} {cs : List Char} {ss : List Segment}
      (unopened : ∀ round : Round, ¬ round.opener <+: c :: cs) (rest : Cut cs ss) :
      Cut (c :: cs) (.plain c :: ss)
  | marker {m : Marker} {cs : List Char} {ss : List Segment}
      (valid : m.IsValid) (rest : Cut cs ss) : Cut (m.source ++ cs) (.marker m :: ss)

/-- Whatever the scanner gives is a cut of the text. -/
lemma Cut.of_segmentsFrom {offset : Nat} {cs : List Char} {ss : List Segment}
    (h : segmentsFrom offset cs = .ok ss) : Cut cs ss := by
  fun_induction segmentsFrom offset cs generalizing ss with
  | case1 =>
    obtain rfl := Except.ok.inj h
    exact .nil
  | case2 offset c cs hopen ih =>
    cases hrec : segmentsFrom (offset + c.utf8Size) cs with
    | error e => simp [hrec, Except.map] at h
    | ok ss' =>
      simp only [hrec, Except.map, Except.ok.injEq] at h
      subst h
      exact .plain (Round.opening?_eq_none_iff.1 hopen) (ih hrec)
  | case3 => simp at h
  | case4 => simp at h
  | case5 offset c cs round rest hopen body after hclose m hm ih =>
    cases hrec : segmentsFrom (offset + byteLength m.source) after with
    | error e => simp [hrec, Except.map] at h
    | ok ss' =>
      simp only [hrec, Except.map, Except.ok.injEq] at h
      subst h
      obtain ⟨rfl, rfl, hname⟩ := Marker.ofBody?_eq_some_iff.1 hm
      obtain ⟨rfl, hclosed⟩ := (cutFirst?_eq_some_iff m.round.closer_ne_nil).1 hclose
      have heq : c :: cs = m.source ++ after := by
        rw [Round.eq_of_opening? hopen, Marker.source]
        simp only [List.append_assoc]
      rw [heq]
      exact .marker ⟨hname, hclosed⟩ (ih hrec)

/-- The scanner finds every cut. -/
lemma Cut.segmentsFrom_eq {cs : List Char} {ss : List Segment} (h : Cut cs ss) (offset : Nat) :
    segmentsFrom offset cs = .ok ss := by
  induction h generalizing offset with
  | nil => simp [segmentsFrom]
  | @plain c cs ss unopened _ ih =>
    -- the definition matches on the opener first, so that is what the cases are split on
    unfold segmentsFrom
    split
    next => rw [ih]; rfl
    next hopen => simp [Round.opening?_eq_none_iff.2 unopened] at hopen
  | @marker m cs ss valid _ ih =>
    have hopen : Round.opening? (m.source ++ cs) =
        some (m.round, m.body ++ m.round.closer ++ cs) := by
      simp only [Marker.source, List.append_assoc, Round.opening?_opener_append]
    have hclose : cutFirst? m.round.closer (m.body ++ m.round.closer ++ cs) = some (m.body, cs) :=
      (cutFirst?_eq_some_iff m.round.closer_ne_nil).2 ⟨rfl, valid.closed⟩
    have hbody : Marker.ofBody? m.round m.body = some m :=
      Marker.ofBody?_eq_some_iff.2 ⟨rfl, rfl, valid.name⟩
    obtain ⟨c, ds, hcons⟩ : ∃ c ds, m.source ++ cs = c :: ds := by
      obtain ⟨c, -, hc⟩ := m.round.exists_opener_eq
      exact ⟨c, _, by rw [Marker.source, hc]; rfl⟩
    rw [hcons] at hopen ⊢
    unfold segmentsFrom
    split
    next hnone => simp [hnone] at hopen
    next round rest hsome =>
      obtain ⟨rfl, rfl⟩ := Prod.mk.inj (Option.some.inj (hsome.symm.trans hopen))
      split
      next hnone => exact absurd (hnone.symm.trans hclose) (by simp)
      next body after hcut =>
        obtain ⟨rfl, rfl⟩ := Prod.mk.inj (Option.some.inj (hcut.symm.trans hclose))
        simp only [hbody, ih]
        rfl

/-- The scanner decides the relation. -/
lemma segmentsFrom_eq_ok_iff {offset : Nat} {cs : List Char} {ss : List Segment} :
    segmentsFrom offset cs = .ok ss ↔ Cut cs ss :=
  ⟨Cut.of_segmentsFrom, fun h => h.segmentsFrom_eq offset⟩

lemma segments_eq_ok_iff {s : String} {ss : List Segment} :
    segments s = .ok ss ↔ Cut s.toList ss := segmentsFrom_eq_ok_iff

/-- The part of a concatenation in which one of its characters stands. -/
lemma exists_of_flatMap_eq {α : Type} {f : α → List Char} {as : List α} {xs ys : List Char}
    {c : Char} (h : as.flatMap f = xs ++ c :: ys) :
    ∃ as₁ a as₂ us vs, as = as₁ ++ a :: as₂ ∧ f a = us ++ c :: vs ∧
      xs = as₁.flatMap f ++ us ∧ ys = vs ++ as₂.flatMap f := by
  induction as generalizing xs with
  | nil => simp at h
  | cons a as ih =>
    rw [List.flatMap_cons] at h
    rcases List.append_eq_append_iff.1 h with ⟨us, rfl, hus⟩ | ⟨us, ha, hus⟩
    · obtain ⟨as₁, b, as₂, vs, ws, rfl, hb, rfl, rfl⟩ := ih hus
      exact ⟨a :: as₁, b, as₂, vs, ws, rfl, hb, by simp, rfl⟩
    · cases us with
      | nil =>
        have hrest : as.flatMap f = [] ++ c :: ys := hus.symm
        obtain ⟨as₁, b, as₂, vs, ws, rfl, hb, hnil, rfl⟩ := ih hrest
        exact ⟨a :: as₁, b, as₂, vs, ws, rfl, hb, by simp [List.append_assoc, ← hnil, ha], rfl⟩
      | cons u us =>
        obtain ⟨rfl, rfl⟩ := List.cons.inj hus
        exact ⟨[], a, as, xs, us, rfl, ha, rfl, rfl⟩

namespace Cut

variable {cs xs ys : List Char} {ss ts : List Segment}

/-- A text has one cut. -/
lemma unique (hs : Cut cs ss) (ht : Cut cs ts) : ss = ts :=
  Except.ok.inj ((hs.segmentsFrom_eq 0).symm.trans (ht.segmentsFrom_eq 0))

/-- The sources of the segments make up the text. -/
lemma source_eq (h : Cut cs ss) : ss.flatMap Segment.source = cs :=
  source_segmentsFrom (h.segmentsFrom_eq 0)

/-! ### Taking apart and putting together -/

/-- A text falls apart at any seam between its segments. -/
lemma split (h : Cut cs (ss ++ ts)) : ∃ xs ys, cs = xs ++ ys ∧ Cut xs ss ∧ Cut ys ts := by
  induction ss generalizing cs with
  | nil => exact ⟨[], cs, rfl, .nil, h⟩
  | cons s ss ih =>
    cases h with
    | plain unopened rest =>
      obtain ⟨xs, ys, rfl, hx, hy⟩ := ih rest
      refine ⟨_ :: xs, ys, rfl, .plain (fun round hp => unopened round ?_) hx, hy⟩
      rw [← List.cons_append]
      exact hp.trans (List.prefix_append _ ys)
    | marker valid rest =>
      obtain ⟨xs, ys, rfl, hx, hy⟩ := ih rest
      exact ⟨_, ys, by rw [← List.append_assoc], .marker valid hx, hy⟩

/-- Two texts are cut together as they are cut apart, if the second does not start with the brace
that could end an opener. -/
lemma append (hx : Cut xs ss) (hy : Cut ys ts) (seam : ∀ zs, ys ≠ '\x7b' :: zs) :
    Cut (xs ++ ys) (ss ++ ts) := by
  induction hx with
  | nil => exact hy
  | @plain c cs ss unopened _ ih =>
    refine .plain (fun round hp => unopened round (Round.opener_prefix_cons hp fun zs hzs => ?_)) ih
    cases cs with
    | nil => exact absurd hzs (seam zs)
    | cons c' cs => exact ⟨cs, by rw [(List.cons.inj hzs).1]⟩
  | marker valid _ ih =>
    rw [List.append_assoc]
    exact .marker valid ih

/-- A character that begins no opener can be put in front. -/
lemma cons {c : Char} (hc : c ≠ '$' ∧ c ≠ '\x7b') (h : Cut cs ss) :
    Cut (c :: cs) (.plain c :: ss) :=
  .plain (fun round => round.not_opener_prefix_cons hc cs) h

/-- A marker starts with a dollar or a brace. -/
lemma head_source (m : Marker) : ∃ c cs, (c = '$' ∨ c = '\x7b') ∧ m.source = c :: cs := by
  obtain ⟨c, hc, hopen⟩ := m.round.exists_opener_eq
  exact ⟨c, _, hc, by rw [Marker.source, hopen]; rfl⟩

/-- A marker ends with a brace. -/
lemma last_source (m : Marker) : ∃ cs, m.source = cs ++ ['\x7d'] := by
  rw [Marker.source]
  cases m.round
  · exact ⟨_, rfl⟩
  · exact ⟨Round.compose.opener ++ m.body ++ ['\x7d'], by simp [Round.closer]⟩

/-- Characters that start no marker are cut one by one. -/
lemma of_append (hx : ∀ c ∈ xs, c ≠ '$' ∧ c ≠ '\x7b') (h : Cut (xs ++ ys) ss) :
    ∃ ts, ss = xs.map .plain ++ ts ∧ Cut ys ts := by
  induction xs generalizing ss with
  | nil => exact ⟨ss, rfl, h⟩
  | cons c xs ih =>
    rw [List.forall_mem_cons] at hx
    -- the text is an index of the cut and has to be a variable before the cut is taken apart
    generalize hcs : c :: xs ++ ys = cs at h
    cases h with
    | nil => simp at hcs
    | plain unopened rest =>
      obtain ⟨rfl, rfl⟩ := List.cons.inj hcs
      obtain ⟨ts, rfl, hts⟩ := ih hx.2 rest
      exact ⟨ts, rfl, hts⟩
    | @marker m _ _ valid rest =>
      obtain ⟨d, ds, hd, hsource⟩ := head_source m
      rw [hsource] at hcs
      obtain ⟨rfl, -⟩ := List.cons.inj hcs
      rcases hd with rfl | rfl
      · exact absurd rfl hx.1.1
      · exact absurd rfl hx.1.2

/-- The markers of a cut are valid. -/
lemma isValid (h : Cut cs ss) : ∀ m, .marker m ∈ ss → m.IsValid := by
  induction h with
  | nil => simp
  | plain _ _ ih => simpa using ih
  | marker valid _ ih =>
    intro m hm
    rcases List.mem_cons.1 hm with hm | hm
    · exact Segment.marker.inj hm ▸ valid
    · exact ih m hm

/-- Where one character of a text stands: between the segments, or in a marker. -/
lemma at_char {c : Char} (h : Cut (xs ++ c :: ys) ss) :
    (∃ ss₁ ss₂, ss = ss₁ ++ .plain c :: ss₂ ∧ Cut xs ss₁ ∧ Cut ys ss₂ ∧
      ∀ round : Round, ¬ round.opener <+: c :: ys) ∨
    (∃ ss₁ m ss₂ us vs, ss = ss₁ ++ .marker m :: ss₂ ∧ m.IsValid ∧ m.source = us ++ c :: vs ∧
      xs = ss₁.flatMap Segment.source ++ us ∧ ys = vs ++ ss₂.flatMap Segment.source) := by
  obtain ⟨ss₁, s, ss₂, us, vs, rfl, hsource, rfl, rfl⟩ := exists_of_flatMap_eq h.source_eq
  cases s with
  | marker m => exact .inr ⟨ss₁, m, ss₂, us, vs, rfl, h.isValid m (by simp), hsource, rfl, rfl⟩
  | plain d =>
    obtain ⟨rfl, rfl, rfl⟩ : us = [] ∧ d = c ∧ vs = [] := by
      cases us <;> simp_all [Segment.source]
    obtain ⟨xs, zs, -, hx, hz⟩ := h.split
    cases hz with
    | plain unopened hy =>
      rw [← hy.source_eq] at unopened
      exact .inl ⟨ss₁, ss₂, rfl, by simpa [hx.source_eq], by simpa [hy.source_eq], unopened⟩

end Cut

end TwoStage
