import Mathlib.Data.List.Basic
import TwoStage.Text.Quoted
import TwoStage.Yaml.Token.Lexer

/-!
# Scalars on one line

A text between double quotes, read as a scalar of a document, is the text again, unless one of its
characters is written by its number: a document knows numbers of four digits without braces, and
refuses the scalar. A word without quotes ends at a colon with a blank behind it, or at the end of
its line.
-/

namespace TwoStage

namespace Text

/-- The character stands inside quotes by its number. -/
def isNumbered (c : Char) : Bool :=
  isShapeless c && !(['\x00', '\t', '\r', '\n'].contains c)

/-! ### How characters are written -/

/-- Every other character is written by a letter behind a backslash, or as it is. -/
lemma quoteChar_cases (c : Char) :
    isNumbered c = true ∧ quoteChar c = ['\\', 'u', '\x7b'] ++ hexDigits c.toNat ++ ['\x7d'] ∨
      isNumbered c = false ∧
        ((∃ e, quoteChar c = ['\\', e] ∧ Yaml.isAllowed e = true ∧ Yaml.isBreak e = false ∧
            Yaml.Cursor.escapedChar? e = some c) ∨
          isShapeless c = false ∧ c ≠ '\\' ∧ c ≠ '"' ∧ quoteChar c = [c]) := by
  unfold quoteChar
  split
  · exact .inr ⟨by decide, .inl ⟨'0', rfl, by decide, by decide, rfl⟩⟩
  · exact .inr ⟨by decide, .inl ⟨'t', rfl, by decide, by decide, rfl⟩⟩
  · exact .inr ⟨by decide, .inl ⟨'r', rfl, by decide, by decide, rfl⟩⟩
  · exact .inr ⟨by decide, .inl ⟨'n', rfl, by decide, by decide, rfl⟩⟩
  · exact .inr ⟨by decide, .inl ⟨'\\', rfl, by decide, by decide, rfl⟩⟩
  · exact .inr ⟨by decide, .inl ⟨'"', rfl, by decide, by decide, rfl⟩⟩
  · next hzero htab hreturn hfeed hbackslash hquote =>
    cases hshape : isShapeless c with
    | true =>
      refine .inl ⟨?_, by simp⟩
      simpa [isNumbered, hshape] using ⟨hzero, htab, hreturn, hfeed⟩
    | false =>
      exact .inr ⟨by simp [isNumbered, hshape], .inr ⟨rfl, hbackslash, hquote, by simp⟩⟩

lemma exists_digitChar_of_mem_hexDigits {n : Nat} {c : Char} (h : c ∈ hexDigits n) :
    ∃ d < 16, c = Nat.digitChar d := by
  induction n using Nat.strongRecOn with
  | ind n ih =>
    rw [hexDigits, Nat.toDigits_eq_if (by decide)] at h
    split at h
    next hlt => exact ⟨n, hlt, List.mem_singleton.1 h⟩
    next hge =>
      rcases List.mem_append.1 h with h | h
      · exact ih (n / 16) (by omega) h
      · exact ⟨n % 16, by omega, List.mem_singleton.1 h⟩

end Text

namespace Yaml

open Text

/-! ### Characters of a document -/

lemma isAllowed_digitChar {d : Nat} (h : d < 16) : isAllowed (Nat.digitChar d) = true := by
  revert d
  decide

/-- The ranges that no document text may touch lie in ranges without a shape. -/
lemma isShapeless_of_range {c : Char} {first last : Nat} (hrange : (first, last) ∈ shapelessRanges)
    (hfirst : first ≤ c.toNat) (hlast : c.toNat ≤ last) (h : 0x80 ≤ first) :
    isShapeless c = true := by
  rw [isShapeless, Bool.or_eq_true, Bool.and_eq_true, decide_eq_true_eq, List.any_eq_true]
  exact .inr ⟨Nat.le_trans h hfirst, (first, last), hrange, by simpa using ⟨hfirst, hlast⟩⟩

lemma isAllowed_of_isShapeless_eq_false {c : Char} (h : isShapeless c = false) :
    isAllowed c = true := by
  have hlow : 0x20 ≤ c.toNat ∧ c.toNat ≠ 0x7F := by
    simp only [isShapeless, Bool.or_eq_false_iff, decide_eq_false_iff_not, beq_eq_false_iff_ne] at h
    exact ⟨Nat.le_of_not_lt h.1.1, h.1.2⟩
  have hcontrol : ¬ (0x80 ≤ c.toNat ∧ c.toNat ≤ 0xA0) := fun hc => by
    simp [isShapeless_of_range (by decide) hc.1 hc.2] at h
  have hlast : ¬ (0xFFFE ≤ c.toNat ∧ c.toNat ≤ 0xFFFF) := fun hc => by
    simp [isShapeless_of_range (by decide) hc.1 hc.2] at h
  have hvalid : c.toNat < 0xD800 ∨ 0xDFFF < c.toNat := by
    rcases c.valid with hc | hc
    · exact .inl hc
    · exact .inr hc.1
  simp only [isAllowed, Bool.or_eq_true, Bool.and_eq_true, beq_iff_eq, decide_eq_true_eq]
  omega

lemma isBreak_of_isShapeless_eq_false {c : Char} (h : isShapeless c = false) :
    isBreak c = false := by
  have hshape : isShapeless c ≠ true := by simp [h]
  simp only [isBreak, Bool.or_eq_false_iff, beq_eq_false_iff_ne]
  refine ⟨⟨⟨⟨?_, ?_⟩, ?_⟩, ?_⟩, ?_⟩ <;> rintro rfl <;> refine hshape ?_
  · rfl
  · rfl
  · exact isShapeless_of_range (show (0x80, 0xA0) ∈ shapelessRanges by decide) (by decide)
      (by decide) (by decide)
  · exact isShapeless_of_range (show (0x2028, 0x202F) ∈ shapelessRanges by decide) (by decide)
      (by decide) (by decide)
  · exact isShapeless_of_range (show (0x2028, 0x202F) ∈ shapelessRanges by decide) (by decide)
      (by decide) (by decide)

lemma isAllowed_of_mem_quoteChar {c d : Char} (h : d ∈ quoteChar c) : isAllowed d = true := by
  rcases quoteChar_cases c with ⟨-, hc⟩ | ⟨-, ⟨e, hc, he, -⟩ | ⟨hshape, -, -, hc⟩⟩ <;> rw [hc] at h
  · simp only [List.cons_append, List.nil_append, List.mem_cons, List.mem_append,
      List.not_mem_nil, or_false] at h
    rcases h with rfl | rfl | rfl | h | rfl
    · decide
    · decide
    · decide
    · obtain ⟨n, hn, rfl⟩ := exists_digitChar_of_mem_hexDigits h
      exact isAllowed_digitChar hn
    · decide
  · rcases List.mem_pair.1 h with rfl | rfl
    · decide
    · exact he
  · obtain rfl := List.mem_singleton.1 h
    exact isAllowed_of_isShapeless_eq_false hshape

lemma isAllowed_of_mem_quoted {s : String} {c : Char} (h : c ∈ (quoted s).toList) :
    isAllowed c = true := by
  rw [quoted, String.toList_ofList] at h
  simp only [List.mem_append, List.mem_singleton, List.mem_flatMap] at h
  rcases h with (rfl | ⟨d, -, hd⟩) | rfl
  · decide
  · exact isAllowed_of_mem_quoteChar hd
  · decide

namespace Cursor

/-! ### Behind the start of a line -/

variable {rest : List Char} {index line column fuel : Nat} {acc : List Char}

/-- The marks of a document stand at the start of a line only. -/
lemma atTriple_of_column {c : Cursor} (h : c.column ≠ 0) (x : Char) : c.atTriple x = false := by
  simp [atTriple, h]

lemma atDocumentMark_of_column {c : Cursor} (h : c.column ≠ 0) : c.atDocumentMark = false := by
  simp [atDocumentMark, atTriple_of_column h]

/-! ### Runs of spaces -/

/-- What follows is neither a blank nor a line break. -/
def GoesOn (cs : List Char) : Prop :=
  ∃ x xs, cs = x :: xs ∧ isSpace x = false ∧ isBreak x = false

lemma GoesOn.append {cs : List Char} (h : GoesOn cs) (rest : List Char) : GoesOn (cs ++ rest) := by
  obtain ⟨x, xs, rfl, hblank⟩ := h
  exact ⟨x, xs ++ rest, rfl, hblank⟩

/-- Induction that takes each run of spaces as one. -/
@[elab_as_elim]
lemma spacesInduction {P : List Char → Prop} (nil : P [])
    (spaces : ∀ n cs, cs.head? ≠ some ' ' → P cs → P (List.replicate (n + 1) ' ' ++ cs))
    (char : ∀ c cs, c ≠ ' ' → P cs → P (c :: cs)) (cs : List Char) : P cs := by
  -- The run in front of a text may be of any length.
  suffices h : P cs ∧ ∀ n, P (List.replicate (n + 1) ' ' ++ cs) from h.1
  induction cs with
  | nil => exact ⟨nil, fun n => spaces n [] (by simp) nil⟩
  | cons c cs ih =>
    by_cases hc : c = ' '
    · subst hc
      refine ⟨ih.2 0, fun n => ?_⟩
      have hrun := ih.2 (n + 1)
      rwa [List.replicate_succ', List.append_assoc, List.singleton_append] at hrun
    · have hcons := char c cs hc ih.1
      exact ⟨hcons, fun n => spaces n _ (by simp [hc]) hcons⟩

/-- A gap ends where the text goes on. -/
lemma takeGap?_of_goesOn {margin : Nat} (hrest : GoesOn rest) (g : Gap) :
    takeGap? margin fuel g ⟨rest, index, line, column⟩ =
      some (g, ⟨rest, index, line, column⟩) := by
  obtain ⟨x, xs, rfl, hspace, hbreak⟩ := hrest
  have hchar : breakChar ⟨x :: xs, index, line, column⟩ = none := by
    unfold breakChar
    split <;> simp_all [isBreak]
  cases fuel with
  | zero => rfl
  | succ fuel => simp [takeGap?, hspace, hchar]

lemma takeGap?_of_spaces {n : Nat} (hfuel : n < fuel) (hrest : GoesOn rest) (blanks : List Char) :
    takeGap? 0 fuel ⟨blanks, none, false, []⟩
        ⟨List.replicate n ' ' ++ rest, index, line, column⟩ =
      some (⟨blanks ++ List.replicate n ' ', none, false, []⟩,
        ⟨rest, index + n, line, column + n⟩) := by
  induction n generalizing fuel blanks index column with
  | zero => simpa using takeGap?_of_goesOn hrest _
  | succ n ih =>
    obtain ⟨fuel, rfl⟩ := Nat.exists_eq_add_one.2 (Nat.zero_lt_of_lt hfuel)
    rw [List.replicate_succ, List.cons_append, takeGap?]
    simp only [isSpace, beq_self_eq_true, Bool.true_or, if_true, skip, List.drop_one,
      List.tail_cons, Bool.false_eq_true, if_false]
    rw [ih (by omega), List.append_assoc, List.singleton_append]
    simp [Nat.add_assoc, Nat.add_comm 1]

/-! ### One character -/

lemma takeQuoted?_quoteChar {c : Char} (hnumbered : isNumbered c = false) (hspace : c ≠ ' ')
    (hcolumn : column ≠ 0) :
    takeQuoted? '"' (fuel + 1) acc ⟨quoteChar c ++ rest, index, line, column⟩ =
      takeQuoted? '"' fuel (c :: acc)
        ⟨rest, index + (quoteChar c).length, line, column + (quoteChar c).length⟩ := by
  rw [takeQuoted?, atDocumentMark_of_column hcolumn, if_neg Bool.false_ne_true]
  rcases quoteChar_cases c with ⟨hc, -⟩ | ⟨-, ⟨e, hc, -, hbreak, he⟩ | ⟨hshape, hslash, hquote, hc⟩⟩
  · simp [hnumbered] at hc
  · rw [hc]
    have hescape : takeEscape? ⟨e :: rest, index + 1, line, column + 1⟩ =
        some (c, ⟨rest, index + 2, line, column + 2⟩) := by
      simp [takeEscape?, skip, he]
    simp [hescape, isSpace, show isBreak '\\' = false by decide, at?, skip, hbreak]
  · rw [hc]
    have hblank : isSpace c = false := by
      have htab : c ≠ '\t' := by
        rintro rfl
        exact Bool.false_ne_true hshape.symm
      simp [isSpace, hspace, htab]
    simp [hblank, isBreak_of_isShapeless_eq_false hshape, hslash, hquote, skip]

/-- The brace is no digit. -/
lemma takeQuoted?_of_isNumbered {c : Char} (hnumbered : isNumbered c = true)
    (hcolumn : column ≠ 0) :
    takeQuoted? '"' fuel acc ⟨quoteChar c ++ rest, index, line, column⟩ = none := by
  rcases quoteChar_cases c with ⟨-, hc⟩ | ⟨hc, -⟩
  · have hescape (rest : List Char) (c : Cursor) (hrest : c.rest = 'u' :: '\x7b' :: rest) :
        takeEscape? c = none := by
      have hdigit : Decimal.digitValue? 16 '\x7b' = none := by decide
      simp [takeEscape?, hrest, escapedChar?, escapeDigits?, Decimal.readDigits?, hdigit]
    cases fuel with
    | zero => rfl
    | succ fuel =>
      rw [takeQuoted?, atDocumentMark_of_column hcolumn, if_neg Bool.false_ne_true, hc]
      simp [isSpace, show isBreak '\\' = false by decide, at?, skip,
        show isBreak 'u' = false by decide, hescape]
  · simp [hnumbered] at hc

lemma goesOn_quoteChar {c : Char} (hc : c ≠ ' ') : GoesOn (quoteChar c) := by
  rcases quoteChar_cases c with ⟨-, h⟩ | ⟨-, ⟨e, h, -⟩ | ⟨hshape, -, -, h⟩⟩
  · exact ⟨_, _, h, by decide, by decide⟩
  · exact ⟨_, _, h, by decide, by decide⟩
  · have htab : c ≠ '\t' := by
      rintro rfl
      exact Bool.false_ne_true hshape.symm
    exact ⟨c, [], h, by simp [isSpace, hc, htab], isBreak_of_isShapeless_eq_false hshape⟩

/-- A run of spaces is taken as one gap, and stands for itself. -/
lemma takeQuoted?_of_spaces {n : Nat} (hrest : GoesOn rest) (hcolumn : column ≠ 0) :
    takeQuoted? '"' (fuel + 1) acc ⟨List.replicate (n + 1) ' ' ++ rest, index, line, column⟩ =
      takeQuoted? '"' fuel (List.replicate (n + 1) ' ' ++ acc)
        ⟨rest, index + (n + 1), line, column + (n + 1)⟩ := by
  have hlength : n + 1 < (List.replicate (n + 1) ' ' ++ rest).length := by
    obtain ⟨x, xs, rfl, -⟩ := hrest
    simp
  have hgap : takeGap? 0 (List.replicate (n + 1) ' ' ++ rest).length ⟨[], none, false, []⟩
        ⟨List.replicate (n + 1) ' ' ++ rest, index, line, column⟩ =
      some (⟨List.replicate (n + 1) ' ', none, false, []⟩,
        ⟨rest, index + (n + 1), line, column + (n + 1)⟩) :=
    takeGap?_of_spaces hlength hrest []
  have hblank : (isSpace ' ' || isBreak ' ') = true := by decide
  rw [takeQuoted?, atDocumentMark_of_column hcolumn, if_neg Bool.false_ne_true]
  have hfolded : (Gap.folded ⟨List.replicate (n + 1) ' ', none, false, []⟩).reverse =
      List.replicate (n + 1) ' ' := by
    rw [Gap.folded, if_neg Bool.false_ne_true, List.reverse_replicate]
  rw [List.replicate_succ] at hgap hfolded ⊢
  rw [List.cons_append] at hgap ⊢
  simp only [hblank, if_true, Gap.empty, hgap, hfolded]

/-! ### All of a text -/

lemma flatMap_quoteChar_spaces (n : Nat) :
    (List.replicate n ' ').flatMap quoteChar = List.replicate n ' ' := by
  induction n with
  | zero => rfl
  | succ n ih => rw [List.replicate_succ, List.flatMap_cons, ih]; rfl

/-- What the characters of a quoted text give. -/
lemma takeQuoted?_quoted (cs : List Char) (hcolumn : column ≠ 0)
    (hfuel : (cs.flatMap quoteChar).length < fuel) :
    takeQuoted? '"' fuel acc ⟨cs.flatMap quoteChar ++ '"' :: rest, index, line, column⟩ =
      if cs.any isNumbered then none
      else
        some (acc.reverse ++ cs, ⟨rest, index + (cs.flatMap quoteChar).length + 1, line,
          column + (cs.flatMap quoteChar).length + 1⟩) := by
  obtain ⟨fuel, rfl⟩ := Nat.exists_eq_add_one.2 (Nat.zero_lt_of_lt hfuel)
  -- blanks are dropped in front of a line break, so it takes the character behind a run of spaces
  -- to keep them
  induction cs using spacesInduction generalizing acc index column fuel with
  | nil =>
    rw [takeQuoted?, atDocumentMark_of_column hcolumn, if_neg Bool.false_ne_true]
    simp [isSpace, show isBreak '"' = false by decide, skip]
  | spaces n cs hhead ih =>
    have hrest : GoesOn (cs.flatMap quoteChar ++ '"' :: rest) := by
      cases cs with
      | nil => exact ⟨_, _, rfl, by decide, by decide⟩
      | cons c cs =>
        rw [List.flatMap_cons, List.append_assoc]
        exact (goesOn_quoteChar (by simpa using hhead)).append _
    rw [List.flatMap_append, flatMap_quoteChar_spaces, List.length_append, List.length_replicate]
      at hfuel
    obtain ⟨fuel, rfl⟩ := Nat.exists_eq_add_one.2 (show 0 < fuel by omega)
    rw [List.flatMap_append, flatMap_quoteChar_spaces, List.append_assoc,
      takeQuoted?_of_spaces hrest hcolumn, ih (by omega) fuel (by omega)]
    have hnone : (List.replicate (n + 1) ' ').any isNumbered = false := by
      rw [List.any_eq_false]
      intro c hc
      rw [List.eq_of_mem_replicate hc]
      decide
    simp [hnone, Nat.add_assoc]
  | char c cs hspace ih =>
    have hlength : 0 < (quoteChar c).length := by
      obtain ⟨x, xs, hx, -⟩ := goesOn_quoteChar hspace
      simp [hx]
    rw [List.flatMap_cons, List.length_append] at hfuel
    rw [List.flatMap_cons, List.append_assoc, List.any_cons]
    cases hc : isNumbered c with
    | true => rw [takeQuoted?_of_isNumbered hc hcolumn, Bool.true_or, if_pos rfl]
    | false =>
      obtain ⟨fuel, rfl⟩ := Nat.exists_eq_add_one.2 (show 0 < fuel by omega)
      rw [takeQuoted?_quoteChar hc hspace hcolumn, ih (by omega) fuel (by omega), Bool.false_or]
      simp [Nat.add_assoc]

end Cursor

/-! ### Words without quotes -/

/-- A character that a word without quotes may hold anywhere. -/
def isWordChar (c : Char) : Bool :=
  isAllowed c && !isSpace c && !isBreak c && !Lexer.isIndicator c && c != '.' && c != orderMark

/-- The character is neither blank nor a line break, nor does it begin a comment. -/
def beginsToken (c : Char) : Bool := !isSpace c && !isBreak c && c != '#' && c != orderMark

lemma ne_of_isWordChar {c d : Char} (h : isWordChar c = true) (hd : isWordChar d = false) :
    c ≠ d := by
  rintro rfl
  exact Bool.false_ne_true (hd.symm.trans h)

lemma isAllowed_of_isWordChar {c : Char} (h : isWordChar c = true) : isAllowed c = true := by
  simp only [isWordChar, Bool.and_eq_true] at h
  exact h.1.1.1.1.1

lemma beginsToken_of_isWordChar {c : Char} (h : isWordChar c = true) : beginsToken c = true := by
  have hmark : c ≠ '#' := ne_of_isWordChar h (by decide)
  simp only [isWordChar, Bool.and_eq_true] at h
  simp [beginsToken, h.1.1.1.1.2, h.1.1.1.2, h.2, hmark]

namespace Cursor

variable {rest w : List Char} {index line column margin : Nat}

lemma atTriple_of_ne {c : Cursor} {x y : Char} (hrest : c.rest = x :: rest) (h : x ≠ y) :
    c.atTriple y = false := by
  simp [atTriple, hrest, h.symm]

lemma takeWord?_append (hw : ∀ c ∈ w, isWordChar c = true) (fuel : Nat) (acc : List Char) :
    takeWord? false (fuel + w.length) acc ⟨w ++ rest, index, line, column⟩ =
      takeWord? false fuel (w.reverse ++ acc)
        ⟨rest, index + w.length, line, column + w.length⟩ := by
  induction w generalizing acc index column with
  | nil => rfl
  | cons x w ih =>
    rw [List.forall_mem_cons] at hw
    have hbegins := beginsToken_of_isWordChar hw.1
    simp only [beginsToken, Bool.and_eq_true, Bool.not_eq_true'] at hbegins
    have hcolon : x ≠ ':' := ne_of_isWordChar hw.1 (by decide)
    rw [List.length_cons, ← Nat.add_assoc, takeWord?]
    simp [blankAhead, misplacedColon, endsPlain, atChar, at?, hbegins.1.1.1, hbegins.1.1.2, hcolon,
      skip, ih hw.2, Nat.add_assoc, Nat.add_comm 1]

/-- Reading goes on behind a first word. -/
lemma takePlain?_word (hw : ∀ c ∈ w, isWordChar c = true) (hne : w ≠ []) (hrest : rest ≠ [])
    (hstop : ∀ fuel acc,
      takeWord? false (fuel + 1) acc ⟨rest, index + w.length, line, column + w.length⟩ =
        some (acc, ⟨rest, index + w.length, line, column + w.length⟩)) (fuel : Nat) :
    takePlain? false margin (fuel + 1) [] .empty ⟨w ++ rest, index, line, column⟩ =
      let after : Cursor := ⟨rest, index + w.length, line, column + w.length⟩
      if !after.blankAhead 0 then some ⟨w, false, after⟩
      else (takeGap? margin rest.length .empty after).bind fun (g, after) =>
        if after.column < margin then some ⟨w, g.broken, after⟩
        else takePlain? false margin fuel w.reverse g after := by
  obtain ⟨x, w', hx⟩ := List.exists_cons_of_ne_nil hne
  have hmem : isWordChar x = true := hw x (hx ▸ List.mem_cons_self)
  have hcursor : (⟨w ++ rest, index, line, column⟩ : Cursor).rest = x :: (w' ++ rest) := by
    rw [hx, List.cons_append]
  have hmark : (⟨w ++ rest, index, line, column⟩ : Cursor).atDocumentMark = false := by
    rw [atDocumentMark, atTriple_of_ne hcursor (ne_of_isWordChar hmem (by decide)),
      atTriple_of_ne hcursor (ne_of_isWordChar hmem (by decide)), Bool.or_false]
  have hcomment : (⟨w ++ rest, index, line, column⟩ : Cursor).atChar '#' = false := by
    simp [atChar, at?, hx, ne_of_isWordChar hmem (d := '#') (by decide)]
  obtain ⟨n, hn⟩ := Nat.exists_eq_add_one.2 (List.length_pos_iff.2 hrest)
  have hword : takeWord? false (w ++ rest).length [] ⟨w ++ rest, index, line, column⟩ =
      some (w.reverse, ⟨rest, index + w.length, line, column + w.length⟩) := by
    rw [List.length_append, Nat.add_comm, takeWord?_append hw, hn, hstop, List.append_nil]
  rw [takePlain?, hmark, hcomment, Bool.or_false, if_neg Bool.false_ne_true]
  simp only [hword]
  simp only [List.reverse_eq_nil_iff, hne, hrest, if_false, Gap.folded, Gap.empty, decide_false,
    Bool.false_or, Bool.not_false, Bool.true_and, Bool.false_eq_true, List.reverse_nil,
    List.append_nil, List.reverse_reverse, decide_eq_true_eq]
  generalize takeGap? _ _ _ _ = gap
  cases gap <;> rfl

/-- A word in front of a colon is a scalar of its own. -/
lemma takePlain?_of_colon {x : Char} (hw : ∀ c ∈ w, isWordChar c = true) (hne : w ≠ [])
    (hx : (isSpace x || isBreak x) = true) (fuel : Nat) :
    takePlain? false margin (fuel + 1) [] .empty
        ⟨w ++ ':' :: x :: rest, index, line, column⟩ =
      some ⟨w, false, ⟨':' :: x :: rest, index + w.length, line, column + w.length⟩⟩ := by
  have hblank : ∀ index column, blankAhead ⟨':' :: x :: rest, index, line, column⟩ 0 = false :=
    fun index column => by simp [blankAhead]; decide
  rw [takePlain?_word hw hne (by simp)]
  · simp [hblank]
  · intro fuel acc
    simp [takeWord?, hblank, misplacedColon, endsPlain, atChar, at?]
    simp [blankAhead, hx]

/-- A word at the end of its line ends there if the next line starts at the margin of the text. -/
lemma takePlain?_of_break (hw : ∀ c ∈ w, isWordChar c = true) (hne : w ≠ []) (hrest : GoesOn rest)
    (hmargin : margin ≠ 0) (fuel : Nat) :
    takePlain? false margin (fuel + 1) [] .empty ⟨w ++ '\n' :: rest, index, line, column⟩ =
      some ⟨w, true, ⟨rest, index + w.length + 1, line + 1, 0⟩⟩ := by
  have hblank : ∀ index column, blankAhead ⟨'\n' :: rest, index, line, column⟩ 0 = true :=
    fun index column => by simp [blankAhead, isBreak]
  have hgap : takeGap? margin (rest.length + 1) .empty
        ⟨'\n' :: rest, index + w.length, line, column + w.length⟩ =
      some (⟨[], some '\n', true, []⟩, ⟨rest, index + w.length + 1, line + 1, 0⟩) := by
    exact takeGap?_of_goesOn hrest _
  rw [takePlain?_word hw hne (by simp)]
  · simp [hblank, hgap, Nat.pos_of_ne_zero hmargin]
  · intro fuel acc
    simp [takeWord?, hblank]

end Cursor

end Yaml

end TwoStage
