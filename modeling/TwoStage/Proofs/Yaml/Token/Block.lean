import Mathlib.Data.List.TakeWhile
import TwoStage.Proofs.Yaml.Token.Scalars
import TwoStage.Yaml.Token.Lexer

/-!
# Steps in the block context

How tokens are read off lines of a block mapping: remarks, keys, and the values that stand on the
line of their key. Each step says what is left of the text, which block collections are open then,
and the tokens that have come.
-/

namespace TwoStage.Yaml

open Text

/-- A blank line, or a line that holds no more than a comment. -/
def IsRemark (cs : List Char) : Prop :=
  ∃ n text, cs = List.replicate n ' ' ++ text ∧ (∀ x ∈ text.head?, x = '#') ∧
    ∀ x ∈ text, isBreak x = false

namespace Cursor

variable {c : Cursor} {x : Char} {rest : List Char}

lemma takeWhile_spaces {p : Char → Bool} (hp : p ' ' = true) (hx : p x = false) (n : Nat) :
    (List.replicate n ' ' ++ x :: rest).takeWhile p = List.replicate n ' ' := by
  induction n with
  | zero => simp [hx]
  | succ n ih => simp [List.replicate_succ, hp, ih]

/-- Spaces are stepped over. -/
lemma skipWhile_spaces {n : Nat} (hrest : c.rest = List.replicate n ' ' ++ x :: rest)
    {p : Char → Bool} (hp : p ' ' = true) (hx : p x = false) : c.skipWhile p = c.skipMany n := by
  rw [skipWhile, Cursor.takeWhile, hrest, takeWhile_spaces hp hx, List.length_replicate]

lemma skipOrderMark_of_spaces {n : Nat} (hrest : c.rest = List.replicate n ' ' ++ x :: rest)
    (hx : x ≠ orderMark) : c.skipOrderMark = c := by
  have hmark : c.atChar orderMark = false := by
    cases n with
    | zero => simp [atChar, at?, hrest, hx]
    | succ n => simp [atChar, at?, hrest, List.replicate_succ, orderMark]
  simp [skipOrderMark, hmark]

lemma skipComment_of_break {text : List Char} (hhead : ∀ x ∈ text.head?, x = '#')
    (htext : ∀ x ∈ text, isBreak x = false) (hrest : c.rest = text ++ '\n' :: rest) :
    c.skipComment = c.skipMany text.length := by
  cases text with
  | nil =>
    have hmark : c.atChar '#' = false := by simp [atChar, at?, hrest]
    simp [skipComment, hmark, skipMany]
  | cons y text =>
    obtain rfl := hhead y rfl
    have htaken : (('#' :: text) ++ '\n' :: rest).takeWhile (fun x => !isBreak x) =
        '#' :: text := by
      rw [List.takeWhile_append_of_pos (by simpa using htext)]
      simp [isBreak]
    rw [skipComment, atChar, at?, hrest, List.cons_append]
    simp only [beq_self_eq_true, if_true, skipWhile, Cursor.takeWhile, hrest, htaken]

lemma skipBreak_of_feed (hrest : c.rest = '\n' :: rest) :
    c.skipBreak = ⟨rest, c.index + 1, c.line + 1, 0⟩ := by
  simp [skipBreak, hrest]

/-! ### Stepping forward -/

lemma length_skipMany_le (c : Cursor) (n : Nat) : (c.skipMany n).rest.length ≤ c.rest.length := by
  simp [skipMany]

lemma length_skipWhile_le (c : Cursor) (p : Char → Bool) :
    (c.skipWhile p).rest.length ≤ c.rest.length := c.length_skipMany_le _

lemma length_skipOrderMark_le (c : Cursor) : c.skipOrderMark.rest.length ≤ c.rest.length := by
  rw [skipOrderMark]
  split
  · simp [skip]
  · exact Nat.le_refl _

lemma length_skipComment_le (c : Cursor) : c.skipComment.rest.length ≤ c.rest.length := by
  rw [skipComment]
  split
  · exact c.length_skipWhile_le _
  · exact Nat.le_refl _

lemma length_skipBlanks_le (c : Cursor) (p : Char → Bool) :
    (c.skipOrderMark.skipWhile p).skipComment.rest.length ≤ c.rest.length :=
  Nat.le_trans (length_skipComment_le _)
    (Nat.le_trans (length_skipWhile_le _ p) c.length_skipOrderMark_le)

lemma length_skipBreak_lt (h : c.at? isBreak = true) : c.skipBreak.rest.length < c.rest.length := by
  unfold skipBreak
  split
  next hrest =>
    rw [hrest, List.length_cons, List.length_cons]
    dsimp only
    omega
  next hrest => simp [hrest]
  next hrest => simp [at?, hrest] at h

end Cursor

namespace Lexer

variable {l : Lexer} {x : Char} {rest : List Char}

/-! ### Blanks -/

/-- Steps over blanks need no more fuel than there are characters. -/
lemma skipBlanks_of_lt {fuel fuel' : Nat} (h : l.cursor.rest.length < fuel)
    (h' : l.cursor.rest.length < fuel') : l.skipBlanks fuel = l.skipBlanks fuel' := by
  induction fuel generalizing fuel' l with
  | zero => omega
  | succ fuel ih =>
    obtain ⟨fuel', rfl⟩ := Nat.exists_eq_add_one.2 (Nat.zero_lt_of_lt h')
    rw [skipBlanks, skipBlanks]
    split
    next hbreak =>
      have hlt := Nat.lt_of_lt_of_le (Cursor.length_skipBreak_lt hbreak)
        (l.cursor.length_skipBlanks_le _)
      exact ih (by dsimp only; omega) (by dsimp only; omega)
    next => rfl

lemma skipBlanks_of_spaces {n : Nat} (hrest : l.cursor.rest = List.replicate n ' ' ++ x :: rest)
    (hx : beginsToken x = true) (fuel : Nat) :
    l.skipBlanks (fuel + 1) = { l with cursor := l.cursor.skipMany n } := by
  simp only [beginsToken, Bool.and_eq_true, Bool.not_eq_true', bne_iff_ne] at hx
  obtain ⟨⟨⟨hspace, hbreak⟩, hcomment⟩, hmark⟩ := hx
  simp only [isSpace, Bool.or_eq_false_iff] at hspace
  have hahead : (l.cursor.skipMany n).rest = x :: rest := by
    simp [Cursor.skipMany, hrest]
  rw [skipBlanks, Cursor.skipOrderMark_of_spaces hrest hmark]
  rw [Cursor.skipWhile_spaces hrest (by simp) (by simp [hspace])]
  simp [Cursor.skipComment, Cursor.atChar, Cursor.at?, hahead, hbreak, hcomment]

lemma skipBlanks_of_remark {cs : List Char} (hcs : IsRemark cs)
    (hrest : l.cursor.rest = cs ++ '\n' :: rest) (fuel : Nat) :
    l.skipBlanks (fuel + 1) =
      { l with
        cursor := ⟨rest, l.cursor.index + cs.length + 1, l.cursor.line + 1, 0⟩,
        keyAllowed := l.keyAllowed || !l.inFlow }.skipBlanks fuel := by
  obtain ⟨n, text, rfl, hhead, htext⟩ := hcs
  rw [List.append_assoc] at hrest
  -- The first character behind the spaces begins the comment or ends the line.
  obtain ⟨x, xs, hx, hsolid⟩ : ∃ x xs, text ++ '\n' :: rest = x :: xs ∧ (x = '#' ∨ x = '\n') := by
    cases text with
    | nil => exact ⟨_, _, rfl, .inr rfl⟩
    | cons y text => exact ⟨_, _, rfl, .inl (hhead y rfl)⟩
  have hmark : x ≠ orderMark := by rcases hsolid with rfl | rfl <;> decide
  have hblank : (x == ' ') = false ∧ (x == '\t') = false := by
    rcases hsolid with rfl | rfl <;> decide
  have hahead : (l.cursor.skipMany n).rest = text ++ '\n' :: rest := by
    simp [Cursor.skipMany, hrest]
  have hspaces := hrest
  rw [hx] at hspaces
  rw [skipBlanks, Cursor.skipOrderMark_of_spaces hspaces hmark]
  rw [Cursor.skipWhile_spaces hspaces (by simp) (by simp [hblank]),
    Cursor.skipComment_of_break hhead htext hahead]
  have hbehind : ((l.cursor.skipMany n).skipMany text.length).rest = '\n' :: rest := by
    simp [Cursor.skipMany, hrest]
  have hbreak : ((l.cursor.skipMany n).skipMany text.length).skipBreak =
      ⟨rest, l.cursor.index + (List.replicate n ' ' ++ text).length + 1, l.cursor.line + 1, 0⟩ := by
    rw [Cursor.skipBreak_of_feed hbehind]
    simp [Cursor.skipMany, Nat.add_assoc]
  rw [hbreak, if_pos (by simp [Cursor.at?, hbehind, isBreak])]

/-! ### Block collections -/

/-- The margins that stay when the block collections indented deeper than the limit are closed. -/
def kept (limit : Nat) (margins : List Nat) : List Nat := margins.dropWhile (limit < ·)

/-- The ends of those that are closed. -/
def closings (limit : Nat) (margins : List Nat) : List Token :=
  List.replicate (margins.takeWhile (limit < ·)).length .blockEnd

/-- The margins when a key has come at a column. -/
def opened (column : Nat) (margins : List Nat) : List Nat :=
  if margins.headD 0 ≤ column then (column + 1) :: margins else margins

/-- The start of the mapping that the key opens, if it does. -/
def openings (column : Nat) (margins : List Nat) : List Token :=
  if margins.headD 0 ≤ column then [.blockMappingStart] else []

/-- The state in the block context with no key in sight, by the margins of the open collections,
innermost first. -/
def block (c : Cursor) (margins : List Nat) (keyAllowed : Bool) (produced : List Token) : Lexer :=
  ⟨c, margins.headD 0, (margins ++ [0]).tail, [none], keyAllowed, produced⟩

variable {c : Cursor} {margins : List Nat} {keyAllowed : Bool} {ts : List Token} {limit : Nat}

lemma cursor_block : (block c margins keyAllowed ts).cursor = c := rfl

lemma inFlow_block : (block c margins keyAllowed ts).inFlow = false := rfl

lemma dropStale?_block :
    (block c margins keyAllowed ts).dropStale? = some (block c margins keyAllowed ts) := rfl

lemma settled_block : (block c margins keyAllowed ts).settled = ts.reverse := by
  simp [settled, block, count, List.take_of_length_le]

lemma headD_kept_le (limit : Nat) (margins : List Nat) : (kept limit margins).headD 0 ≤ limit := by
  induction margins with
  | nil => exact Nat.zero_le _
  | cons m margins ih =>
    by_cases hm : limit < m
    · simpa [kept, hm] using ih
    · simpa [kept, hm] using Nat.le_of_not_lt hm

lemma kept_of_le (h : margins.headD 0 ≤ limit) :
    kept limit margins = margins ∧ closings limit margins = [] := by
  cases margins with
  | nil => exact ⟨rfl, rfl⟩
  | cons m margins =>
    have hm : m ≤ limit := h
    simp [kept, closings, hm]

lemma closings_append_cons (limit : Nat) (margins : List Nat) (ts : List Token) :
    closings limit margins ++ .blockEnd :: ts = .blockEnd :: (closings limit margins ++ ts) := by
  rw [closings, ← List.singleton_append, ← List.append_assoc, ← List.replicate_succ',
    List.replicate_succ, List.cons_append]

lemma closeBlocks_cons (m : Nat) (margins : List Nat) (ts : List Token) :
    closeBlocks limit (margins ++ [0]) (block c (m :: margins) keyAllowed ts) =
      if limit < m then
        closeBlocks limit (margins ++ [0]).tail (block c margins keyAllowed (.blockEnd :: ts))
      else block c (m :: margins) keyAllowed ts := by
  cases margins <;> rfl

lemma unindent_block : (block c margins keyAllowed ts).unindent limit =
    block c (kept limit margins) keyAllowed (closings limit margins ++ ts) := by
  rw [unindent, inFlow_block, if_neg Bool.false_ne_true]
  change closeBlocks limit (margins ++ [0]).tail _ = _
  induction margins generalizing ts with
  | nil => rfl
  | cons m margins ih =>
    rw [List.cons_append, List.tail_cons, closeBlocks_cons]
    by_cases hm : limit < m
    · rw [if_pos hm, ih, closings_append_cons]
      simp [kept, closings, hm, List.replicate_succ]
    · rw [if_neg hm]
      simp [kept, closings, hm]

lemma next?_congr {l l' : Lexer} (h : l.skipBlanks (l.cursor.rest.length + 1) =
    l'.skipBlanks (l'.cursor.rest.length + 1)) : l.next? = l'.next? := by
  rw [next?, next?, h]

/-- What the next token begins with. -/
lemma next?_of_spaces {n : Nat} {l' : Lexer}
    (hrest : l.cursor.rest = List.replicate n ' ' ++ x :: rest) (hx : beginsToken x = true)
    (hfresh : dropStale? { l with cursor := l.cursor.skipMany n } =
      some { l with cursor := l.cursor.skipMany n })
    (hunindent : unindent (l.cursor.column + n + 1) { l with cursor := l.cursor.skipMany n } = l')
    (hahead : l'.cursor.rest = x :: rest) : l.next? = l'.token? x := by
  rw [next?, skipBlanks_of_spaces hrest hx, hfresh]
  simp only [Cursor.skipMany] at hunindent ⊢
  rw [hunindent, hahead]

lemma next?_block {n index line column : Nat} (hx : beginsToken x = true) :
    (block ⟨List.replicate n ' ' ++ x :: rest, index, line, column⟩ margins keyAllowed ts).next? =
      (block ⟨x :: rest, index + n, line, column + n⟩ (kept (column + n + 1) margins) keyAllowed
        (closings (column + n + 1) margins ++ ts)).token? x := by
  have hcursor : Cursor.skipMany ⟨List.replicate n ' ' ++ x :: rest, index, line, column⟩ n =
      ⟨x :: rest, index + n, line, column + n⟩ := by
    simp [Cursor.skipMany]
  exact next?_of_spaces rfl hx rfl (hcursor ▸ unindent_block) rfl

lemma unindent_of_le (h : l.margin ≤ limit) : l.unindent limit = l := by
  have hclose : closeBlocks limit l.outer l = l := by
    cases l.outer with
    | nil => rfl
    | cons m ms => rw [closeBlocks, if_neg (Nat.not_lt.2 h)]
  rw [unindent, hclose, ite_self]

lemma next?_of_begins (hrest : l.cursor.rest = x :: rest) (hx : beginsToken x = true)
    (hfresh : l.dropStale? = some l) (hmargin : l.margin ≤ l.cursor.column + 1) :
    l.next? = l.token? x :=
  next?_of_spaces (n := 0) hrest hx hfresh (unindent_of_le hmargin) hrest

/-! ### What a token begins with -/

lemma token?_of_isWordChar (hrest : l.cursor.rest = x :: rest) (hx : isWordChar x = true) :
    l.token? x = l.plain? := by
  have hne {y : Char} (hy : isWordChar y = false) : x ≠ y := ne_of_isWordChar hx hy
  have hstart : l.startsPlain x = true := by
    simp only [isWordChar, Bool.and_eq_true, Bool.not_eq_true'] at hx
    simp [startsPlain, Cursor.blankAhead, hrest, hx]
  have hdash := Cursor.atTriple_of_ne hrest (hne (y := '-') (by decide))
  have hdot := Cursor.atTriple_of_ne hrest (hne (y := '.') (by decide))
  simp (disch := decide) [token?, hdash, hdot, hne, hstart]

lemma token?_quote (hrest : l.cursor.rest = '"' :: rest) : l.token? '"' = l.quoted? '"' := by
  have hdash := Cursor.atTriple_of_ne hrest (show '"' ≠ '-' by decide)
  have hdot := Cursor.atTriple_of_ne hrest (show '"' ≠ '.' by decide)
  simp [token?, hdash, hdot]

lemma token?_colon (hrest : l.cursor.rest = ':' :: x :: rest)
    (hx : (isSpace x || isBreak x) = true) : l.token? ':' = l.value? := by
  have hdash := Cursor.atTriple_of_ne hrest (show ':' ≠ '-' by decide)
  have hdot := Cursor.atTriple_of_ne hrest (show ':' ≠ '.' by decide)
  have hblank : l.cursor.blankAhead 1 = true := by simpa [Cursor.blankAhead, hrest] using hx
  simp [token?, hdash, hdot, hblank]

lemma token?_open (hrest : l.cursor.rest = '[' :: rest) :
    l.token? '[' = l.openFlow? .flowSequenceStart := by
  have hdash := Cursor.atTriple_of_ne hrest (show '[' ≠ '-' by decide)
  have hdot := Cursor.atTriple_of_ne hrest (show '[' ≠ '.' by decide)
  simp [token?, hdash, hdot]

lemma token?_close (hrest : l.cursor.rest = ']' :: rest) :
    l.token? ']' = l.closeFlow? .flowSequenceEnd := by
  have hdash := Cursor.atTriple_of_ne hrest (show ']' ≠ '-' by decide)
  have hdot := Cursor.atTriple_of_ne hrest (show ']' ≠ '.' by decide)
  simp [token?, hdash, hdot]

/-! ### Runs -/

variable {l' : Lexer} {fuel index line column : Nat}

lemma run_of_next? (h : l.next? = some l') (hend : l'.produced.head? ≠ some .streamEnd) :
    run (fuel + 1) l = run fuel l' := by
  rw [run, h]
  dsimp only
  split
  next hlast => simp [hlast] at hend
  next => rfl

lemma run_of_next?_eq_none (h : l.next? = none) : run fuel l = l.settled ++ [.unreadable] := by
  cases fuel with
  | zero => rfl
  | succ fuel => rw [run, h]

lemma run_congr (hnext : l.next? = l'.next?) (hsettled : l.settled = l'.settled) :
    run fuel l = run fuel l' := by
  cases fuel with
  | zero => rw [run, run, hsettled]
  | succ fuel => rw [run, run, hnext, hsettled]

/-- A remark leaves no trace. -/
lemma run_remark {cs : List Char} (hcs : IsRemark cs) :
    run fuel (block ⟨cs ++ '\n' :: rest, index, line, column⟩ margins keyAllowed ts) =
      run fuel (block ⟨rest, index + cs.length + 1, line + 1, 0⟩ margins true ts) := by
  refine run_congr ?_ (by rw [settled_block, settled_block])
  have hskip : (block ⟨cs ++ '\n' :: rest, index, line, column⟩ margins keyAllowed ts).skipBlanks
        ((cs ++ '\n' :: rest).length + 1) =
      (block ⟨rest, index + cs.length + 1, line + 1, 0⟩ margins true ts).skipBlanks
        (rest.length + 1) := by
    rw [skipBlanks_of_remark hcs rfl, inFlow_block, Bool.not_false, Bool.or_true]
    refine skipBlanks_of_lt ?_ ?_
    · simp only [List.length_append, List.length_cons]
      omega
    · exact Nat.lt_succ_self _
  exact next?_congr hskip

/-- Closing in two steps closes all. -/
lemma closings_kept (limit : Nat) (hmargins : ∀ m ∈ margins, 0 < m) :
    kept 0 (kept limit margins) = [] ∧ closings 0 (kept limit margins) ++ closings limit margins =
      List.replicate margins.length .blockEnd := by
  have hpos : ∀ m ∈ kept limit margins, decide (0 < m) = true := fun m hm =>
    decide_eq_true (hmargins m ((List.dropWhile_sublist _).subset hm))
  refine ⟨List.dropWhile_eq_nil_iff.2 hpos, ?_⟩
  have hlength := congrArg List.length (List.takeWhile_append_dropWhile (l := margins)
    (p := fun m => decide (limit < m)))
  rw [List.length_append] at hlength
  rw [closings, List.takeWhile_eq_self_iff.2 hpos, closings, List.replicate_append_replicate, kept,
    Nat.add_comm, hlength]

/-- At the end of the text, what is open ends. -/
lemma run_end (hmargins : ∀ m ∈ margins, 0 < m) :
    run (fuel + 1) (block ⟨[], index, line, column⟩ margins keyAllowed ts) =
      ts.reverse ++ List.replicate margins.length .blockEnd ++ [.streamEnd] := by
  have hskip : (block ⟨[], index, line, column⟩ margins keyAllowed ts).skipBlanks 1 =
      block ⟨[], index, line, column⟩ margins keyAllowed ts := by
    simp [skipBlanks, block, Cursor.skipOrderMark, Cursor.atChar, Cursor.at?, Cursor.skipWhile,
      Cursor.takeWhile, Cursor.skipMany, Cursor.skipComment]
  obtain ⟨hkept, hclosings⟩ := closings_kept (column + 1) hmargins
  have hnext : (block ⟨[], index, line, column⟩ margins keyAllowed ts).next? =
      some (block ⟨[], index, line, column⟩ [] keyAllowed
        (.streamEnd :: (List.replicate margins.length .blockEnd ++ ts))) := by
    simp only [next?, cursor_block, List.length_nil, Nat.zero_add, hskip, dropStale?_block,
      unindent_block, hkept, ← List.append_assoc, hclosings]
    rfl
  rw [run, hnext]
  simp [block]

lemma plain?_block_of_keyAllowed : (block c margins true ts).plain? =
    (c.takePlain? false (margins.headD 0) c.rest.length [] .empty).map fun p =>
      { block p.rest margins p.broken (.scalar p.content true :: ts) with
        places :=
          [some ⟨margins.headD 0 == c.column + 1, ts.length, c.index, c.line, c.column⟩] } := rfl

lemma plain?_block : (block c margins false ts).plain? =
    (c.takePlain? false (margins.headD 0) c.rest.length [] .empty).map fun p =>
      block p.rest margins p.broken (.scalar p.content true :: ts) := rfl

lemma quoted?_block : (block c margins false ts).quoted? '"' =
    (c.skip.takeQuoted? '"' c.rest.length []).map fun (s, c) =>
      block c margins false (.scalar s false :: ts) := by
  change ((c.skip.takeQuoted? '"' c.rest.length []).map _).map _ = _
  rw [Option.map_map]
  rfl

/-- The state behind a scalar that began where a key may begin. -/
def pending (c : Cursor) (margins : List Nat) (place : KeyPlace) (ts : List Token) : Lexer :=
  { block c margins false ts with places := [some place] }

/-- A word at the start of a line may be a key. -/
lemma next?_word {n : Nat} {w : List Char} (hw : ∀ c ∈ w, isWordChar c = true) (hne : w ≠ [])
    (hx : (isSpace x || isBreak x) = true) :
    (block ⟨List.replicate n ' ' ++ (w ++ ':' :: x :: rest), index, line, 0⟩ margins true
        ts).next? =
      some (pending ⟨':' :: x :: rest, index + n + w.length, line, n + w.length⟩
        (kept (n + 1) margins)
        ⟨(kept (n + 1) margins).headD 0 == n + 1, (closings (n + 1) margins ++ ts).length,
          index + n, line, n⟩
        (.scalar w true :: (closings (n + 1) margins ++ ts))) := by
  obtain ⟨x₀, w', rfl⟩ := List.exists_cons_of_ne_nil hne
  have hx₀ : isWordChar x₀ = true := hw x₀ List.mem_cons_self
  rw [List.cons_append, next?_block (beginsToken_of_isWordChar hx₀), token?_of_isWordChar rfl hx₀,
    plain?_block_of_keyAllowed]
  have hword (margin index column : Nat) :
      Cursor.takePlain? false margin ((w' ++ ':' :: x :: rest).length + 1) [] .empty
          ⟨x₀ :: (w' ++ ':' :: x :: rest), index, line, column⟩ =
        some ⟨x₀ :: w', false, ⟨':' :: x :: rest, index + (x₀ :: w').length, line,
          column + (x₀ :: w').length⟩⟩ :=
    Cursor.takePlain?_of_colon hw hne hx _
  simp only [List.length_cons, hword, Option.map_some, Nat.zero_add]
  rfl

lemma dropStale?_pending {place : KeyPlace} (h : isStale c place = false) :
    (pending c margins place ts).dropStale? = some (pending c margins place ts) := by
  simp [dropStale?, pending, block, h]

lemma insertAt_of_append (front : List Token) (h : l.produced = front ++ ts) (t : Token) :
    l.insertAt ts.length t = { l with produced := front ++ t :: ts } := by
  have hcount : l.count - ts.length = front.length := by
    rw [count, h, List.length_append, Nat.add_sub_cancel]
  rw [insertAt, hcount, h, List.take_left, List.drop_left]

lemma indent_pending {place : KeyPlace} (first : Nat) (t u : Token) :
    (pending c margins place (t :: u :: ts)).indent first ts.length .blockMappingStart =
      pending c (opened first margins) place (t :: u :: (openings first margins ++ ts)) := by
  -- The lexer keeps the innermost margin apart from the outer ones.
  have houter : margins.headD 0 :: (margins ++ [0]).tail = margins ++ [0] := by
    cases margins <;> rfl
  have hinsert := insertAt_of_append (l := pending c margins place (t :: u :: ts)) [t, u] rfl
    .blockMappingStart
  rw [indent, opened, openings, hinsert]
  by_cases h : margins.headD 0 ≤ first
  · rw [if_pos h, if_pos h]
    change (if margins.headD 0 ≤ first then _ else _) = _
    rw [if_pos h]
    change (⟨c, first + 1, margins.headD 0 :: (margins ++ [0]).tail, [some place], false,
      t :: u :: .blockMappingStart :: ts⟩ : Lexer) = _
    rw [houter]
    rfl
  · rw [if_neg h, if_neg h]
    change (if margins.headD 0 ≤ first then _ else _) = _
    rw [if_neg h]
    rfl

lemma value?_pending {required : Bool} {before first : Nat} (t : Token) :
    (pending ⟨':' :: rest, index, line, column⟩ margins
        ⟨required, ts.length, before, line, first⟩ (t :: ts)).value? =
      some (block ⟨rest, index + 1, line, column + 1⟩ (opened first margins) false
        (.value :: t :: .key :: (openings first margins ++ ts))) := by
  -- The key is put in front of the scalar, and the start of its mapping in front of the key.
  have hinsert := insertAt_of_append
    (l := pending ⟨':' :: rest, index, line, column⟩ margins
      ⟨required, ts.length, before, line, first⟩ (t :: ts)) [t] rfl .key
  change some (({ indent first ts.length .blockMappingStart (insertAt _ ts.length .key) with
    places := [none] }.take 1 .value).allowKey false) = _
  rw [hinsert]
  exact congrArg (fun l => some (({ l with places := [none] }.take 1 .value).allowKey false))
    (indent_pending first t .key)

/-- A colon behind it shows that it is one. -/
lemma next?_colon {required : Bool} {before first : Nat} (hindex : index ≤ before + 1024)
    (hcolumn : margins.headD 0 ≤ column + 1) (hx : (isSpace x || isBreak x) = true) (t : Token) :
    (pending ⟨':' :: x :: rest, index, line, column⟩ margins
        ⟨required, ts.length, before, line, first⟩ (t :: ts)).next? =
      some (block ⟨x :: rest, index + 1, line, column + 1⟩ (opened first margins) false
        (.value :: t :: .key :: (openings first margins ++ ts))) := by
  have hfresh : isStale ⟨':' :: x :: rest, index, line, column⟩
      ⟨required, ts.length, before, line, first⟩ = false := by
    simp [isStale, hindex]
  rw [next?_of_begins rfl (show beginsToken ':' = true by decide) (dropStale?_pending hfresh)
    hcolumn, token?_colon rfl hx, value?_pending]

/-- A key closes what is indented deeper and opens its mapping, if it is the first of it. -/
lemma run_key {n : Nat} {w : List Char} (hw : ∀ c ∈ w, isWordChar c = true) (hne : w ≠ [])
    (hlength : w.length ≤ 1024) (hx : (isSpace x || isBreak x) = true) :
    run (fuel + 2)
        (block ⟨List.replicate n ' ' ++ (w ++ ':' :: x :: rest), index, line, 0⟩ margins true ts) =
      run fuel (block ⟨x :: rest, index + n + w.length + 1, line, n + w.length + 1⟩
        (opened n (kept (n + 1) margins)) false
        (.value :: .scalar w true :: .key ::
          (openings n (kept (n + 1) margins) ++ (closings (n + 1) margins ++ ts)))) := by
  have hmargin : (kept (n + 1) margins).headD 0 ≤ n + w.length + 1 :=
    Nat.le_trans (headD_kept_le _ _) (by omega)
  rw [run_of_next? (next?_word hw hne hx) (by simp [pending, block]),
    run_of_next? (next?_colon (by omega) hmargin hx _) (by simp [block])]

/-- The next token behind a space on the line of a key. -/
lemma next?_value (hx : beginsToken x = true) (hcolumn : margins.headD 0 ≤ column) :
    (block ⟨' ' :: x :: rest, index, line, column⟩ margins keyAllowed ts).next? =
      (block ⟨x :: rest, index + 1, line, column + 1⟩ margins keyAllowed ts).token? x := by
  obtain ⟨hkept, hclosings⟩ := kept_of_le (show margins.headD 0 ≤ column + 1 + 1 by omega)
  rw [show ' ' :: x :: rest = List.replicate 1 ' ' ++ x :: rest from rfl, next?_block hx, hkept,
    hclosings, List.nil_append]

/-- A quoted text is read as it was, unless one of its characters is written by its number. -/
lemma run_quoted (s : String) (hcolumn : margins.headD 0 ≤ column) :
    run (fuel + 1)
        (block ⟨' ' :: ((quoted s).toList ++ rest), index, line, column⟩ margins false ts) =
      if s.toList.any isNumbered then ts.reverse ++ [.unreadable]
      else
        run fuel (block ⟨rest, index + 1 + (quoted s).toList.length, line,
          column + 1 + (quoted s).toList.length⟩ margins false (.scalar s.toList false :: ts)) := by
  have htext : (quoted s).toList ++ rest = '"' :: (s.toList.flatMap quoteChar ++ '"' :: rest) := by
    simp [quoted]
  have hnext : (block ⟨' ' :: ((quoted s).toList ++ rest), index, line, column⟩ margins false
        ts).next? =
      (Cursor.takeQuoted? '"' (s.toList.flatMap quoteChar ++ '"' :: rest).length.succ []
        ⟨s.toList.flatMap quoteChar ++ '"' :: rest, index + 2, line, column + 2⟩).map fun (s, c) =>
          block c margins false (.scalar s false :: ts) := by
    rw [htext, next?_value (by decide) hcolumn, token?_quote rfl, quoted?_block]
    rfl
  have hfuel : (s.toList.flatMap quoteChar).length <
      (s.toList.flatMap quoteChar ++ '"' :: rest).length.succ := by
    rw [List.length_append]
    omega
  rw [Cursor.takeQuoted?_quoted _ (by omega) hfuel, List.reverse_nil, List.nil_append] at hnext
  split
  next hnumbered =>
    rw [if_pos hnumbered] at hnext
    rw [run_of_next?_eq_none hnext, settled_block]
  next hnumbered =>
    rw [if_neg hnumbered, Option.map_some] at hnext
    have hlength : (quoted s).toList.length = (s.toList.flatMap quoteChar).length + 2 := by
      simp [quoted]
    -- the quotes around the text are two characters more
    have hbehind (n : Nat) : n + 2 + (s.toList.flatMap quoteChar).length + 1 =
        n + 1 + (quoted s).toList.length := by
      omega
    rw [run_of_next? hnext (by simp [block]), hbehind, hbehind]

/-- A word at the end of the line of its key. -/
lemma run_word {w : List Char} (hw : ∀ c ∈ w, isWordChar c = true) (hne : w ≠ [])
    (hrest : Cursor.GoesOn rest) (hmargins : margins.headD 0 ≠ 0)
    (hcolumn : margins.headD 0 ≤ column) :
    run (fuel + 1) (block ⟨' ' :: (w ++ '\n' :: rest), index, line, column⟩ margins false ts) =
      run fuel (block ⟨rest, index + 1 + w.length + 1, line + 1, 0⟩ margins true
        (.scalar w true :: ts)) := by
  obtain ⟨x₀, w', rfl⟩ := List.exists_cons_of_ne_nil hne
  have hx₀ : isWordChar x₀ = true := hw x₀ List.mem_cons_self
  have hnext : (block ⟨' ' :: (x₀ :: w' ++ '\n' :: rest), index, line, column⟩ margins false
        ts).next? =
      some (block ⟨rest, index + 1 + (x₀ :: w').length + 1, line + 1, 0⟩ margins true
        (.scalar (x₀ :: w') true :: ts)) := by
    rw [List.cons_append, next?_value (beginsToken_of_isWordChar hx₀) hcolumn,
      token?_of_isWordChar rfl hx₀, plain?_block]
    have hword : Cursor.takePlain? false (margins.headD 0) ((w' ++ '\n' :: rest).length + 1) []
          .empty ⟨x₀ :: (w' ++ '\n' :: rest), index + 1, line, column + 1⟩ =
        some ⟨x₀ :: w', true, ⟨rest, index + 1 + (x₀ :: w').length + 1, line + 1, 0⟩⟩ :=
      Cursor.takePlain?_of_break hw hne hrest hmargins _
    simp only [List.length_cons, hword, Option.map_some]
  exact run_of_next? hnext (by simp [block])

/-- An empty sequence on the line of its key. -/
lemma run_emptyList (hcolumn : margins.headD 0 ≤ column) :
    run (fuel + 2) (block ⟨' ' :: '[' :: ']' :: rest, index, line, column⟩ margins false ts) =
      run fuel (block ⟨rest, index + 3, line, column + 3⟩ margins false
        (.flowSequenceEnd :: .flowSequenceStart :: ts)) := by
  have hopen : (block ⟨' ' :: '[' :: ']' :: rest, index, line, column⟩ margins false ts).next? =
      some { block ⟨']' :: rest, index + 2, line, column + 2⟩ margins true
        (.flowSequenceStart :: ts) with places := [none, none] } := by
    rw [next?_value (by decide) hcolumn, token?_open rfl]
    rfl
  have hclose : next? { block ⟨']' :: rest, index + 2, line, column + 2⟩ margins true
        (.flowSequenceStart :: ts) with places := [none, none] } =
      some (block ⟨rest, index + 3, line, column + 3⟩ margins false
        (.flowSequenceEnd :: .flowSequenceStart :: ts)) := by
    rw [next?_of_begins rfl (show beginsToken ']' = true by decide) rfl
      (Nat.le_trans hcolumn (by simp [block]; omega)), token?_close rfl]
    rfl
  rw [run_of_next? hopen (by simp [block]), run_of_next? hclose (by simp [block])]

end Lexer

end TwoStage.Yaml
