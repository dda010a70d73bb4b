import TwoStage.Proofs.Yaml.Token.Block

/-!
# Outlines

An outline is a document of lines, each of them a remark or a key with what stands behind its colon.
Its text is read as the tokens that its lines spell, up to the first quoted text with a character
that is written by its number.
-/

namespace TwoStage.Yaml

open Text Lexer

/-- What stands behind the colon of a key. -/
inductive Held
  | nothing
  | word (w : String)
  | quoted (s : String)
  | emptyList

inductive Line
  | remark (text : String)
  | entry (indent : Nat) (key : String) (held : Held)

/-- A word that needs no quotes. -/
def IsWord (s : String) : Prop := s.toList ≠ [] ∧ ∀ c ∈ s.toList, isWordChar c = true

instance (s : String) : Decidable (IsWord s) :=
  decidable_of_iff (s.toList ≠ [] ∧ s.toList.all isWordChar = true) (by
    rw [IsWord, List.all_eq_true])

namespace Held

def text : Held → List Char
  | nothing   => []
  | word w    => ' ' :: w.toList
  | quoted s  => ' ' :: (Text.quoted s).toList
  | emptyList => [' ', '[', ']']

def IsSound : Held → Prop
  | word w => IsWord w
  | _      => True

/-- Nothing marks its end: it would go on in a line that is indented. -/
def IsOpen : Held → Prop
  | word _ => True
  | _      => False

def tokens? : Held → Option (List Token)
  | nothing   => some []
  | word w    => some [.scalar w.toList true]
  | quoted s  => if s.toList.any isNumbered then none else some [.scalar s.toList false]
  | emptyList => some [.flowSequenceStart, .flowSequenceEnd]

end Held

namespace Line

def text : Line → List Char
  | remark text      => text.toList
  | entry n key held => List.replicate n ' ' ++ (key.toList ++ ':' :: held.text)

def IsSound : Line → Prop
  | remark text      => IsRemark text.toList ∧ ∀ c ∈ text.toList, isAllowed c = true
  | entry _ key held => IsWord key ∧ key.toList.length ≤ 1024 ∧ held.IsSound

/-- Nothing marks the end of what the line holds. -/
def IsOpen : Line → Prop
  | entry _ _ held => held.IsOpen
  | _              => False

end Line

/-- The text can stand as a remark. -/
def isRemarkText (s : String) : Bool :=
  (s.toList.dropWhile (· == ' ')).head?.all (· == '#') &&
    s.toList.all fun c => isAllowed c && !isBreak c

lemma Line.isSound_remark {s : String} (h : isRemarkText s = true) : (remark s).IsSound := by
  rw [isRemarkText, Bool.and_eq_true, List.all_eq_true] at h
  obtain ⟨hhead, hall⟩ := h
  simp only [Bool.and_eq_true, Bool.not_eq_true'] at hall
  have hspaces : s.toList.takeWhile (· == ' ') =
      List.replicate (s.toList.takeWhile (· == ' ')).length ' ' :=
    List.eq_replicate_iff.2 ⟨rfl, fun c hc => by simpa using List.mem_takeWhile_imp hc⟩
  refine ⟨⟨(s.toList.takeWhile (· == ' ')).length, s.toList.dropWhile (· == ' '), ?_, ?_, ?_⟩,
    fun c hc => (hall c hc).1⟩
  · rw [← hspaces, List.takeWhile_append_dropWhile]
  · intro x hx
    rw [hx] at hhead
    exact eq_of_beq hhead
  · exact fun c hc => (hall c ((List.dropWhile_sublist _).subset hc)).2

namespace Outline

def text : List Line → List Char
  | []            => []
  | line :: lines => line.text ++ '\n' :: text lines

def IsSound : List Line → Prop
  | []            => True
  | line :: lines =>
    line.IsSound ∧ (line.IsOpen → Cursor.GoesOn (text lines)) ∧ IsSound lines

/-- The tokens that the lines spell, by the margins of the mappings that are open. -/
def spelled : List Nat → List Line → List Token
  | margins, []                        =>
    List.replicate margins.length .blockEnd ++ [.streamEnd]
  | margins, .remark _ :: lines        => spelled margins lines
  | margins, .entry n key held :: lines =>
    closings (n + 1) margins ++ (openings n (kept (n + 1) margins) ++
      [.key, .scalar key.toList true, .value] ++
        match held.tokens? with
        | some ts => ts ++ spelled (opened n (kept (n + 1) margins)) lines
        | none    => [.unreadable])

variable {lines : List Line} {margins : List Nat} {n fuel index line column : Nat}

/-! ### Texts -/

lemma text_eq_flatMap (lines : List Line) :
    text lines = (lines.map Line.text).flatMap (· ++ ['\n']) := by
  induction lines with
  | nil => rfl
  | cons l lines ih => simp [text, ih]

/-- The text of an outline, from the texts of its lines. -/
lemma toList_join_lines {texts : List String} (h : lines.map Line.text = texts.map String.toList) :
    (String.join (texts.map fun l => l ++ "\n")).toList = text lines := by
  rw [String.toList_join, text_eq_flatMap, h]
  simp [List.flatMap_map]

/-- Remarks spell nothing. -/
lemma spelled_remarks (margins : List Nat) (remarks : List String) (lines : List Line) :
    spelled margins (remarks.map .remark ++ lines) = spelled margins lines := by
  induction remarks with
  | nil => rfl
  | cons r remarks ih => exact ih

lemma isSound_remarks {remarks : List String} (hremarks : ∀ r ∈ remarks, isRemarkText r = true)
    (h : IsSound lines) : IsSound (remarks.map .remark ++ lines) := by
  induction remarks with
  | nil => exact h
  | cons r remarks ih =>
    rw [List.forall_mem_cons] at hremarks
    exact ⟨Line.isSound_remark hremarks.1, False.elim, ih hremarks.2⟩

/-! ### Allowed characters -/

lemma isAllowed_of_mem_held {held : Held} (h : held.IsSound) {c : Char} (hc : c ∈ held.text) :
    isAllowed c = true := by
  cases held with
  | nothing => simp [Held.text] at hc
  | word w =>
    rcases List.mem_cons.1 hc with rfl | hc
    · decide
    · exact isAllowed_of_isWordChar (h.2 c hc)
  | quoted s =>
    rcases List.mem_cons.1 hc with rfl | hc
    · decide
    · exact isAllowed_of_mem_quoted hc
  | emptyList =>
    have hall : [' ', '[', ']'].all isAllowed = true := by decide
    exact List.all_eq_true.1 hall c hc

lemma isAllowed_of_mem_line {l : Line} (h : l.IsSound) {c : Char} (hc : c ∈ l.text) :
    isAllowed c = true := by
  cases l with
  | remark text => exact h.2 c hc
  | entry n key held =>
    rw [Line.text, List.mem_append, List.mem_append, List.mem_cons] at hc
    rcases hc with hc | hc | rfl | hc
    · obtain rfl := List.eq_of_mem_replicate hc
      decide
    · exact isAllowed_of_isWordChar (h.1.2 c hc)
    · decide
    · exact isAllowed_of_mem_held h.2.2 hc

lemma isAllowed_of_mem_text (h : IsSound lines) {c : Char} (hc : c ∈ text lines) :
    isAllowed c = true := by
  induction lines with
  | nil => simp [text] at hc
  | cons l lines ih =>
    rw [text, List.mem_append, List.mem_cons] at hc
    rcases hc with hc | rfl | hc
    · exact isAllowed_of_mem_line h.1 hc
    · decide
    · exact ih h.2.2 hc

/-! ### Margins -/

lemma headD_opened_le (margins : List Nat) :
    (opened n (kept (n + 1) margins)).headD 0 ≤ n + 1 := by
  rw [opened]
  split
  · exact Nat.le_refl _
  · exact headD_kept_le _ _

lemma headD_opened_ne_zero (margins : List Nat) : (opened n margins).headD 0 ≠ 0 := by
  rw [opened]
  split
  · exact Nat.succ_ne_zero n
  · omega

lemma forall_mem_opened (h : ∀ m ∈ margins, 0 < m) :
    ∀ m ∈ opened n (kept (n + 1) margins), 0 < m := by
  have hkept : ∀ m ∈ kept (n + 1) margins, 0 < m := fun m hm =>
    h m ((List.dropWhile_sublist _).subset hm)
  rw [opened]
  split
  · exact List.forall_mem_cons.2 ⟨Nat.succ_pos n, hkept⟩
  · exact hkept

/-! ### Reading -/

lemma reverse_closings (limit : Nat) (margins : List Nat) :
    (closings limit margins).reverse = closings limit margins := List.reverse_replicate ..

lemma reverse_openings (column : Nat) (margins : List Nat) :
    (openings column margins).reverse = openings column margins := by
  rw [openings]
  split <;> rfl

lemma isRemark_nil : IsRemark [] := ⟨0, [], rfl, by simp, by simp⟩

lemma exists_blank_held (held : Held) (rest : List Char) :
    ∃ x tail, held.text ++ '\n' :: rest = x :: tail ∧ (isSpace x || isBreak x) = true := by
  cases held with
  | nothing => exact ⟨'\n', rest, rfl, by decide⟩
  | word _ | quoted _ | emptyList => exact ⟨' ', _, rfl, by decide⟩

/-- What stands behind a colon is read to the end of its line, with a step for each character at the
most. -/
lemma run_held_of_some {held : Held} {ts us : List Token} {rest : List Char} {out : List Token}
    (hus : held.tokens? = some us) (h : held.IsSound) (hrest : held.IsOpen → Cursor.GoesOn rest)
    (hmargins : margins.headD 0 ≠ 0) (hcolumn : margins.headD 0 ≤ column)
    (hfuel : held.text.length ≤ fuel)
    (hgo : ∀ fuel' index line, fuel ≤ fuel' + held.text.length →
      run fuel' (block ⟨rest, index, line, 0⟩ margins true (us.reverse ++ ts)) = out) :
    run fuel (block ⟨held.text ++ '\n' :: rest, index, line, column⟩ margins false ts) = out := by
  cases held with
  | nothing =>
    obtain rfl := Option.some.inj hus
    exact (run_remark isRemark_nil).trans (hgo _ _ _ (by simp))
  | word w =>
    obtain rfl := Option.some.inj hus
    simp only [Held.text, List.length_cons] at hfuel hgo
    obtain ⟨fuel, rfl⟩ := Nat.exists_eq_add_one.2 (Nat.lt_of_lt_of_le (Nat.succ_pos _) hfuel)
    -- a plain word would go on in the next line if that one did not start at the margin
    exact (run_word h.2 h.1 (hrest trivial) hmargins hcolumn).trans (hgo _ _ _ (by omega))
  | quoted s =>
    rw [Held.tokens?] at hus
    split at hus
    next => simp at hus
    next hnumbered =>
      obtain rfl := Option.some.inj hus
      simp only [Held.text, List.length_cons] at hfuel hgo
      obtain ⟨fuel, rfl⟩ := Nat.exists_eq_add_one.2 (Nat.lt_of_lt_of_le (Nat.succ_pos _) hfuel)
      refine ((run_quoted s hcolumn).trans (if_neg hnumbered)).trans ?_
      exact (run_remark isRemark_nil).trans (hgo _ _ _ (by omega))
  | emptyList =>
    obtain rfl := Option.some.inj hus
    simp only [Held.text, List.length_cons, List.length_nil] at hfuel hgo
    obtain ⟨fuel, rfl⟩ := Nat.exists_eq_add_of_le' (show 2 ≤ fuel by omega)
    exact (run_emptyList hcolumn).trans ((run_remark isRemark_nil).trans (hgo _ _ _ (by omega)))

lemma run_held_of_none {held : Held} {ts : List Token} {rest : List Char}
    (hus : held.tokens? = none) (hcolumn : margins.headD 0 ≤ column)
    (hfuel : held.text.length ≤ fuel) :
    run fuel (block ⟨held.text ++ '\n' :: rest, index, line, column⟩ margins false ts) =
      ts.reverse ++ [.unreadable] := by
  cases held with
  | nothing | word _ | emptyList => simp [Held.tokens?] at hus
  | quoted s =>
    rw [Held.tokens?] at hus
    split at hus
    next hnumbered =>
      simp only [Held.text, List.length_cons] at hfuel
      obtain ⟨fuel, rfl⟩ := Nat.exists_eq_add_one.2 (Nat.lt_of_lt_of_le (Nat.succ_pos _) hfuel)
      exact (run_quoted s hcolumn).trans (if_pos hnumbered)
    next => simp at hus

/-- The lexer is run over one line after another. Between two lines nothing is left of it but the
margins of the mappings that are open. -/
lemma run_text (h : IsSound lines) (hmargins : ∀ m ∈ margins, 0 < m) {ts : List Token}
    (hfuel : (text lines).length < fuel) :
    run fuel (block ⟨text lines, index, line, 0⟩ margins true ts) =
      ts.reverse ++ spelled margins lines := by
  induction lines generalizing fuel index line margins ts with
  | nil =>
    obtain ⟨fuel, rfl⟩ := Nat.exists_eq_add_one.2 (Nat.zero_lt_of_lt hfuel)
    rw [text, run_end hmargins, spelled, List.append_assoc]
  | cons l lines ih =>
    obtain ⟨hline, hopen, hlines⟩ := h
    rw [text, List.length_append, List.length_cons] at hfuel
    cases l with
    | remark remark =>
      rw [text, Line.text, run_remark hline.1, ih hlines hmargins (by omega), spelled]
    | entry n key held =>
      obtain ⟨hkey, hlength, hheld⟩ := hline
      rw [Line.text, List.length_append, List.length_append, List.length_cons] at hfuel
      have hpos := List.length_pos_iff.2 hkey.1
      -- The key and the colon take a step each, and have at least one character each.
      obtain ⟨fuel, rfl⟩ := Nat.exists_eq_add_of_le' (show 2 ≤ fuel by omega)
      obtain ⟨x, tail, hx, hblank⟩ := exists_blank_held held (text lines)
      have hcolumn : (opened n (kept (n + 1) margins)).headD 0 ≤ n + key.toList.length + 1 :=
        Nat.le_trans (headD_opened_le margins) (by omega)
      have hreverse : (Token.value :: .scalar key.toList true :: .key ::
            (openings n (kept (n + 1) margins) ++ (closings (n + 1) margins ++ ts))).reverse =
          ts.reverse ++ (closings (n + 1) margins ++ (openings n (kept (n + 1) margins) ++
            [.key, .scalar key.toList true, .value])) := by
        simp [reverse_closings, reverse_openings]
      rw [text, Line.text, List.append_assoc, List.append_assoc, List.cons_append, hx,
        run_key hkey.2 hkey.1 hlength hblank, ← hx, spelled]
      -- a value that cannot be read ends the run, and behind any other one the next line follows
      cases hus : held.tokens? with
      | none =>
        rw [run_held_of_none hus hcolumn (by omega), hreverse]
        simp only [List.append_assoc]
      | some us =>
        refine run_held_of_some hus hheld hopen (headD_opened_ne_zero _) hcolumn (by omega) ?_
        intro fuel' index line hle
        rw [ih hlines (forall_mem_opened hmargins) (by omega), List.reverse_append, hreverse,
          List.reverse_reverse]
        simp only [List.append_assoc]

/-- An outline is read as the tokens that it spells. -/
lemma tokens_text (h : IsSound lines) : tokens (text lines) = spelled [] lines := by
  have hallowed : (text lines).all isAllowed = true :=
    List.all_eq_true.2 fun c hc => isAllowed_of_mem_text h hc
  rw [tokens, if_pos hallowed]
  change run _ (block ⟨text lines, 0, 0, 0⟩ [] true []) = _
  exact run_text h (by simp) (by omega)

end Outline

end TwoStage.Yaml
