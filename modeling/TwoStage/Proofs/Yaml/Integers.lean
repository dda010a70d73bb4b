import TwoStage.Proofs.Text.Split
import TwoStage.Yaml.Decode
import TwoStage.Yaml.Reader

/-!
# Integers in documents

An integer is written by its decimal digits, behind a minus sign if it is negative. As a word of a
document this means the integer itself as long as that fits into 64 bits, and nothing that a numeric
field takes otherwise. As a text a numeric field reads the integer back.
-/

namespace TwoStage

open Decimal Text

/-! ### Digits -/

namespace Decimal

lemma digitValue?_digitChar {d : Nat} (h : d < 10) :
    digitValue? 10 (Nat.digitChar d) = some d := by
  have hall : ∀ d < 10, digitValue? 10 (Nat.digitChar d) = some d := by decide
  exact hall d h

lemma readDigits?_append (base n : Nat) (cs ds : List Char) :
    readDigits? base n (cs ++ ds) =
      (readDigits? base n cs).bind fun m => readDigits? base m ds := by
  induction cs generalizing n with
  | nil => rfl
  | cons c cs ih =>
    rw [List.cons_append, readDigits?, readDigits?]
    cases digitValue? base c with
    | none => rfl
    | some d => exact ih _

lemma digits_eq (n : Nat) :
    digits n = if n < 10 then [Nat.digitChar n] else digits (n / 10) ++ [Nat.digitChar (n % 10)] :=
  Nat.toDigits_eq_if (by decide)

lemma readDigits?_digits (n : Nat) : readDigits? 10 0 (digits n) = some n := by
  induction n using Nat.strongRecOn with
  | ind n ih =>
    rw [digits_eq]
    split
    next hn => simp [readDigits?, digitValue?_digitChar hn]
    next hn =>
      have hmod : n % 10 < 10 := Nat.mod_lt n (by decide)
      rw [readDigits?_append, ih (n / 10) (by omega), Option.bind_some, readDigits?,
        digitValue?_digitChar hmod]
      simp only [readDigits?, Option.some.injEq]
      omega

lemma digits_ne_nil (n : Nat) : digits n ≠ [] := Nat.toDigits_ne_nil

/-- The digits of a number are read back. -/
lemma ofDigits?_digits (n : Nat) : ofDigits? 10 (digits n) = some n := by
  rw [ofDigits?, if_neg (digits_ne_nil n), readDigits?_digits]

lemma isDigit_of_mem_digits {n : Nat} {c : Char} (h : c ∈ digits n) : c.isDigit = true :=
  Nat.isDigit_of_mem_toDigits (by decide) (by decide) h

/-- The first digit is zero for zero only. -/
lemma digits_eq_zero_cons {n : Nat} {cs : List Char} (h : digits n = '0' :: cs) : cs = [] := by
  induction n using Nat.strongRecOn generalizing cs with
  | ind n ih =>
    rw [digits_eq] at h
    split at h
    next => exact (List.cons.inj h).2.symm
    next hn =>
      obtain ⟨d, ds, hds⟩ := List.exists_cons_of_ne_nil (digits_ne_nil (n / 10))
      rw [hds, List.cons_append] at h
      obtain ⟨rfl, -⟩ := List.cons.inj h
      obtain rfl := ih (n / 10) (by omega) hds
      have hzero := readDigits?_digits (n / 10)
      rw [hds] at hzero
      have hdiv : n / 10 = 0 := (Option.some.inj hzero).symm
      omega

end Decimal

/-! ### Plain words -/

namespace Yaml

namespace Meaning

/-- A word of digits, and a minus sign at most. -/
def IsNumeral (cs : List Char) : Prop := ∀ c ∈ cs, c.isDigit = true ∨ c = '-'

lemma isNumeral_digits (n : Nat) : IsNumeral (digits n) := fun _ hc =>
  .inl (isDigit_of_mem_digits hc)

lemma isNumeral_intText (n : Int) : IsNumeral (intText n).toList := by
  cases n with
  | ofNat m =>
    rw [intText, String.toList_ofList]
    exact isNumeral_digits m
  | negSucc m =>
    rw [intText, String.toList_ofList, IsNumeral, List.forall_mem_cons]
    exact ⟨.inr rfl, isNumeral_digits (m + 1)⟩

lemma intText_toList_ne_nil (n : Int) : (intText n).toList ≠ [] := by
  cases n with
  | ofNat m => simpa [intText] using digits_ne_nil m
  | negSucc m => simp [intText]

/-- A numeral is none of the words. -/
lemma IsNumeral.ne {cs : List Char} (h : IsNumeral cs) (word : String)
    (hword : word.toList.all (fun c => c.isDigit || c == '-') = false) :
    String.ofList cs ≠ word := by
  rintro rfl
  have hall : cs.all (fun c => c.isDigit || c == '-') = true :=
    List.all_eq_true.2 fun c hc => by simpa using h c hc
  simp [hall] at hword

lemma IsNumeral.isNullWord {cs : List Char} (h : IsNumeral cs) : isNullWord cs = false := by
  have hnull := h.ne "null" (by decide)
  have hNull := h.ne "Null" (by decide)
  have hNULL := h.ne "NULL" (by decide)
  have htilde := h.ne "~" (by decide)
  simp [Meaning.isNullWord, hnull, hNull, hNULL, htilde]

lemma IsNumeral.boolWord? {cs : List Char} (h : IsNumeral cs) : boolWord? cs = none := by
  have htrue := h.ne "true" (by decide)
  have hTrue := h.ne "True" (by decide)
  have hTRUE := h.ne "TRUE" (by decide)
  have hfalse := h.ne "false" (by decide)
  have hFalse := h.ne "False" (by decide)
  have hFALSE := h.ne "FALSE" (by decide)
  simp [Meaning.boolWord?, htrue, hTrue, hTRUE, hfalse, hFalse, hFALSE]

lemma based?_of_isDigit {cs : List Char} (h : ∀ c ∈ cs, c.isDigit = true) : based? cs = none := by
  unfold based?
  split
  next => exact absurd (h 'x' (by simp)) (by decide)
  next => exact absurd (h 'o' (by simp)) (by decide)
  next => exact absurd (h 'b' (by simp)) (by decide)
  next => rfl

lemma hasLeadingZero_digits (n : Nat) : hasLeadingZero (digits n) = false := by
  have hsign {c : Char} {cs : List Char} (h : digits n = c :: cs) : c.isDigit = true :=
    isDigit_of_mem_digits (h ▸ List.mem_cons_self)
  unfold hasLeadingZero
  split
  next heq => exact absurd (hsign heq) (by decide)
  next heq => exact absurd (hsign heq) (by decide)
  next =>
    dsimp only
    split
    next heq => simpa using digits_eq_zero_cons heq
    next => rfl

lemma natural?_digits (n : Nat) : natural? (digits n) = some n := by
  unfold natural?
  split
  next heq =>
    have hplus := isDigit_of_mem_digits (n := n) (heq ▸ List.mem_cons_self)
    exact absurd hplus (by decide)
  next =>
    simp only [based?_of_isDigit fun _ hc => isDigit_of_mem_digits hc, hasLeadingZero_digits,
      ofDigits?_digits, Bool.false_eq_true, if_false]

lemma natural?_minus (cs : List Char) : natural? ('-' :: cs) = none := by
  simp [natural?, based?, ofDigits?, readDigits?, digitValue?]

lemma negated?_digits (n : Nat) : negated? ('-' :: digits n) = some n := by
  simp only [negated?, based?_of_isDigit fun _ hc => isDigit_of_mem_digits hc,
    hasLeadingZero_digits, ofDigits?_digits, Bool.false_eq_true, if_false]

/-- What the integer that a word writes means, whatever its size. -/
lemma integer?_intText (n : Int) :
    (0 ≤ n ∧ n < Nat.pow 2 64 → integer? (intText n).toList = some (.value (.int n))) ∧
      (integer? (intText n).toList = some (.value (.int n)) ∨
        integer? (intText n).toList = some .tooWide ∨ integer? (intText n).toList = none) := by
  cases n with
  | ofNat m =>
    simp only [intText, String.toList_ofList, integer?, natural?_digits]
    constructor
    · rintro ⟨-, hlt⟩
      rw [if_pos (Int.ofNat_lt.1 hlt)]
      rfl
    · split
      next => exact .inl rfl
      next => split <;> simp
  | negSucc m =>
    simp only [intText, String.toList_ofList, integer?, natural?_minus, negated?_digits]
    constructor
    · rintro ⟨hpos, -⟩
      omega
    · split
      next => exact .inl rfl
      next => split <;> simp

/-- The word of an integer is an integer, a floating point number or a text. -/
lemma ofPlain_eq (n : Int) :
    ofPlain (intText n).toList =
      match integer? (intText n).toList with
      | some m => m
      | none   =>
        match if hasLeadingZero (intText n).toList then none else float? (intText n).toList with
        | some x => .value (.number (.float x))
        | none   => .value (.text (intText n)) := by
  have hnumeral := isNumeral_intText n
  have hword : ¬ ((intText n).toList = [] ∨ isNullWord (intText n).toList = true) := by
    rintro (hnil | hnull)
    · exact intText_toList_ne_nil n hnil
    · simp [hnumeral.isNullWord] at hnull
  rw [ofPlain, if_neg hword, hnumeral.boolWord?]
  cases integer? (intText n).toList with
  | some m => rfl
  | none =>
    cases if hasLeadingZero (intText n).toList then none else float? (intText n).toList with
    | some x => rfl
    | none => exact congrArg (fun s => value (.text s)) String.ofList_toList

/-- An integer without a sign that fits into 64 bits means itself. -/
lemma ofPlain_intText {n : Int} (h : 0 ≤ n ∧ n < Nat.pow 2 64) :
    ofPlain (intText n).toList = .value (.int n) := by
  rw [ofPlain_eq, (integer?_intText n).1 h]

/-- An integer means itself, an approximation or no number. -/
lemma eq_of_ofPlain_intText {n : Int} {t : Tree} (h : ofPlain (intText n).toList = .value t) :
    t = .int n ∨ (∃ x, t = .number (.float x)) ∨ t = .text (intText n) := by
  rw [ofPlain_eq] at h
  rcases (integer?_intText n).2 with hint | hint | hint
  · rw [hint] at h
    exact .inl (Meaning.value.inj h).symm
  · simp [hint] at h
  · rw [hint] at h
    dsimp only at h
    split at h
    next x _ => exact .inr (.inl ⟨x, (Meaning.value.inj h).symm⟩)
    next => exact .inr (.inr (Meaning.value.inj h).symm)

end Meaning

/-! ### Numeric fields -/

namespace Decode

variable {limit : Nat} {n : Int} {t : Tree}

def within? (limit : Nat) (n : Int) : Option Nat :=
  if 0 ≤ n ∧ n ≤ limit then some n.toNat else none

lemma within?_eq_none_iff : within? limit n = none ↔ ¬ (0 ≤ n ∧ n ≤ limit) := by
  simp [within?]

lemma toOption_numeric_int (limit : Nat) (n : Int) :
    (numeric limit (.int n)).toOption = within? limit n := by
  cases n with
  | ofNat m =>
    have hread : numeric limit (.int (.ofNat m)) =
        if m ≤ limit then .ok m else .error (.outOfRange m) := rfl
    rw [hread, within?]
    split
    next hm => simp [hm, Except.toOption]
    next hm => simp [hm, Except.toOption]
  | negSucc m => rfl

/-- A numeric field reads digits with blanks around them. -/
lemma numeric_text {limit : Nat} {s : String} :
    (∀ m, ofSignedDigits? 10 (trimBoth s.toList) = some m →
      numeric limit (.text s) = if m ≤ limit then .ok m else .error (.notNumeric s)) ∧
    (ofSignedDigits? 10 (trimBoth s.toList) = none →
      numeric limit (.text s) = .error (.notNumeric s)) := by
  constructor
  · intro m h
    simp [numeric, firstOf, Tree.hasTag, h, bind, Except.bind]
  · intro h
    simp [numeric, firstOf, Tree.hasTag, h, bind, Except.bind]

/-- A numeric field reads the text of an integer as the integer. -/
lemma toOption_numeric_text (limit : Nat) (n : Int) :
    (numeric limit (.text (intText n))).toOption = within? limit n := by
  have hblank : trimBoth (intText n).toList = (intText n).toList :=
    trimBoth_of_forall fun c hc => by
      rcases Meaning.isNumeral_intText n c hc with hdigit | rfl
      · exact isBlank_of_isAlphanum (by simp [Char.isAlphanum, hdigit])
      · decide
  cases n with
  | ofNat m =>
    have hsigned : ofSignedDigits? 10 (digits m) = some m := by
      unfold ofSignedDigits?
      split
      next heq =>
        have hplus := isDigit_of_mem_digits (n := m) (heq ▸ List.mem_cons_self)
        exact absurd hplus (by decide)
      next => exact ofDigits?_digits m
    rw [numeric_text.1 m (by rwa [hblank, intText, String.toList_ofList]), within?]
    split
    next hm => simp [hm, Except.toOption]
    next hm => simp [hm, Except.toOption]
  | negSucc m =>
    have hsigned : ofSignedDigits? 10 ('-' :: digits (m + 1)) = none := by
      simp [ofSignedDigits?, ofDigits?, readDigits?, digitValue?]
    rw [numeric_text.2 (by rwa [hblank, intText, String.toList_ofList])]
    rfl

/-- A numeric field reads the word of an integer as the integer. -/
lemma toOption_numeric_of_ofPlain (hlimit : limit < Nat.pow 2 64)
    (h : Meaning.ofPlain (intText n).toList = .value t) :
    (numeric limit t).toOption = within? limit n := by
  by_cases hn : 0 ≤ n ∧ n ≤ limit
  · have hint : t = .int n := by
      have hplain := Meaning.ofPlain_intText ⟨hn.1, Int.lt_of_le_of_lt hn.2 (Int.ofNat_lt.2 hlimit)⟩
      exact (Meaning.value.inj (hplain.symm.trans h)).symm
    rw [hint, toOption_numeric_int]
  · rcases Meaning.eq_of_ofPlain_intText h with rfl | ⟨x, rfl⟩ | rfl
    · exact toOption_numeric_int limit n
    · rw [within?_eq_none_iff.2 hn]
      rfl
    · exact toOption_numeric_text limit n

end Decode

end Yaml

end TwoStage
