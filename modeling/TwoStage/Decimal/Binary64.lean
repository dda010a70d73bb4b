import TwoStage.Decimal.Numeral

/-!
# Numbers in 64-bit binary floating point

A finite number is `± m · 2 ^ e` with `m < 2 ^ 53` and `-1074 ≤ e`; it is in lowest form when
`2 ^ 52 ≤ m` or `e = -1074`. Reading a decimal rounds to the nearest such number, ties going to
the even `m`.
-/

namespace TwoStage.Decimal

/-- A number in 64-bit binary floating point. -/
inductive Binary64
  | nan
  | infinite (negative : Bool)
  | finite (negative : Bool) (m : Nat) (e : Int)
deriving DecidableEq, Repr

namespace Binary64

/-- Zero has two signs. -/
def isZero : Binary64 → Bool
  | .finite _ m _ => m == 0
  | _             => false

def isFinite : Binary64 → Bool
  | .finite .. => true
  | _          => false

/-- Numeric equality: the two zeros agree, and so do NaNs. -/
def same (x y : Binary64) : Bool := x == y || (x.isZero && y.isZero)

/-- The quotient rounded to the nearest integer, a half going to the even neighbour. -/
def roundDiv (num den : Nat) : Nat :=
  let q := num / den
  let r := num % den
  if 2 * r < den then q
  else if den < 2 * r then q + 1
  else if q % 2 = 0 then q else q + 1

/-- The exponent `e` for which `num / den` lies in `[2 ^ (e + 52), 2 ^ (e + 53))`, or the least
exponent there is. -/
def exponentOf (num den : Nat) : Int :=
  let guess : Int := (num.log2 : Int) - (den.log2 : Int) - 52
  -- the quotient of two numbers is less than one binary place off the quotient of their logs
  let below : Bool :=
    if 0 ≤ guess + 52 then num < den * Nat.pow 2 (guess + 52).toNat
    else num * Nat.pow 2 (-(guess + 52)).toNat < den
  max (if below then guess - 1 else guess) (-1074)

/-- The nearest number to `num / den`. -/
def ofQuotient (negative : Bool) (num den : Nat) : Binary64 :=
  if num = 0 then .finite negative 0 (-1074)
  else
    let e := exponentOf num den
    let m :=
      if 0 ≤ e then roundDiv num (den * Nat.pow 2 e.toNat)
      else roundDiv (num * Nat.pow 2 (-e).toNat) den
    let (m, e) := if m = Nat.pow 2 53 then (Nat.pow 2 52, e + 1) else (m, e)
    if 971 < e then .infinite negative else .finite negative m e

/-- The nearest number to `n · 10 ^ scale`. Scales beyond every exponent need no exact power. -/
def ofDecimal (negative : Bool) (n : Nat) (scale : Int) : Binary64 :=
  let size := (digits n).length
  if n = 0 then .finite negative 0 (-1074)
  else if 400 < scale + size then .infinite negative
  else if scale + size < -400 then .finite negative 0 (-1074)
  else if 0 ≤ scale then ofQuotient negative (n * Nat.pow 10 scale.toNat) 1
  else ofQuotient negative n (Nat.pow 10 (-scale).toNat)

/-- Split off an exponent part, whose sign is optional. -/
def readExponent? : List Char → Option Int
  | []        => some 0
  | c :: rest =>
    if c = 'e' ∨ c = 'E' then
      match rest with
      | '-' :: ds => (ofDigits? 10 ds).map fun n => -(n : Int)
      | '+' :: ds => (ofDigits? 10 ds).map fun n => (n : Int)
      | ds        => (ofDigits? 10 ds).map fun n => (n : Int)
    else none

/-- An unsigned decimal: digits, with a point somewhere among or beside them, then an exponent. -/
def readUnsigned? (negative : Bool) (cs : List Char) : Option Binary64 :=
  let whole := cs.takeWhile Char.isDigit
  let rest := cs.dropWhile Char.isDigit
  let (fraction, rest) :=
    match rest with
    | '.' :: more => (more.takeWhile Char.isDigit, more.dropWhile Char.isDigit)
    | rest        => ([], rest)
  match ofDigits? 10 (whole ++ fraction), readExponent? rest with
  | some n, some e => some (ofDecimal negative n (e - fraction.length))
  | _, _           => none

/-- A decimal with an optional sign. -/
def read? : List Char → Option Binary64
  | '-' :: cs => readUnsigned? true cs
  | '+' :: cs => readUnsigned? false cs
  | cs        => readUnsigned? false cs

end Binary64

end TwoStage.Decimal
