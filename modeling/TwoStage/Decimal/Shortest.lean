import TwoStage.Decimal.Binary64

/-!
# The shortest decimal that reads back

Around a floating point number lies the interval of reals that round to it, its ends included
when the number's `m` is even. Of the grids of 1, 2, … 17 decimal digits the first one that
meets the interval is taken, and on it the point nearest to the number.
-/

namespace TwoStage.Decimal

/-- `digits · 10 ^ scale`, a positive decimal. -/
structure Point where
  digits : Nat
  scale : Int
deriving DecidableEq, Repr

namespace Point

/-- The point as a fraction over the denominator `den`, compared with `num / den`. -/
def compareTo (p : Point) (num den : Nat) : Ordering :=
  if 0 ≤ p.scale then compare (p.digits * Nat.pow 10 p.scale.toNat * den) num
  else compare (p.digits * den) (num * Nat.pow 10 (-p.scale).toNat)

/-- Drop the zeros at the end of the digits. -/
def strip : Nat → Point → Point
  | 0,     p => p
  | n + 1, p =>
    if p.digits % 10 = 0 ∧ p.digits ≠ 0 then strip n ⟨p.digits / 10, p.scale + 1⟩ else p

end Point

/-- How far the point moves until the fraction reaches one, at most `fuel` places. -/
def placesToOne (num den : Nat) : Nat → Nat → Nat
  | 0,        t => t
  | fuel + 1, t => if den ≤ num * Nat.pow 10 t then t else placesToOne num den fuel (t + 1)

/-- The `E` with `10 ^ (E - 1) ≤ num / den < 10 ^ E`. -/
def magnitude (num den : Nat) : Int :=
  if den ≤ num then ((digits (num / den)).length : Int) else 1 - (placesToOne num den 400 0 : Int)

/-- The interval of reals that round to `m · 2 ^ e`, and the number itself, over one denominator. -/
structure Neighbourhood where
  low : Nat
  mid : Nat
  high : Nat
  den : Nat
  closed : Bool

/-- The reals that round to `m · 2 ^ e`; below a power of two the gap is half as wide. -/
def neighbourhood (m : Nat) (e : Int) : Neighbourhood :=
  let up := Nat.pow 2 (e - 2).toNat
  let low := if m = Nat.pow 2 52 ∧ -1074 < e then 4 * m - 1 else 4 * m - 2
  { low := low * up, mid := 4 * m * up, high := (4 * m + 2) * up,
    den := Nat.pow 2 (2 - e).toNat, closed := m % 2 = 0 }

namespace Neighbourhood

/-- The decimal rounds to the number. -/
def holds (w : Neighbourhood) (p : Point) : Bool :=
  match p.compareTo w.low w.den, p.compareTo w.high w.den with
  | .gt, .lt => true
  | .eq, _   => w.closed
  | _, .eq   => w.closed
  | _, _     => false

/-- The grid point of the given scale just below the number, as a count of steps. -/
def stepsBelow (w : Neighbourhood) (scale : Int) : Nat :=
  if 0 ≤ scale then w.mid / (w.den * Nat.pow 10 scale.toNat)
  else w.mid * Nat.pow 10 (-scale).toNat / w.den

/-- The lower of the two grid points around the number is the nearer one; of two equally near
ones the even one counts as nearer. -/
def lowerIsNearer (w : Neighbourhood) (scale : Int) (steps : Nat) : Bool :=
  match (Point.mk (10 * steps + 5) (scale - 1)).compareTo w.mid w.den with
  | .gt => true
  | .lt => false
  | .eq => steps % 2 = 0

/-- The nearest point of the grid with `k` digits, if it or its neighbour rounds to the number. -/
def onGrid? (w : Neighbourhood) (k : Nat) : Option Point :=
  let scale := magnitude w.mid w.den - k
  let steps := w.stepsBelow scale
  let lower : Point := ⟨steps, scale⟩
  let upper : Point := ⟨steps + 1, scale⟩
  match steps ≠ 0 && w.holds lower, w.holds upper with
  | true, true   => some (if w.lowerIsNearer scale steps then lower else upper)
  | true, false  => some lower
  | false, true  => some upper
  | false, false => none

/-- The first grid from `k` digits on that meets the interval; seventeen digits always do. -/
def firstGrid (w : Neighbourhood) : Nat → Nat → Point
  | 0,        k => ⟨w.stepsBelow (magnitude w.mid w.den - k), magnitude w.mid w.den - k⟩
  | fuel + 1, k =>
    match w.onGrid? k with
    | some p => p
    | none   => firstGrid w fuel (k + 1)

end Neighbourhood

/-- The shortest decimal that rounds to `m · 2 ^ e`, for positive `m`. -/
def shortest (m : Nat) (e : Int) : Point :=
  ((neighbourhood m e).firstGrid 17 1).strip 17

/-! ### Two ways of writing -/

def zeros (n : Nat) : List Char := List.replicate n '0'

/-- Digits with the point after the first `places` of them, zeros filling any gap. -/
def positional (ds : List Char) (places : Int) : List Char × List Char :=
  if places ≤ 0 then (['0'], zeros (-places).toNat ++ ds)
  else (ds.take places.toNat ++ zeros (places.toNat - ds.length), ds.drop places.toNat)

def withSign (negative : Bool) (cs : List Char) : String :=
  String.ofList (if negative then '-' :: cs else cs)

/-- The text of a float in a document: positional from `10 ^ -5` up to `10 ^ 16`, with at least
one digit after the point, and with an exponent beyond; special values begin with a point. -/
def Binary64.text : Binary64 → String
  | .nan            => ".nan"
  | .infinite neg   => withSign neg ['.', 'i', 'n', 'f']
  | .finite neg m e =>
    if m = 0 then withSign neg ['0', '.', '0']
    else
      let p := shortest m e
      let ds := digits p.digits
      let places : Int := p.scale + ds.length
      if -5 < places ∧ places ≤ 16 then
        let (whole, fraction) := positional ds places
        withSign neg (whole ++ ['.'] ++ (if fraction = [] then ['0'] else fraction))
      else
        let mantissa :=
          match ds with
          | d :: r :: rest => d :: '.' :: r :: rest
          | ds             => ds
        withSign neg (mantissa ++ ['e'] ++ (intText (places - 1)).toList)

/-- The text of a float in a message: always positional, with a point. -/
def Binary64.plainText : Binary64 → String
  | .nan            => "NaN"
  | .infinite neg   => withSign neg ['i', 'n', 'f']
  | .finite neg m e =>
    if m = 0 then withSign neg ['0', '.', '0']
    else
      let p := shortest m e
      let ds := digits p.digits
      let (whole, fraction) := positional ds (p.scale + ds.length)
      withSign neg (whole ++ ['.'] ++ (if fraction = [] then ['0'] else fraction))

end TwoStage.Decimal
