/-!
# Numerals

Whole numbers as digit strings in a base up to sixteen. Reading asks for at least one digit and
takes nothing but digits, so it is the inverse of writing up to leading zeros.
-/

namespace TwoStage.Decimal

/-- The value of a digit, letters of either case standing for ten to fifteen. -/
def digitValue? (base : Nat) (c : Char) : Option Nat :=
  let v :=
    if '0' ≤ c ∧ c ≤ '9' then c.toNat - 48
    else if 'a' ≤ c ∧ c ≤ 'f' then c.toNat - 87
    else if 'A' ≤ c ∧ c ≤ 'F' then c.toNat - 55
    else base
  if v < base then some v else none

/-- Continue a number by the digits that follow. -/
def readDigits? (base : Nat) : Nat → List Char → Option Nat
  | n, []      => some n
  | n, c :: cs =>
    match digitValue? base c with
    | some d => readDigits? base (n * base + d) cs
    | none   => none

/-- The number written by a nonempty run of digits. -/
def ofDigits? (base : Nat) (cs : List Char) : Option Nat :=
  if cs = [] then none else readDigits? base 0 cs

/-- The number written by digits, with one plus sign allowed before them. -/
def ofSignedDigits? (base : Nat) : List Char → Option Nat
  | '+' :: cs => ofDigits? base cs
  | cs        => ofDigits? base cs

def digits (n : Nat) : List Char := Nat.toDigits 10 n

def intText (n : Int) : String :=
  match n with
  | .ofNat m   => String.ofList (digits m)
  | .negSucc m => String.ofList ('-' :: digits (m + 1))

def natText (n : Nat) : String := String.ofList (digits n)

end TwoStage.Decimal
