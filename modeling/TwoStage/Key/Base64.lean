/-!
# Base64

Three bytes are written as four digits; one or two bytes at the end are written as two or three
digits and padding. Reading takes nothing but what writing makes: bits behind the last byte are
clear.
-/

namespace TwoStage.Key.Base64

def digit (n : Nat) : Char :=
  if n < 26 then Char.ofNat (n + 65)
  else if n < 52 then Char.ofNat (n + 71)
  else if n < 62 then Char.ofNat (n - 4)
  else if n = 62 then '+'
  else '/'

def value? (c : Char) : Option Nat :=
  if c.isUpper then some (c.toNat - 65)
  else if c.isLower then some (c.toNat - 71)
  else if c.isDigit then some (c.toNat + 4)
  else if c = '+' then some 62
  else if c = '/' then some 63
  else none

def padding : Char := '='

def encode : List UInt8 → List Char
  | []                => []
  | [a]               =>
    let n := a.toNat * 16
    [digit (n / 64), digit (n % 64), padding, padding]
  | [a, b]            =>
    let n := (a.toNat * 256 + b.toNat) * 4
    [digit (n / 4096), digit (n / 64 % 64), digit (n % 64), padding]
  | a :: b :: c :: bs =>
    let n := (a.toNat * 256 + b.toNat) * 256 + c.toNat
    digit (n / 262144) :: digit (n / 4096 % 64) :: digit (n / 64 % 64) :: digit (n % 64) ::
      encode bs

/-- The number that digits write. -/
def number? (cs : List Char) : Option Nat :=
  cs.foldlM (fun n c => (value? c).map fun v => n * 64 + v) 0

/-- The bytes that four digits at the end write. -/
def decodeLast? : List Char → Option (List UInt8)
  | [a, b, '=', '='] => do
    let n ← number? [a, b]
    if n % 16 = 0 then some [UInt8.ofNat (n / 16)] else none
  | [a, b, c, '=']   => do
    let n ← number? [a, b, c]
    if n % 4 = 0 then some [UInt8.ofNat (n / 1024), UInt8.ofNat (n / 4)] else none
  | cs               => do
    let n ← number? cs
    return [UInt8.ofNat (n / 65536), UInt8.ofNat (n / 256), UInt8.ofNat n]

def decode? : List Char → Option (List UInt8)
  | []                     => some []
  | [a, b, c, d]           => decodeLast? [a, b, c, d]
  | a :: b :: c :: d :: cs => do
    let n ← number? [a, b, c, d]
    let bytes ← decode? cs
    return UInt8.ofNat (n / 65536) :: UInt8.ofNat (n / 256) :: UInt8.ofNat n :: bytes
  | _                      => none

end TwoStage.Key.Base64
