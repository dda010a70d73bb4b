import TwoStage.Digest.Sha2

/-!
# Ed25519

The public key of a seed: the seed is hashed to a number, and the base point of the curve
`-x² + y² = 1 + d x² y²` over the integers modulo `2 ^ 255 - 19` is added to itself as often. A
point is written as its second coordinate with the parity of the first on top.
-/

namespace TwoStage.Key.Ed25519

def prime : Nat := Nat.pow 2 255 - 19

/-- A power modulo the prime, by squaring; `k` bounds the bits of the exponent. -/
def powerWithin : Nat → Nat → Nat → Nat
  | 0,     _, _ => 1
  | k + 1, b, e =>
    let rest := powerWithin k (b * b % prime) (e / 2)
    if e % 2 = 1 then b * rest % prime else rest

def inverse (n : Nat) : Nat := powerWithin 255 n (prime - 2)

/-- The constant of the curve. -/
def d : Nat := (prime - 121665) * inverse 121666 % prime

/-- A point: `x / z`, `y / z`, and `t = x y / z`. -/
structure Point where
  x : Nat
  y : Nat
  z : Nat
  t : Nat
deriving DecidableEq, Repr

/-- The point with nothing added. -/
def Point.zero : Point := ⟨0, 1, 1, 0⟩

def Point.base : Point :=
  let x := 15112221349535400772501151409588531511454012693041857206046113283949847762202
  let y := 4 * inverse 5 % prime
  ⟨x, y, 1, x * y % prime⟩

def Point.add (p q : Point) : Point :=
  let a := (p.y + prime - p.x) * (q.y + prime - q.x) % prime
  let b := (p.y + p.x) * (q.y + q.x) % prime
  let c := 2 * p.t * q.t % prime * d % prime
  let e := 2 * p.z * q.z % prime
  let f := (b + prime - a) % prime
  let g := (e + prime - c) % prime
  let h := (e + c) % prime
  let i := (b + a) % prime
  ⟨f * g % prime, h * i % prime, g * h % prime, f * i % prime⟩

/-- A point added to itself, `k` bounding the bits of how often. -/
def Point.timesWithin : Nat → Nat → Point → Point
  | 0,     _, _ => .zero
  | k + 1, n, p =>
    let rest := timesWithin k (n / 2) (p.add p)
    if n % 2 = 1 then p.add rest else rest

/-- The bytes of a number, the lowest first. -/
def lowFirst : Nat → Nat → List UInt8
  | 0,     _ => []
  | k + 1, n => UInt8.ofNat n :: lowFirst k (n / 256)

/-- The number that bytes write, the lowest first. -/
def ofLowFirst : List UInt8 → Nat
  | []      => 0
  | b :: bs => b.toNat + 256 * ofLowFirst bs

def Point.bytes (p : Point) : List UInt8 :=
  let zi := inverse p.z
  let x := p.x * zi % prime
  let y := p.y * zi % prime
  lowFirst 32 (y + Nat.pow 2 255 * (x % 2))

/-- The number of a seed: the lower half of its digest, with its lowest three bits cleared and its
highest set. -/
def scalar (seed : List UInt8) : Nat :=
  let n := ofLowFirst ((Digest.sha512.digest seed).take 32) % Nat.pow 2 254
  n - n % 8 + Nat.pow 2 254

def publicKey (seed : List UInt8) : List UInt8 :=
  (Point.timesWithin 255 (scalar seed) .base).bytes

end TwoStage.Key.Ed25519
