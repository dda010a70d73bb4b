/-!
# The wire format of keys

Keys are sequences of fields: numbers of 32 bits, and strings of bytes behind their length. A whole
number is a string of bytes, the highest first, without a leading zero that the sign does not need.

A length in front of several fields, or of one whose size is known, is a limit that they have to
keep: they need not reach it, and what follows them is read right behind them.
-/

namespace TwoStage.Key

/-- Reading fields from bytes. -/
abbrev Wire := StateT (List UInt8) Option

namespace Wire

/-- Nothing can be read. -/
def fail {α : Type} : Wire α := fun _ => none

/-- Go on only if a condition holds. -/
def need (condition : Bool) : Wire Unit := if condition then pure () else fail

def bytes (n : Nat) : Wire (List UInt8) := fun bs =>
  if bs.length < n then none else some (bs.take n, bs.drop n)

/-- The number that bytes write, the highest first. -/
def number (bs : List UInt8) : Nat := bs.foldl (fun n b => n * 256 + b.toNat) 0

def word : Wire Nat := do return number (← bytes 4)

/-- The largest length that is taken. -/
def maxSize : Nat := 0xFFFFF

def size : Wire Nat := do
  let n ← word
  need (n ≤ maxSize)
  return n

/-- Bytes behind their length. -/
def blob : Wire (List UInt8) := do bytes (← size)

/-- A value that keeps the limit in front of it, which it may know. -/
def within {α : Type} (f : Nat → Wire α) : Wire α := do
  let n ← size
  fun bs => (f n (bs.take n)).map fun (a, rest) => (a, rest ++ bs.drop n)

/-- As many bytes as said, behind a limit. -/
def blobOf (n : Nat) : Wire (List UInt8) := within fun _ => bytes n

def text : Wire String := do
  match String.fromUTF8? (ByteArray.mk (← blob).toArray) with
  | some s => return s
  | none   => fail

/-- The most bytes of a name. -/
def maxNameSize : Nat := 48

def name : Wire String := do
  let s ← text
  need (s.utf8ByteSize ≤ maxNameSize)
  return s

/-- A whole number as its bytes. -/
def whole : Wire (List UInt8) := do
  let bs ← blob
  match bs with
  | [0]         => fail
  | 0 :: b :: _ => if b < 0x80 then fail else return bs
  | _           => return bs

/-- No bytes are left. -/
def done : Wire Unit := fun bs => if bs.isEmpty then some ((), []) else none

/-- The value of all the given bytes. -/
def all? {α : Type} (f : Wire α) (bs : List UInt8) : Option α :=
  match f bs with
  | some (a, []) => some a
  | _            => none

/-- A value that takes up all of a string of bytes. -/
def nested {α : Type} (f : Wire α) : Wire α := do
  match all? f (← blob) with
  | some a => return a
  | none   => fail

/-! ### Writing -/

def ofWord (n : Nat) : List UInt8 :=
  [UInt8.ofNat (n / 16777216), UInt8.ofNat (n / 65536), UInt8.ofNat (n / 256), UInt8.ofNat n]

def ofBlob (bs : List UInt8) : List UInt8 := ofWord bs.length ++ bs

def ofText (s : String) : List UInt8 := ofBlob s.toUTF8.toList

end Wire

end TwoStage.Key
