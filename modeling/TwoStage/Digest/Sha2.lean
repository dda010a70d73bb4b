/-!
# The SHA-2 digests

A message is padded to whole blocks of sixteen words. Every block is stretched to as many words as
there are rounds, and each round mixes one of them into eight words of state. The constants are the
first bits behind the point of the square and cube roots of the first primes.
-/

namespace TwoStage.Digest

/-! ### Constants -/

/-- A number with no divisor but one and itself. -/
def isPrime (n : Nat) : Bool := 2 ≤ n && (List.range n).all fun d => d < 2 || n % d ≠ 0

def primes : List Nat := (List.range 410).filter isPrime

/-- Set the bits of a `k`-th root, from the given one down, that keep its power within `n`. -/
def rootFrom (k n : Nat) : Nat → Nat → Nat
  | 0,       root => root
  | bit + 1, root =>
    if Nat.pow (root + Nat.pow 2 bit) k ≤ n then rootFrom k n bit (root + Nat.pow 2 bit)
    else rootFrom k n bit root

/-- The first `w` bits behind the point of the `k`-th root of a number below `2 ^ 16`. -/
def rootBits (w k n : Nat) : BitVec w :=
  BitVec.ofNat w (rootFrom k (n * Nat.pow 2 (k * w)) (w + 16) 0)

/-! ### Words and states -/

/-- Three rotations to the right, combined. -/
def rotations {w : Nat} (a b c : Nat) (x : BitVec w) : BitVec w :=
  x.rotateRight a ^^^ x.rotateRight b ^^^ x.rotateRight c

/-- Two rotations to the right and a shift, combined. -/
def rotationsAndShift {w : Nat} (a b c : Nat) (x : BitVec w) : BitVec w :=
  x.rotateRight a ^^^ x.rotateRight b ^^^ (x >>> c)

/-- The eight words of state. -/
structure State (w : Nat) where
  a : BitVec w
  b : BitVec w
  c : BitVec w
  d : BitVec w
  e : BitVec w
  f : BitVec w
  g : BitVec w
  h : BitVec w

namespace State

variable {w : Nat}

def initial (w : Nat) : State w :=
  ⟨rootBits w 2 2, rootBits w 2 3, rootBits w 2 5, rootBits w 2 7,
    rootBits w 2 11, rootBits w 2 13, rootBits w 2 17, rootBits w 2 19⟩

def add (s t : State w) : State w :=
  ⟨s.a + t.a, s.b + t.b, s.c + t.c, s.d + t.d, s.e + t.e, s.f + t.f, s.g + t.g, s.h + t.h⟩

def words (s : State w) : List (BitVec w) := [s.a, s.b, s.c, s.d, s.e, s.f, s.g, s.h]

end State

/-- What tells the digests with words of `w` bits from the others. -/
structure Sha2 (w : Nat) where
  initial : State w
  constants : List (BitVec w)
  sum0 : BitVec w → BitVec w
  sum1 : BitVec w → BitVec w
  stretch0 : BitVec w → BitVec w
  stretch1 : BitVec w → BitVec w

namespace Sha2

variable {w : Nat}

/-- Mix a constant with a word of the block into the state. -/
def round (sha : Sha2 w) (s : State w) (input : BitVec w) : State w :=
  let choice := (s.e &&& s.f) ^^^ (~~~s.e &&& s.g)
  let majority := (s.a &&& s.b) ^^^ (s.a &&& s.c) ^^^ (s.b &&& s.c)
  let t := s.h + sha.sum1 s.e + choice + input
  ⟨t + sha.sum0 s.a + majority, s.a, s.b, s.c, s.d + t, s.e, s.f, s.g⟩

/-- The first words of a block that goes on from sixteen words. -/
def schedule (sha : Sha2 w) : Nat → List (BitVec w) → List (BitVec w)
  | 0,     _              => []
  | _,     []             => []
  | n + 1, first :: words =>
    let next :=
      sha.stretch1 (words.getD 13 0) + words.getD 8 0 + sha.stretch0 (words.getD 0 0) + first
    first :: sha.schedule n (words ++ [next])

/-- Take a block into the state. -/
def compress (sha : Sha2 w) (s : State w) (block : List (BitVec w)) : State w :=
  let inputs := (sha.schedule sha.constants.length block).zipWith (· + ·) sha.constants
  s.add (inputs.foldl sha.round s)

/-! ### Bytes and words -/

/-- The number that bytes write, the highest first. -/
def ofBytes (bytes : List UInt8) : Nat := bytes.foldl (fun n b => n * 256 + b.toNat) 0

/-- The lowest bytes of a number, the highest first. -/
def toBytes : Nat → Nat → List UInt8
  | 0,     _ => []
  | k + 1, n => toBytes k (n / 256) ++ [UInt8.ofNat n]

/-- Cut a list into pieces of length `k`. -/
def chunks {α : Type} (k : Nat) : Nat → List α → List (List α)
  | 0,     _  => []
  | n + 1, as => if as.isEmpty then [] else as.take k :: chunks k n (as.drop k)

/-- Cut a list into as many pieces of length `k` as it has. -/
def pieces {α : Type} (k : Nat) (as : List α) : List (List α) := chunks k as.length as

/-- The message with a set bit, as many clear bits as needed, and its length in bits behind it. -/
def pad (w : Nat) (message : List UInt8) : List UInt8 :=
  let block := 2 * w
  let used := (message.length + 1 + w / 4) % block
  message ++ [0x80] ++ List.replicate ((block - used) % block) 0 ++
    toBytes (w / 4) (8 * message.length)

def digest (sha : Sha2 w) (message : List UInt8) : List UInt8 :=
  let blocks := (pieces (2 * w) (pad w message)).map fun block =>
    (pieces (w / 8) block).map fun bytes => BitVec.ofNat w (ofBytes bytes)
  let final := blocks.foldl sha.compress sha.initial
  final.words.flatMap fun word => toBytes (w / 8) word.toNat

end Sha2

/-! ### The digests in use -/

def sha256 : Sha2 32 where
  initial   := State.initial 32
  constants := (primes.take 64).map (rootBits 32 3)
  sum0      := rotations 2 13 22
  sum1      := rotations 6 11 25
  stretch0  := rotationsAndShift 7 18 3
  stretch1  := rotationsAndShift 17 19 10

def sha512 : Sha2 64 where
  initial   := State.initial 64
  constants := primes.map (rootBits 64 3)
  sum0      := rotations 28 34 39
  sum1      := rotations 14 18 41
  stretch0  := rotationsAndShift 1 8 7
  stretch1  := rotationsAndShift 19 61 6

def hexDigit (n : Nat) : Char := Nat.digitChar n

def hex (bytes : List UInt8) : String :=
  String.ofList (bytes.flatMap fun b => [hexDigit (b.toNat / 16), hexDigit (b.toNat % 16)])

/-- The SHA-256 digest of bytes, in hexadecimal. -/
def sha256Hex (bytes : List UInt8) : String := hex (sha256.digest bytes)

end TwoStage.Digest
