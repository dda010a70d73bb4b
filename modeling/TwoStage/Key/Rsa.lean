import TwoStage.Key.Armor
import TwoStage.Key.Public

/-!
# RSA keys in their older encodings

An RSA key is a sequence of nine whole numbers in the distinguished encoding of ASN.1, armored as it
is or inside an envelope that names the algorithm. Lengths and numbers have their shortest form, and
nothing is left over. The numbers have to make a key of two factors.
-/

namespace TwoStage.Key.Rsa

/-! ### The distinguished encoding -/

/-- The bytes of a length written by its own count of bytes, at least one and at most four. -/
def longLength? (count : Nat) (bs : List UInt8) : Option (Nat × List UInt8) :=
  let n := Wire.number (bs.take count)
  if 1 ≤ count ∧ count ≤ 4 ∧ count ≤ bs.length ∧ 128 ≤ n ∧ Nat.pow 256 (count - 1) ≤ n then
    some (n, bs.drop count)
  else none

/-- A length and what follows it. -/
def length? : List UInt8 → Option (Nat × List UInt8)
  | []      => none
  | b :: bs => if b < 0x80 then some (b.toNat, bs) else longLength? (b.toNat - 128) bs

/-- The class of a tag. -/
inductive TagClass
  | universal
  | application
  | context
  | reserved
deriving DecidableEq, Repr

/-- What an element is by its tag: its class, whether it holds other elements, and its number. -/
structure Tag where
  kind : TagClass
  constructed : Bool
  number : Nat
deriving DecidableEq, Repr

namespace Tag

/-- The numbers of the universal types that hold no other elements. -/
def primitiveNumbers : List Nat :=
  [1, 2, 3, 4, 5, 6, 9, 10, 12, 18, 19, 20, 21, 22, 23, 24, 26, 27, 30]

/-- The numbers of the universal types that do. -/
def constructedNumbers : List Nat := [16, 17]

def isKnown (t : Tag) : Bool :=
  match t.kind with
  | .universal =>
    if t.constructed then constructedNumbers.contains t.number
    else primitiveNumbers.contains t.number
  | _          => true

/-- Read a tag of one byte. -/
def ofByte? (b : UInt8) : Option Tag :=
  let n := b.toNat
  let kind :=
    match n / 64 with
    | 0 => TagClass.universal
    | 1 => .application
    | 2 => .context
    | _ => .reserved
  let t : Tag := ⟨kind, n / 32 % 2 = 1, n % 32⟩
  if t.number < 31 && t.isKnown then some t else none

def integer : Tag := ⟨.universal, false, 2⟩

def octets : Tag := ⟨.universal, false, 4⟩

def sequence : Tag := ⟨.universal, true, 16⟩

end Tag

/-- An element: its tag and its contents. -/
structure Element where
  tag : Tag
  contents : List UInt8
deriving DecidableEq, Repr

/-- The element at the start, and what follows it. -/
def element? : List UInt8 → Option (Element × List UInt8)
  | []      => none
  | t :: bs => do
    let tag ← Tag.ofByte? t
    let (n, bs) ← length? bs
    if n ≤ bs.length then some (⟨tag, bs.take n⟩, bs.drop n) else none

/-- The elements that all the bytes make; `k` bounds how many there are. -/
def elementsWithin? : Nat → List UInt8 → Option (List Element)
  | _,     []      => some []
  | 0,     _       => none
  | k + 1, b :: bs => do
    let (e, rest) ← element? (b :: bs)
    return e :: (← elementsWithin? k rest)

/-- The elements that all the bytes make. -/
def elements? (bs : List UInt8) : Option (List Element) := elementsWithin? bs.length bs

/-- The elements of the sequence that all the bytes make. -/
def sequence? (bs : List UInt8) : Option (List Element) :=
  match elements? bs with
  | some [e] => if e.tag = .sequence then elements? e.contents else none
  | _        => none

/-- The whole number that the contents of an element are. It is not negative, and has a leading zero
only where its sign needs one. -/
def integerOf? : List UInt8 → Option Nat
  | []           => none
  | [b]          => if b < 0x80 then some b.toNat else none
  | b :: c :: bs =>
    if b < 0x80 && !(b = 0 && c < 0x80) then some (Wire.number (b :: c :: bs)) else none

/-- The whole number that an element is. -/
def Element.integer? (e : Element) : Option Nat :=
  if e.tag = .integer then integerOf? e.contents else none

/-! ### Keys -/

/-- The numbers of a key that matter. -/
structure Numbers where
  n : Nat
  e : Nat
  d : Nat
  p : Nat
  q : Nat
deriving DecidableEq, Repr

/-- The largest public exponent. -/
def maxExponent : Nat := Nat.pow 2 33 - 1

/-- The numbers make a key: the modulus is odd and the product of the factors, and the exponents
undo each other modulo each factor less one. -/
def Numbers.areSound (k : Numbers) : Bool :=
  k.e < k.n && k.n % 2 = 1 && k.e % 2 = 1 && 2 ≤ k.e && k.e ≤ maxExponent &&
    2 ≤ k.p && 2 ≤ k.q && k.p * k.q = k.n &&
    k.e * k.d % (k.p - 1) = 1 && k.e * k.d % (k.q - 1) = 1

/-- The numbers of a key of version zero, which has two primes. -/
def numbers? (bs : List UInt8) : Option Numbers := do
  match ← (← sequence? bs).mapM Element.integer? with
  | [0, n, e, d, p, q, _, _, _] =>
    let key : Numbers := ⟨n, e, d, p, q⟩
    if key.areSound then some key else none
  | _ => none

/-! ### Envelopes -/

/-- The algorithm that an envelope names: RSA, without parameters. -/
def algorithm : List UInt8 :=
  [0x06, 0x09, 0x2A, 0x86, 0x48, 0x86, 0xF7, 0x0D, 0x01, 0x01, 0x01, 0x05, 0x00]

/-- The element is one of the attributes, which are not looked at. -/
def isAttribute (e : Element) : Bool := e.tag.kind = .context && e.tag.number = 0

/-- The element is a public key: whole bytes, as the zero before them tells. -/
def isPublicKey (e : Element) : Bool :=
  e.tag = ⟨.context, false, 1⟩ && e.contents.head? = some 0

/-- The element is an extension, which holds one other element. -/
def isExtension (e : Element) : Bool :=
  e.tag.kind = .context && e.tag.constructed &&
    match elements? e.contents with
    | some [_] => true
    | _        => false

/-- What stands behind the key fits the version: the attributes, in version one a public key, and
then extensions. -/
def trailerFits (version : Nat) (es : List Element) : Bool :=
  match version, es.dropWhile isAttribute with
  | 0, es      => es.all isExtension && !(es.head?.any fun e => e.tag.number = 1)
  | 1, e :: es => isPublicKey e && es.all isExtension
  | _, _       => false

/-- The bytes of the key in an envelope. -/
def opened? (bs : List UInt8) : Option (List UInt8) := do
  match ← sequence? bs with
  | version :: named :: key :: trailer =>
    let version ← version.integer?
    let fits := named = ⟨.sequence, algorithm⟩ && key.tag = .octets && trailerFits version trailer
    if fits then some key.contents else none
  | _ => none

/-! ### Public keys -/

/-- The bytes of a number, the highest first; `k` bounds how many there are. -/
def bytesWithin : Nat → Nat → List UInt8
  | 0,     _ => []
  | k + 1, n => if n = 0 then [] else bytesWithin k (n / 256) ++ [UInt8.ofNat n]

/-- Put a zero before bytes that a sign would be read from. -/
def unsigned : List UInt8 → List UInt8
  | []      => []
  | b :: bs => if b < 0x80 then b :: bs else 0 :: b :: bs

/-- A number as a field of a public key. -/
def fieldOf (n : Nat) : List UInt8 := unsigned (bytesWithin (n.log2 + 1) n)

def Numbers.publicKey (k : Numbers) : PublicKey := .rsa (fieldOf k.e) (fieldOf k.n)

/-- The label of a key as it is. -/
def bareLabel : String := "RSA PRIVATE KEY"

/-- The label of a key in an envelope. -/
def envelopeLabel : String := "PRIVATE KEY"

def lineWidth : Nat := 64

/-- The public key of an armored key. -/
def ofBareText? (text : List Char) : Option PublicKey := do
  let bytes ← Armor.decode? bareLabel lineWidth text
  return (← numbers? bytes).publicKey

/-- The public key of an armored envelope. -/
def ofEnvelopeText? (text : List Char) : Option PublicKey := do
  let bytes ← Armor.decode? envelopeLabel lineWidth text
  return (← numbers? (← opened? bytes)).publicKey

end TwoStage.Key.Rsa
