import TwoStage.Key.Armor
import TwoStage.Key.Ed25519
import TwoStage.Key.Public

/-!
# Key pairs in a file of their own

A file holds one public key, and the private key with a comment, either encrypted or not. What is
not encrypted is checked: two equal check numbers, the public key once more, and a padding that
counts up to a multiple of the block.
-/

namespace TwoStage.Key

/-- A key pair read from its file. -/
inductive Pair
  | encrypted
  | plain (key : PublicKey) (comment : String)
deriving DecidableEq, Repr

namespace Pair

def label : String := "OPENSSH PRIVATE KEY"

def lineWidth : Nat := 70

/-- What the bytes of a file start with. -/
def magic : List UInt8 := "openssh-key-v1\x00".toUTF8.toList

/-! ### Private fields -/

/-- Read a private number of the given size, before which one zero may stand. -/
def readScalar (size : Nat) : Wire Unit :=
  Wire.within fun limit => do
    if limit = size + 1 then
      Wire.need ((← Wire.bytes 1) = [0])
    let _ ← Wire.bytes size

/-- Read the private fields of a key and give its public part. -/
def readFields : Algorithm → Wire PublicKey
  | .rsa             => do
    let n ← Wire.whole
    let e ← Wire.whole
    let _ ← Wire.whole
    let _ ← Wire.whole
    let _ ← Wire.whole
    let _ ← Wire.whole
    return .rsa e n
  | .dsa             => do
    let key ← PublicKey.readFields .dsa
    let _ ← Wire.whole
    return key
  | .ecdsa curve     => do
    let key ← PublicKey.readFields (.ecdsa curve)
    readScalar curve.size
    return key
  | .ed25519         => do
    let point ← Wire.blobOf 32
    let both ← Wire.blobOf 64
    Wire.need (Ed25519.publicKey (both.take 32) = both.drop 32)
    Wire.need (both.drop 32 = point)
    return .ed25519 point
  | .hardwareEcdsa   => do
    let key ← PublicKey.readFields .hardwareEcdsa
    readHandle
    return key
  | .hardwareEd25519 => do
    let key ← PublicKey.readFields .hardwareEd25519
    readHandle
    return key
  | .other name      => do
    let key ← PublicKey.readFields (.other name)
    let _ ← Wire.blob
    return key
where
  /-- Read the flags, the handle and the reserved field of a key that stays in its hardware. -/
  readHandle : Wire Unit := do
    let _ ← Wire.bytes 1
    let _ ← Wire.blob
    let _ ← Wire.blob

/-- The padding of the given length. -/
def padding (n : Nat) : List UInt8 := (List.range n).map fun i => UInt8.ofNat (i + 1)

/-- The block of a private part that is not encrypted. -/
def plainBlock : Nat := 8

/-- Read the private part behind a public key, and give the comment. -/
def readPrivate (key : PublicKey) : Wire String := do
  Wire.need ((← get).length % plainBlock = 0)
  let check ← Wire.word
  Wire.need ((← Wire.word) = check)
  let own ← readFields (← Algorithm.read)
  Wire.need (own = key)
  let comment ← Wire.text
  let rest ← get
  Wire.need (rest.length < plainBlock)
  Wire.need (rest = padding rest.length)
  set ([] : List UInt8)
  return comment

/-! ### Whole files -/

/-- A cipher: the block it works on, and the length of the tag behind the text. -/
structure Cipher where
  block : Nat
  tag : Nat

/-- Every cipher by its name. -/
def ciphers : List (String × Cipher) :=
  [ ("3des-cbc", ⟨8, 0⟩),
    ("aes128-cbc", ⟨16, 0⟩), ("aes192-cbc", ⟨16, 0⟩), ("aes256-cbc", ⟨16, 0⟩),
    ("aes128-ctr", ⟨16, 0⟩), ("aes192-ctr", ⟨16, 0⟩), ("aes256-ctr", ⟨16, 0⟩),
    ("aes128-gcm@openssh.com", ⟨16, 16⟩), ("aes256-gcm@openssh.com", ⟨16, 16⟩),
    ("chacha20-poly1305@openssh.com", ⟨8, 16⟩) ]

/-- Read the name of a cipher; there may be none. -/
def readCipher : Wire (Option Cipher) := do
  let name ← Wire.name
  if name = "none" then return none
  match ciphers.lookup name with
  | some cipher => return some cipher
  | none        => Wire.fail

/-- Read how a password is turned into a key, and say whether it is at all. -/
def readDerivation : Wire Bool := do
  match ← Wire.name with
  | "none"   =>
    Wire.need ((← Wire.size) = 0)
    return false
  | "bcrypt" =>
    Wire.within fun _ => do
      let _ ← Wire.blob
      let _ ← Wire.word
    return true
  | _        => Wire.fail

def read : Wire Pair := do
  Wire.need ((← Wire.bytes magic.length) = magic)
  let cipher ← readCipher
  let derived ← readDerivation
  Wire.need ((← Wire.size) = 1)
  let key ← Wire.within fun _ => PublicKey.read
  match cipher with
  | some cipher =>
    let text ← Wire.blob
    Wire.need (text.length % cipher.block = 0)
    let _ ← Wire.bytes cipher.tag
    return .encrypted
  | none        =>
    Wire.need (!derived)
    return .plain key (← Wire.nested (readPrivate key))

def ofText? (text : List Char) : Option Pair :=
  (Armor.decode? label lineWidth text).bind (Wire.all? read)

/-! ### New pairs -/

/-- The private part of an Ed25519 key, with a check number. -/
def privatePart (check : Nat) (seed point : List UInt8) (comment : String) : List UInt8 :=
  let fields :=
    Wire.ofWord check ++ Wire.ofWord check ++ Wire.ofText Algorithm.ed25519.name ++
      Wire.ofBlob point ++ Wire.ofBlob (seed ++ point) ++ Wire.ofText comment
  fields ++ padding ((plainBlock - fields.length % plainBlock) % plainBlock)

/-- The text of a file with the Ed25519 key of a seed. -/
def fileOf (check : Nat) (seed : List UInt8) (comment : String) : String :=
  let point := Ed25519.publicKey seed
  Armor.encode label lineWidth (
    magic ++ Wire.ofText "none" ++ Wire.ofText "none" ++ Wire.ofText "" ++ Wire.ofWord 1 ++
      Wire.ofBlob (PublicKey.ed25519 point).bytes ++
      Wire.ofBlob (privatePart check seed point comment))

end Pair

end TwoStage.Key
