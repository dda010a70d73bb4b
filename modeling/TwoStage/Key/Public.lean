import TwoStage.Key.Base64
import TwoStage.Key.Wire
import TwoStage.Text.Split

/-!
# Public keys

A public key is a line of text: its algorithm, its fields in base64, and a comment. The key of an
algorithm that is not known by its name is passed on as bytes.
-/

namespace TwoStage.Key

/-- The curves of the NIST. -/
inductive Curve
  | p256
  | p384
  | p521
deriving DecidableEq, Repr

namespace Curve

def all : List Curve := [.p256, .p384, .p521]

def name : Curve → String
  | .p256 => "nistp256"
  | .p384 => "nistp384"
  | .p521 => "nistp521"

/-- The bytes of a coordinate. -/
def size : Curve → Nat
  | .p256 => 32
  | .p384 => 48
  | .p521 => 66

def algorithm (c : Curve) : String := "ecdsa-sha2-" ++ c.name

/-- The bytes are a point: both coordinates, or one and the parity of the other. -/
def isPoint (c : Curve) : List UInt8 → Bool
  | []          => false
  | form :: rest =>
    (form = 4 && rest.length = 2 * c.size) || ((form = 2 || form = 3) && rest.length = c.size)

/-- The bytes are a point in any form: also the point at infinity, or one coordinate alone. -/
def isAnyPoint (c : Curve) : List UInt8 → Bool
  | [0]       => true
  | 5 :: rest => rest.length = c.size
  | bs        => c.isPoint bs

end Curve

inductive PublicKey
  | rsa (exponent modulus : List UInt8)
  | dsa (p q g y : List UInt8)
  | ecdsa (curve : Curve) (point : List UInt8)
  | ed25519 (point : List UInt8)
  | hardwareEcdsa (point : List UInt8) (application : String)
  | hardwareEd25519 (point : List UInt8) (application : String)
  | other (algorithm : String) (key : List UInt8)
deriving DecidableEq, Repr

/-- What a key is made for. -/
inductive Algorithm
  | rsa
  | dsa
  | ecdsa (curve : Curve)
  | ed25519
  | hardwareEcdsa
  | hardwareEd25519
  | other (name : String)
deriving DecidableEq, Repr

namespace Algorithm

def name : Algorithm → String
  | .rsa             => "ssh-rsa"
  | .dsa             => "ssh-dss"
  | .ecdsa curve     => curve.algorithm
  | .ed25519         => "ssh-ed25519"
  | .hardwareEcdsa   => "sk-ecdsa-sha2-nistp256@openssh.com"
  | .hardwareEd25519 => "sk-ssh-ed25519@openssh.com"
  | .other name      => name

/-- Every algorithm that is known by its name. -/
def known : List Algorithm :=
  [.rsa, .dsa, .ed25519, .hardwareEcdsa, .hardwareEd25519] ++ Curve.all.map Algorithm.ecdsa

/-- The known algorithms by their names. RSA keys may be named by a signature made with them. -/
def byName : List (String × Algorithm) :=
  known.map (fun a => (a.name, a)) ++ [("rsa-sha2-256", .rsa), ("rsa-sha2-512", .rsa)]

/-- The name is one that anybody may give: ASCII, with a name before an at sign and a domain
behind it. -/
def isDomainName (name : String) : Bool :=
  name.toList.all (·.toNat < 128) &&
    match Text.splitAll '@' name.toList with
    | [owner, domain] => !owner.isEmpty && !domain.isEmpty
    | _               => false

def ofName? (name : String) : Option Algorithm :=
  match byName.lookup name with
  | some a => some a
  | none   => if isDomainName name then some (.other name) else none

def read : Wire Algorithm := do
  match ofName? (← Wire.name) with
  | some a => return a
  | none   => Wire.fail

end Algorithm

namespace PublicKey

def algorithm : PublicKey → Algorithm
  | .rsa ..             => .rsa
  | .dsa ..             => .dsa
  | .ecdsa curve _      => .ecdsa curve
  | .ed25519 _          => .ed25519
  | .hardwareEcdsa ..   => .hardwareEcdsa
  | .hardwareEd25519 .. => .hardwareEd25519
  | .other name _       => .other name

/-- Read the name of a curve and a point on it in a form that is taken. -/
def readPoint (curve : Curve) (takes : List UInt8 → Bool) : Wire (List UInt8) := do
  Wire.need ((← Wire.name) = curve.name)
  let point ← Wire.blob
  Wire.need (takes point)
  return point

def readFields : Algorithm → Wire PublicKey
  | .rsa             => do
    let e ← Wire.whole
    return .rsa e (← Wire.whole)
  | .dsa             => do
    let p ← Wire.whole
    let q ← Wire.whole
    let g ← Wire.whole
    return .dsa p q g (← Wire.whole)
  | .ecdsa curve     => do return .ecdsa curve (← readPoint curve curve.isPoint)
  | .ed25519         => do return .ed25519 (← Wire.blobOf 32)
  | .hardwareEcdsa   => do
    let point ← readPoint .p256 Curve.p256.isAnyPoint
    return .hardwareEcdsa point (← Wire.text)
  | .hardwareEd25519 => do
    let point ← Wire.blobOf 32
    return .hardwareEd25519 point (← Wire.text)
  | .other name      => do return .other name (← Wire.blob)

def read : Wire PublicKey := do readFields (← Algorithm.read)

def fields : PublicKey → List UInt8
  | .rsa e n                            => Wire.ofBlob e ++ Wire.ofBlob n
  | .dsa p q g y                        => [p, q, g, y].flatMap Wire.ofBlob
  | .ecdsa curve point                  => Wire.ofText curve.name ++ Wire.ofBlob point
  | .ed25519 point                      => Wire.ofBlob point
  | .hardwareEcdsa point application    =>
    Wire.ofText Curve.p256.name ++ Wire.ofBlob point ++ Wire.ofText application
  | .hardwareEd25519 point application  => Wire.ofBlob point ++ Wire.ofText application
  | .other _ key                        => Wire.ofBlob key

def bytes (k : PublicKey) : List UInt8 := Wire.ofText k.algorithm.name ++ k.fields

/-- The line of a key, without a comment if that is empty. -/
def line (k : PublicKey) (comment : String) : String :=
  k.algorithm.name ++ " " ++ String.ofList (Base64.encode k.bytes) ++
    (if comment = "" then "" else " " ++ comment)

end PublicKey

end TwoStage.Key
