import TwoStage.Key.Private

/-!
# New key pairs

A generator makes key pairs, each for a comment. One that works from a secret gives each comment the
Ed25519 pair whose seed is the digest of the secret with the comment behind it.
-/

namespace TwoStage

structure KeyPair where
  privateText : String
  publicText : String
deriving DecidableEq, Repr

/-- A source of new pairs, each for a comment, or the reason why there is none. -/
abbrev Generator := String → Except String KeyPair

namespace KeyPair

/-- The Ed25519 pair of a seed. Its check number is read off the seed, which the file holds too. -/
def ofSeed (seed : List UInt8) (comment : String) : KeyPair where
  privateText := Key.Pair.fileOf (Key.Wire.number (seed.take 4)) seed comment
  publicText  :=
    Key.withLineFeed ((Key.PublicKey.ed25519 (Key.Ed25519.publicKey seed)).line comment)

end KeyPair

/-- The generator that works from a secret. -/
def Generator.ofSecret (secret : List UInt8) : Generator := fun comment =>
  .ok (KeyPair.ofSeed (Digest.sha256.digest (secret ++ comment.toUTF8.toList)) comment)

end TwoStage
