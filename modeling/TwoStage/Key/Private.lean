import TwoStage.Error
import TwoStage.Key.Pair
import TwoStage.Key.Rsa

/-!
# The public half of a private key

A private key is given as text in one of three forms, told apart by the line it starts with. An
encrypted key keeps its public half to itself.
-/

namespace TwoStage.Key

open Text

/-- The text with a line feed at its end, unless there is one. -/
def withLineFeed (s : String) : String :=
  if s.toList.getLast? = some '\n' then s else s ++ "\n"

/-- The line says that what follows is encrypted. -/
def saysEncrypted (line : List Char) : Bool :=
  let line := trimBoth line
  ("-----BEGIN".toList.isPrefixOf line || "Proc-Type:".toList.isPrefixOf line) &&
    (cutFirst? "ENCRYPTED".toList line).isSome

/-- A line of the text says that the key is encrypted. -/
def isMarkedEncrypted (text : String) : Bool := (lines text.toList).any saysEncrypted

/-- A text starts with the first boundary of a label. -/
def isLabelled (label : String) (text : List Char) : Bool :=
  (Armor.beginMark ++ label.toList ++ Armor.dashes).isPrefixOf text

/-- The line of the public key in a file of a key pair, unless it is encrypted. -/
def pairLine : Pair → Option String
  | .encrypted         => none
  | .plain key comment => some (withLineFeed (key.line comment))

/-- The public half of a private key, or nothing if that is encrypted. -/
def publicHalf (text : String) : Except KeyError (Option String) :=
  if isMarkedEncrypted text then .ok none
  else
    let cs := trimBoth text.toList
    if isLabelled Rsa.bareLabel cs then
      match Rsa.ofBareText? cs with
      | some key => .ok (some (withLineFeed (key.line "")))
      | none     => .error .malformed
    else if isLabelled Rsa.envelopeLabel cs then
      match Rsa.ofEnvelopeText? cs with
      | some key => .ok (some (withLineFeed (key.line "")))
      | none     => .error .notRsa
    else
      match Pair.ofText? cs with
      | some pair => .ok (pairLine pair)
      | none      => .error .malformed

/-- The public half of a private key of a user. -/
def derive (user text : String) : Outcome (Option String) :=
  (publicHalf text).mapError (.invalidPrivateKey user)

/-- The public half of a pair that has been stored, unless it is encrypted or cannot be read. -/
def storedHalf? (text : String) : Option String :=
  (Pair.ofText? (trimBoth text.toList)).bind pairLine

end TwoStage.Key
