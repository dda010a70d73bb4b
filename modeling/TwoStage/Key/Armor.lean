import TwoStage.Key.Base64
import TwoStage.Text.Split

/-!
# Armored keys

Bytes are armored as base64 in lines of a fixed width between two boundaries that bear a label.
Text before the first boundary is passed over; nothing may follow the second one.
-/

namespace TwoStage.Key.Armor

open Text

/-- What the first boundary starts with. -/
def beginMark : List Char := "-----BEGIN ".toList

/-- What the second boundary starts with. -/
def endMark : List Char := "-----END ".toList

/-- What a boundary ends with. -/
def dashes : List Char := "-----".toList

/-- The rest of a text behind the characters it starts with. -/
def afterPrefix? (start cs : List Char) : Option (List Char) :=
  if start.isPrefixOf cs then some (cs.drop start.length) else none

/-- The rest of a text before the characters it ends with. -/
def beforeSuffix? (stop cs : List Char) : Option (List Char) :=
  if stop.isSuffixOf cs then some (cs.take (cs.length - stop.length)) else none

/-- The rest of a text behind the line break it starts with. -/
def afterBreak? : List Char → Option (List Char)
  | '\r' :: '\n' :: cs => some cs
  | '\r' :: cs         => some cs
  | '\n' :: cs         => some cs
  | _                  => none

/-- The rest of a text before the line break it ends with. -/
def beforeBreak? (cs : List Char) : Option (List Char) :=
  match cs.reverse with
  | '\n' :: '\r' :: rest => some rest.reverse
  | '\n' :: rest         => some rest.reverse
  | '\r' :: rest         => some rest.reverse
  | _                    => none

/-- The text from the first boundary on, which stands at the start of a line. -/
def fromBoundary? (cs : List Char) : Option (List Char) :=
  if beginMark.isPrefixOf cs then some cs
  else
    match cutFirst? ('\n' :: beginMark) cs with
    | some (before, after) => if before.contains '\x00' then none else some (beginMark ++ after)
    | none                 => none

/-- The text between the boundaries of a label. -/
def body? (label : List Char) (cs : List Char) : Option (List Char) := do
  let cs ← fromBoundary? cs
  let cs ← afterPrefix? (beginMark ++ label ++ dashes) cs
  let cs ← afterBreak? cs
  let cs ← beforeSuffix? (endMark ++ label ++ dashes) ((beforeBreak? cs).getD cs)
  beforeBreak? cs

/-- The characters of lines that all but the last have the given width. -/
def unwrap? (width : Nat) : Nat → List Char → Option (List Char)
  | 0,     _  => none
  | n + 1, cs =>
    if cs.length ≤ width then some ((beforeBreak? cs).getD cs)
    else do
      let rest ← afterBreak? (cs.drop width)
      return cs.take width ++ (← unwrap? width n rest)

/-- The bytes armored under a label in lines of the given width. -/
def decode? (label : String) (width : Nat) (text : List Char) : Option (List UInt8) := do
  let body ← body? label.toList text
  Base64.decode? (← unwrap? width (body.length + 1) body)

/-- Cut characters into lines of the given width, each with a line feed. -/
def wrap (width : Nat) : Nat → List Char → List Char
  | 0,     _  => []
  | n + 1, cs =>
    if cs = [] then [] else cs.take width ++ '\n' :: wrap width n (cs.drop width)

/-- Armor bytes under a label in lines of the given width. -/
def encode (label : String) (width : Nat) (bytes : List UInt8) : String :=
  let digits := Base64.encode bytes
  String.ofList (beginMark ++ label.toList ++ dashes ++ ['\n'] ++ wrap width digits.length digits ++
    endMark ++ label.toList ++ dashes ++ ['\n'])

end TwoStage.Key.Armor
