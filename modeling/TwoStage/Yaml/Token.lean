/-!
# Tokens of a document text

A document text is a sequence of tokens: the marks that open and close collections, written or
implied by indentation, the indicators of entries, keys and values, and the scalars with their
properties.
-/

namespace TwoStage.Yaml

/-- The text of a tag. Bytes that have the form of a character and are none stand as `none`. -/
abbrev TagText := List (Option Char)

/-- A token. `unreadable` stands where no further token can be read, `streamEnd` at the end. -/
inductive Token
  | streamEnd
  | unreadable
  | versionDirective (major minor : Nat)
  | tagDirective (handle : List Char) (lead : TagText)
  | documentStart
  | documentEnd
  | blockSequenceStart
  | blockMappingStart
  | blockEnd
  | flowSequenceStart
  | flowSequenceEnd
  | flowMappingStart
  | flowMappingEnd
  | blockEntry
  | flowEntry
  | key
  | value
  | alias (name : List Char)
  | anchor (name : List Char)
  | tag (handle : List Char) (suffix : TagText)
  | scalar (content : List Char) (plain : Bool)
deriving DecidableEq, Repr

/-! ### Character classes -/

def isBreak (c : Char) : Bool :=
  c == '\n' || c == '\r' || c == '\u0085' || c == '\u2028' || c == '\u2029'

def isSpace (c : Char) : Bool := c == ' ' || c == '\t'

def isNameChar (c : Char) : Bool := c.isAlphanum || c == '_' || c == '-'

/-- The characters that may stand in a document text. -/
def isAllowed (c : Char) : Bool :=
  let n := c.toNat
  n == 0x09 || n == 0x0A || n == 0x0D || (0x20 ≤ n && n ≤ 0x7E) || n == 0x85 ||
  (0xA0 ≤ n && n ≤ 0xD7FF) || (0xE000 ≤ n && n ≤ 0xFFFD) || 0x10000 ≤ n

def orderMark : Char := '\ufeff'

/-- The character with a code point, if there is one. -/
def charOf? (n : Nat) : Option Char :=
  if n < 0xD800 ∨ (0xDFFF < n ∧ n ≤ 0x10FFFF) then some (Char.ofNat n) else none

/-! ### A position in a text -/

/-- The characters ahead, and how far the ones behind reach. -/
structure Cursor where
  rest : List Char
  index : Nat
  line : Nat
  column : Nat
deriving Repr

namespace Cursor

def start (text : List Char) : Cursor := ⟨text, 0, 0, 0⟩

def skip (c : Cursor) : Cursor :=
  ⟨c.rest.drop 1, c.index + 1, c.line, c.column + 1⟩

def skipMany (c : Cursor) (n : Nat) : Cursor :=
  ⟨c.rest.drop n, c.index + n, c.line, c.column + n⟩

/-- Step over a line break; a carriage return and a line feed together are one. -/
def skipBreak (c : Cursor) : Cursor :=
  match c.rest with
  | '\r' :: '\n' :: rest => ⟨rest, c.index + 2, c.line + 1, 0⟩
  | _ :: rest            => ⟨rest, c.index + 1, c.line + 1, 0⟩
  | []                   => c

/-- The character that a line break contributes to a scalar. -/
def breakChar (c : Cursor) : Option Char :=
  match c.rest with
  | '\u2028' :: _ => some '\u2028'
  | '\u2029' :: _ => some '\u2029'
  | c :: _        => if isBreak c then some '\n' else none
  | []            => none

/-- The next character is in the class. -/
def at? (p : Char → Bool) (c : Cursor) : Bool :=
  match c.rest with
  | x :: _ => p x
  | []     => false

def atChar (x : Char) (c : Cursor) : Bool := c.at? (· == x)

/-- The text at an offset from here is blank, a line break or over. -/
def blankAhead (c : Cursor) (offset : Nat) : Bool :=
  match c.rest.drop offset with
  | x :: _ => isSpace x || isBreak x
  | []     => true

/-- The text here is a line break or over. -/
def atLineEnd (c : Cursor) : Bool :=
  match c.rest with
  | x :: _ => isBreak x
  | []     => true

/-- Take the characters of a class that follow, none of them a line break. -/
def takeWhile (p : Char → Bool) (c : Cursor) : List Char × Cursor :=
  let taken := c.rest.takeWhile p
  (taken, c.skipMany taken.length)

/-- Step over the characters of a class that follow, none of them a line break. -/
def skipWhile (p : Char → Bool) (c : Cursor) : Cursor := (c.takeWhile p).2

def skipOrderMark (c : Cursor) : Cursor :=
  if c.column == 0 && c.atChar orderMark then c.skip else c

def skipComment (c : Cursor) : Cursor :=
  if c.atChar '#' then c.skipWhile (fun x => !isBreak x) else c

/-- Three equal characters and then a blank at the start of a line. -/
def atTriple (x : Char) (c : Cursor) : Bool :=
  c.column == 0 && [x, x, x].isPrefixOf c.rest && c.blankAhead 3

/-- The start or the end of a document is marked here. -/
def atDocumentMark (c : Cursor) : Bool := c.atTriple '-' || c.atTriple '.'

/-- Step over the rest of a line that holds no more than a comment, and its break. -/
def finishLine? (c : Cursor) : Option Cursor :=
  let c := (c.skipWhile isSpace).skipComment
  if c.atLineEnd then some c.skipBreak else none

end Cursor

end TwoStage.Yaml
