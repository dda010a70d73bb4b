import TwoStage.Yaml.Token
import TwoStage.Decimal.Numeral

/-!
# Anchors, aliases, tags and directives

The parts of a document text that begin with an indicator and name something. A tag is a handle
and a suffix; the suffix may hold bytes escaped by a percent sign, which have the form of UTF-8, and
ends at a byte of zero.
-/

namespace TwoStage.Yaml.Cursor

/-- Read the name of an anchor or an alias behind its indicator. -/
def takeAnchorName? (c : Cursor) : Option (List Char × Cursor) :=
  let (name, c) := c.takeWhile isNameChar
  if name = [] then none
  else if c.blankAhead 0 || c.at? (['?', ':', ',', ']', '\x7d', '%', '@', '\x60'].contains ·) then
    some (name, c)
  else none

/-! ### Tags -/

/-- The characters of a tag; flow indicators only where `verbatim`. -/
def isTagChar (verbatim : Bool) (c : Char) : Bool :=
  isNameChar c ||
    [';', '/', '?', ':', '@', '&', '=', '+', '$', '.', '!', '~', '*', '\'', '(', ')',
      '%'].contains c ||
    (verbatim && [',', '[', ']'].contains c)

/-- A byte escaped by a percent sign. -/
def takeByte? : List Char → Option (Nat × List Char)
  | '%' :: a :: b :: rest =>
    match Decimal.digitValue? 16 a, Decimal.digitValue? 16 b with
    | some x, some y => some (16 * x + y, rest)
    | _, _           => none
  | _ => none

/-- How many bytes a character takes, by its first byte. -/
def widthOf? (first : Nat) : Option Nat :=
  if first < 0x80 then some 1
  else if 0xC0 ≤ first ∧ first < 0xE0 then some 2
  else if 0xE0 ≤ first ∧ first < 0xF0 then some 3
  else if 0xF0 ≤ first ∧ first < 0xF8 then some 4
  else none

/-- Read the bytes of a character behind its first one; each adds six bits. -/
def takeBytes? : Nat → Nat → List Char → Option (Nat × List Char)
  | 0,     value, cs => some (value, cs)
  | n + 1, value, cs =>
    match takeByte? cs with
    | some (b, cs) =>
      if 0x80 ≤ b ∧ b < 0xC0 then takeBytes? n (64 * value + (b - 0x80)) cs else none
    | none         => none

/-- The character of a code point that was written in so many bytes, if it needs all of them. -/
def charWithin? (width n : Nat) : Option Char :=
  let least := [0, 0x80, 0x800, 0x10000].getD (width - 1) 0
  if least ≤ n then charOf? n else none

/-- Read what may be a character, its bytes being escaped. -/
def takeEscaped? (cs : List Char) : Option (Option Char × List Char) :=
  match takeByte? cs with
  | none           => none
  | some (b, rest) =>
    match widthOf? b with
    | none   => none
    | some w =>
      let lead := if w = 1 then b else b % Nat.pow 2 (7 - w)
      (takeBytes? (w - 1) lead rest).map fun (n, rest) => (charWithin? w n, rest)

/-- Undo the escapes of a tag. -/
def unescape? : Nat → List Char → Option TagText
  | 0,        cs      => if cs = [] then some [] else none
  | _ + 1,    []      => some []
  | fuel + 1, c :: cs =>
    if c = '%' then
      match takeEscaped? (c :: cs) with
      | some (x, rest) => (unescape? fuel rest).map (x :: ·)
      | none           => none
    else (unescape? fuel cs).map (some c :: ·)

/-- Read the text of a tag behind `lead`, which counts towards it; it must not be empty. -/
def takeTagText? (verbatim : Bool) (lead : List Char) (c : Cursor) : Option (TagText × Cursor) :=
  let (taken, c) := c.takeWhile (isTagChar verbatim)
  if lead = [] ∧ taken = [] then none
  else
    (unescape? taken.length taken).map fun text =>
      (((lead.drop 1).map some ++ text).takeWhile (· ≠ some '\x00'), c)

/-- Read a handle: an exclamation mark, name characters and perhaps a second mark. -/
def takeHandle (c : Cursor) : List Char × Cursor :=
  let (name, c) := c.skip.takeWhile isNameChar
  if c.atChar '!' then ('!' :: name ++ ['!'], c.skip) else ('!' :: name, c)

/-- The text is a handle that stands between two exclamation marks. -/
def isNamedHandle (handle : List Char) : Bool := 1 < handle.length && handle.getLast? == some '!'

def takeTagParts? (c : Cursor) : Option (List Char × TagText × Cursor) :=
  if c.skip.atChar '<' then
    match takeTagText? true [] (c.skipMany 2) with
    | some (suffix, c) => if c.atChar '>' then some ([], suffix, c.skip) else none
    | none             => none
  else
    let (handle, after) := c.takeHandle
    if isNamedHandle handle then
      (takeTagText? false [] after).map fun (suffix, c) => (handle, suffix, c)
    else
      match takeTagText? false handle after with
      | some ([], c)     => some ([], [some '!'], c)
      | some (suffix, c) => some (['!'], suffix, c)
      | none             => none

/-- Read a tag; a blank has to follow, or a comma in a flow collection. -/
def takeTag? (inFlow : Bool) (c : Cursor) : Option (Token × Cursor) :=
  match c.takeTagParts? with
  | none                     => none
  | some (handle, suffix, c) =>
    if c.blankAhead 0 || (inFlow && c.atChar ',') then some (.tag handle suffix, c) else none

/-! ### Directives -/

/-- Read a part of a version, at most nine digits. -/
def takeVersionPart? (c : Cursor) : Option (Nat × Cursor) :=
  let (ds, c) := c.takeWhile Char.isDigit
  if ds.length ≤ 9 then (Decimal.ofDigits? 10 ds).map fun n => (n, c) else none

def takeVersion? (c : Cursor) : Option (Token × Cursor) :=
  match takeVersionPart? (c.skipWhile isSpace) with
  | none            => none
  | some (major, c) =>
    if c.atChar '.' then
      (takeVersionPart? c.skip).map fun (minor, c) => (.versionDirective major minor, c)
    else none

/-- Read the value of a tag directive: a handle, and the text it stands for. -/
def takeTagDirective? (c : Cursor) : Option (Token × Cursor) :=
  let c := c.skipWhile isSpace
  if c.atChar '!' then
    let (handle, c) := c.takeHandle
    if handle ≠ ['!'] ∧ !isNamedHandle handle then none
    else if !c.at? isSpace then none
    else
      match takeTagText? true [] (c.skipWhile isSpace) with
      | some (lead, c) => if c.blankAhead 0 then some (.tagDirective handle lead, c) else none
      | none           => none
  else none

def takeDirective? (c : Cursor) : Option (Token × Cursor) :=
  let (name, c) := c.skip.takeWhile isNameChar
  let read :=
    if !c.blankAhead 0 then none
    else if name = ['Y', 'A', 'M', 'L'] then c.takeVersion?
    else if name = ['T', 'A', 'G'] then c.takeTagDirective?
    else none
  match read with
  | some (token, c) => c.finishLine?.map fun c => (token, c)
  | none            => none

end TwoStage.Yaml.Cursor
