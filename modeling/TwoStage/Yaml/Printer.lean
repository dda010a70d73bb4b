import TwoStage.Yaml.Scalar
import TwoStage.Yaml.Token

/-!
# Writing a document

A tree is written in block style, two columns for each level, the items of a sequence under a key
standing in the column of the key. Empty collections are written in flow style. A text is plain
where that keeps its meaning; otherwise it is literal, if it has a line feed, or single quoted,
or, as a last resort, double quoted with escapes.

A tagged value is a mapping of one entry to many readers. A mapping that would be mixed up with one
is refused.
-/

namespace TwoStage.Yaml

/-! ### The shape of a text -/

/-- The characters that are written as they are. -/
def isPrintable (c : Char) : Bool :=
  let n := c.toNat
  n == 0x0A || (0x20 ≤ n && n ≤ 0x7E) ||
  (0xA0 ≤ n && n != 0xFEFF && n != 0xFFFE && n != 0xFFFF)

/-- What the choice of style depends on. -/
structure Shape where
  hasBreak : Bool
  edgeBlank : Bool
  endsInSpace : Bool
  breakThenSpace : Bool
  spaceThenBreak : Bool
  unprintable : Bool
  indicator : Bool

namespace Shape

/-- A character that stands alone in the class of blanks, or the end of the text. -/
def blankOrEnd : Option Char → Bool
  | some c => isSpace c || isBreak c
  | none   => true

/-- The characters that may not start a plain scalar. -/
def startsBadly (c : Char) (next : Option Char) : Bool :=
  ['#', ',', '[', ']', '\x7b', '\x7d', '&', '*', '!', '|', '>', '\'', '"', '%', '@',
      '\x60'].contains c ||
    ((c == '?' || c == ':' || c == '-') && blankOrEnd next)

/-- A colon before a blank or a number sign behind one, inside of the text. -/
def hasIndicator : Option Char → List Char → Bool
  | _,    []      => false
  | prev, c :: cs =>
    (c == ':' && blankOrEnd cs.head?) || (c == '#' && blankOrEnd prev) || hasIndicator (some c) cs

/-- Somewhere a character of the first class stands right before one of the second. -/
def hasPair (p q : Char → Bool) : List Char → Bool
  | a :: b :: cs => (p a && q b) || hasPair p q (b :: cs)
  | _            => false

/-- The shape of a nonempty text. -/
def of (cs : List Char) : Shape where
  hasBreak := cs.any isBreak
  edgeBlank :=
    (cs.head?.any fun c => c == ' ' || isBreak c) ||
      (cs.getLast?.any fun c => c == ' ' || isBreak c)
  endsInSpace := cs.getLast? == some ' '
  breakThenSpace := hasPair isBreak (· == ' ') cs
  spaceThenBreak := hasPair (· == ' ') isBreak cs
  unprintable := cs.any fun c => !isPrintable c
  indicator :=
    (match cs with
      | c :: rest => startsBadly c rest.head? || hasIndicator (some c) rest
      | []        => false) ||
    ['-', '-', '-'].isPrefixOf cs || ['.', '.', '.'].isPrefixOf cs

/-- The text may be written without quotes. -/
def allowsPlain (s : Shape) : Bool :=
  !(s.edgeBlank || s.breakThenSpace || s.spaceThenBreak || s.unprintable || s.hasBreak ||
    s.indicator)

/-- The text may be written in single quotes. -/
def allowsSingle (s : Shape) : Bool := !(s.breakThenSpace || s.spaceThenBreak || s.unprintable)

/-- The text may be written line by line. -/
def allowsLiteral (s : Shape) : Bool := !(s.endsInSpace || s.spaceThenBreak || s.unprintable)

end Shape

inductive Style
  | plain
  | single
  | double
  | literal
deriving DecidableEq, Repr

def styleOf (inKey : Bool) (s : String) : Style :=
  let cs := s.toList
  let shape := Shape.of cs
  let wanted :=
    if cs.contains '\n' then Style.literal
    else if Meaning.isAmbiguous s then .single
    else .plain
  let wanted := if inKey && shape.hasBreak then .double else wanted
  match wanted with
  | .literal => if shape.allowsLiteral && !inKey then .literal else .double
  | .double  => .double
  | .single  => if cs = [] || shape.allowsSingle then .single else .double
  | .plain   =>
    if shape.allowsPlain then .plain else if shape.allowsSingle then .single else .double

/-! ### Text on a page -/

/-- Text that has been written, and whether it ends at the start of a line. -/
structure Page where
  chars : List Char
  atLineStart : Bool

namespace Page

/-- Text that ends within a line. -/
def inLine (cs : List Char) : Page := ⟨cs, false⟩

/-- Put text in front. -/
def after (cs : List Char) (p : Page) : Page := ⟨cs ++ p.chars, p.atLineStart⟩

def append (p q : Page) : Page := ⟨p.chars ++ q.chars, q.atLineStart⟩

end Page

def newLine (atLineStart : Bool) (column : Nat) : List Char :=
  (if atLineStart then [] else ['\n']) ++ List.replicate column ' '

/-! ### Scalars -/

/-- The letter that escapes a character in double quotes. -/
def escapeLetter? : Char → Option Char
  | '\x00'   => some '0'
  | '\x07'   => some 'a'
  | '\x08'   => some 'b'
  | '\t'     => some 't'
  | '\n'     => some 'n'
  | '\x0b'   => some 'v'
  | '\x0c'   => some 'f'
  | '\r'     => some 'r'
  | '\x1b'   => some 'e'
  | '"'      => some '"'
  | '\\'     => some '\\'
  | '\u0085' => some 'N'
  | '\u00a0' => some '_'
  | '\u2028' => some 'L'
  | '\u2029' => some 'P'
  | _        => none

def upperHex (width n : Nat) : List Char :=
  let ds := (Nat.toDigits 16 n).map Char.toUpper
  List.replicate (width - ds.length) '0' ++ ds

def doubleChar (c : Char) : List Char :=
  if isPrintable c && !isBreak c && c != '"' && c != '\\' then [c]
  else
    match escapeLetter? c with
    | some e => ['\\', e]
    | none   =>
      let n := c.toNat
      if n ≤ 0xFF then ['\\', 'x'] ++ upperHex 2 n
      else if n ≤ 0xFFFF then ['\\', 'u'] ++ upperHex 4 n
      else ['\\', 'U'] ++ upperHex 8 n

/-- The characters between single quotes; a line after a break is indented. -/
def singleChars (indent : Nat) : (broken : Bool) → List Char → List Char
  | broken, []      => if broken then List.replicate indent ' ' else []
  | broken, c :: cs =>
    if isBreak c then
      (if c == '\n' && !broken then ['\n', '\n'] else [c]) ++ singleChars indent true cs
    else
      (if broken && c != ' ' then List.replicate indent ' ' else []) ++
        (if c == '\'' then ['\'', '\''] else [c]) ++ singleChars indent (broken && c == ' ') cs

/-- The lines of a literal scalar. -/
def literalChars (indent : Nat) : (atStart : Bool) → List Char → Page
  | atStart, []      => ⟨[], atStart⟩
  | atStart, c :: cs =>
    if isBreak c then (literalChars indent true cs).after [c]
    else
      (literalChars indent false cs).after
        ((if atStart then List.replicate indent ' ' else []) ++ [c])

/-- The indicators behind the bar of a literal scalar: the indentation, if the first line does not
show it, and what becomes of the last line breaks. -/
def literalHints (cs : List Char) : List Char :=
  (if cs.head?.any fun c => c == ' ' || isBreak c then ['2'] else []) ++
  (match cs.reverse with
    | last :: rest =>
      if !isBreak last then ['-']
      else if rest.head?.all isBreak then ['+']
      else []
    | [] => ['-'])

/-- A text in the given style; its further lines stand in the column `indent`. -/
def writeText (style : Style) (indent : Nat) (s : String) : Page :=
  let cs := s.toList
  match style with
  | .plain   => .inLine cs
  | .single  => .inLine (['\''] ++ singleChars indent false cs ++ ['\''])
  | .double  => .inLine (['"'] ++ cs.flatMap doubleChar ++ ['"'])
  | .literal => (literalChars indent true cs).after (['|'] ++ literalHints cs ++ ['\n'])

/-- The characters of a tag that need no escape. -/
def isTagSafe (c : Char) : Bool :=
  isNameChar c ||
    [';', '/', '?', ':', '@', '&', '=', '+', '$', ',', '.', '~', '*', '\'', '(', ')', '[',
      ']'].contains c

/-- A character of a tag, its bytes being escaped if it is not safe. -/
def tagChar (c : Char) : List Char :=
  if isTagSafe c then [c]
  else (String.singleton c).toUTF8.toList.flatMap fun b => '%' :: upperHex 2 b.toNat

/-- The full text of a tag: an exclamation mark and its name, unless the name starts with one. -/
def fullTag (tag : String) : List Char :=
  match tag.toList with
  | '!' :: cs => '!' :: cs
  | cs        => '!' :: cs

/-- A tag as it is written; one that is a mere exclamation mark stands in angles. -/
def tagChars (tag : String) : List Char :=
  match fullTag tag with
  | ['!'] => ['!', '<'] ++ tagChar '!' ++ ['>']
  | cs    => '!' :: (cs.drop 1).flatMap tagChar

/-! ### Nodes -/

/-- What stands in front of a node on its line. -/
inductive Place
  /-- The start of the document. -/
  | top
  /-- The dash of an item, -/
  | item
  /-- the question mark or the colon that stands for itself, -/
  | explicit
  /-- or the colon behind a simple key. -/
  | value
deriving DecidableEq

/-- The page of a scalar other than a text. -/
def writeScalar (inKey : Bool) (indent : Nat) : Tree → Page
  | .null     => .inLine ['n', 'u', 'l', 'l']
  | .bool b   => .inLine (Tree.boolText b).toList
  | .number n => .inLine n.text.toList
  | .text s   => writeText (styleOf inKey s) indent s
  | _         => .inLine []

/-- The tree is a scalar or an empty collection. -/
def isInline : Tree → Bool
  | .sequence items  => items.isEmpty
  | .mapping entries => entries.isEmpty
  | .tagged _ value  => isInline value
  | _                => true

/-- The bytes of the tag and the content of a key that has one line. -/
def keySize? : Tree → Option Nat
  | .text s            => if s.toList.any isBreak then none else some s.utf8ByteSize
  | .sequence items    => if items.isEmpty then some 0 else none
  | .mapping entries   => if entries.isEmpty then some 0 else none
  | .tagged tag value  =>
    (keySize? value).map fun n => (String.ofList (fullTag tag)).utf8ByteSize + n
  | scalar             => some (writeScalar true 0 scalar).chars.length

/-- The key fits in front of its colon: it has one line and at most 128 bytes. -/
def isSimpleKey (key : Tree) : Bool := (keySize? key).any (· ≤ 128)

/-- The blank that parts a node from what is in front of it. -/
def gap (place : Place) : List Char := if place = .top then [] else [' ']

/-- Where a collection begins: on the line of what is in front of it, or on a new one. -/
def opening (place : Place) (tagged : Bool) (indent : Nat) : List Char :=
  match place, tagged with
  | .top,   false => []
  | .value, _     => '\n' :: List.replicate indent ' '
  | _,      false => [' ']
  | _,      true  => '\n' :: List.replicate indent ' '

/-- The column of the items of a sequence; `indent` is the column of the collection around it. -/
def itemColumn (place : Place) (tagged : Bool) (indent : Nat) : Nat :=
  match place, tagged with
  | .top,      _     => 0
  | .value,    _     => indent
  | .explicit, true  => indent
  | _,         _     => indent + 2

def keyColumn (place : Place) (indent : Nat) : Nat := if place = .top then 0 else indent + 2

/-- What is in front of an inline node: a blank and perhaps a tag. -/
def lead (place : Place) (tag : Option String) : List Char :=
  match tag with
  | some t => gap place ++ tagChars t ++ [' ']
  | none   => gap place

/-- What is in front of a collection: perhaps a tag, then a blank or a new line. -/
def front (place : Place) (tag : Option String) (column : Nat) : List Char :=
  match tag with
  | some t => gap place ++ tagChars t ++ opening place true column
  | none   => opening place false column

/-- Write a simple key. -/
def writeKey (tag : Option String) (column : Nat) : Tree → List Char
  | .tagged t value => writeKey (some t) column value
  | .sequence _     => lead .top tag ++ ['[', ']']
  | .mapping _      => lead .top tag ++ ['\x7b', '\x7d']
  | scalar          => lead .top tag ++ (writeScalar true column scalar).chars

mutual

/-- Write a node inside a collection that stands in the column `indent`, under a tag or not. -/
def writeNode (place : Place) (tag : Option String) (indent : Nat) : Tree → Page
  | .tagged t value     => writeNode place (some t) indent value
  | .sequence []        => .inLine (lead place tag ++ ['[', ']'])
  | .mapping []         => .inLine (lead place tag ++ ['\x7b', '\x7d'])
  | .sequence (t :: ts) =>
    let column := itemColumn place tag.isSome indent
    (writeItems column none (t :: ts)).after (front place tag column)
  | .mapping (e :: es)  =>
    let column := keyColumn place indent
    (writeEntries column none (e :: es)).after (front place tag column)
  | scalar              => (writeScalar false (indent + 2) scalar).after (lead place tag)

/-- Write the items of a sequence; `behind` tells whether an item before ended its line. -/
def writeItems (column : Nat) (behind : Option Bool) : List Tree → Page
  | []      => ⟨[], behind.getD false⟩
  | t :: ts =>
    let start := behind.elim [] fun b => newLine b column
    let item := (writeNode .item none column t).after (start ++ ['-'])
    item.append (writeItems column (some item.atLineStart) ts)

/-- Write the entries of a mapping; `behind` tells whether an entry before ended its line. -/
def writeEntries (column : Nat) (behind : Option Bool) : List (Tree × Tree) → Page
  | []           => ⟨[], behind.getD false⟩
  | (k, v) :: es =>
    let start := behind.elim [] fun b => newLine b column
    let entry :=
      if isSimpleKey k then
        (writeNode .value none column v).after (start ++ writeKey none column k ++ [':'])
      else
        let key := (writeNode .explicit none column k).after (start ++ ['?'])
        let value := writeNode .explicit none column v
        key.append (value.after (newLine key.atLineStart column ++ [':']))
    entry.append (writeEntries column (some entry.atLineStart) es)

end

/-- The text of a document. -/
def write (t : Tree) : String :=
  let p := writeNode .top none 0 t
  String.ofList (p.chars ++ newLine p.atLineStart 0)

/-! ### Documents that are refused -/

/-- A mapping of one entry that could be taken for a tag: its key is tagged or is itself a mapping
of one entry. -/
def isTagLike : List (Tree × Tree) → Bool
  | [(.tagged .., _)]   => true
  | [(.mapping [_], _)] => true
  | _                   => false

mutual

/-- No mapping in the tree could be taken for a tag, except right under a tag. -/
def isWritable (tagged : Bool) : Tree → Bool
  | .sequence items  => areWritable items
  | .mapping entries => (tagged || !isTagLike entries) && entriesWritable entries
  | .tagged _ value  => isWritable true value
  | _                => true

def areWritable : List Tree → Bool
  | []      => true
  | t :: ts => isWritable false t && areWritable ts

def entriesWritable : List (Tree × Tree) → Bool
  | []           => true
  | (k, v) :: es => isWritable false k && isWritable false v && entriesWritable es

end

/-- The text of a document, unless a mapping in it could be taken for a tag. -/
def write? (t : Tree) : Option String := if isWritable false t then some (write t) else none

end TwoStage.Yaml
