import TwoStage.Yaml.Token.Scalar
import TwoStage.Yaml.Token.Property

/-!
# Reading tokens

Indentation opens and closes block collections. Whether a scalar is the key of a mapping shows
only at a colon behind it, so a place where a key may have begun is kept until then: the tokens
that announce the key are put in front of it afterwards. Such a place is given up when the line
ends or 1024 characters have passed.

`Lexer.tokens` is the whole sequence. When a text cannot be read to its end, the sequence ends in
`unreadable`, and the tokens behind a place where a key may still begin are held back, because
they are not settled yet.
-/

namespace TwoStage.Yaml

/-- A place where a key may have begun. -/
structure KeyPlace where
  required : Bool
  tokenNumber : Nat
  index : Nat
  line : Nat
  column : Nat
deriving Repr

/-- The state between two tokens. -/
structure Lexer where
  cursor : Cursor
  /-- One more than the column of the innermost block collection, or zero outside of any. -/
  margin : Nat
  /-- The margins of the collections around it. -/
  outer : List Nat
  /-- One place for each open flow collection, innermost first, and one for the block context. -/
  places : List (Option KeyPlace)
  keyAllowed : Bool
  /-- The tokens so far, the latest first. -/
  produced : List Token
deriving Repr

namespace Lexer

def start (text : List Char) : Lexer := ⟨.start text, 0, [], [none], false, []⟩

def inFlow (l : Lexer) : Bool := 1 < l.places.length

/-- The number of the next token. -/
def count (l : Lexer) : Nat := l.produced.length

def push (l : Lexer) (t : Token) : Lexer := { l with produced := t :: l.produced }

def insertAt (l : Lexer) (number : Nat) (t : Token) : Lexer :=
  let behind := l.count - number
  { l with produced := l.produced.take behind ++ t :: l.produced.drop behind }

/-! ### Places of keys -/

/-- The place is on an earlier line or too far back. -/
def isStale (c : Cursor) (p : KeyPlace) : Bool := p.line < c.line || p.index + 1024 < c.index

/-- Give up the places that are too old; a required one may not be given up. -/
def dropStale? (l : Lexer) : Option Lexer :=
  if l.places.any fun p => p.any fun p => isStale l.cursor p && p.required then none
  else
    some { l with places := l.places.map fun p => p.filter fun p => !isStale l.cursor p }

/-- Give up the innermost place; a required one may not be given up. -/
def dropPlace? (l : Lexer) : Option Lexer :=
  match l.places with
  | some p :: places => if p.required then none else some { l with places := none :: places }
  | _                => some l

/-- A key may begin here, if one is allowed. -/
def savePlace? (l : Lexer) : Option Lexer :=
  if l.keyAllowed then
    let c := l.cursor
    let place : KeyPlace :=
      ⟨!l.inFlow && l.margin == c.column + 1, l.count, c.index, c.line, c.column⟩
    l.dropPlace?.map fun l => { l with places := some place :: l.places.drop 1 }
  else some l

/-! ### Indentation -/

/-- Close block collections until the margin is at most the limit. -/
def closeBlocks (limit : Nat) : List Nat → Lexer → Lexer
  | [],            l => l
  | margin :: rest, l =>
    if limit < l.margin then
      closeBlocks limit rest { l.push .blockEnd with margin := margin, outer := rest }
    else l

/-- Close the block collections that are indented deeper than the limit. -/
def unindent (limit : Nat) (l : Lexer) : Lexer :=
  if l.inFlow then l else closeBlocks limit l.outer l

/-- Open a block collection at a column, its token going in front of the numbered one. -/
def indent (column number : Nat) (t : Token) (l : Lexer) : Lexer :=
  if l.inFlow then l
  else if l.margin ≤ column then
    { l.insertAt number t with margin := column + 1, outer := l.margin :: l.outer }
  else l

/-! ### Blanks and comments -/

/-- Step over blanks, comments and line breaks. A tab counts as a blank only where no key may
begin. A new line may start with a byte order mark, and in the block context with a key. -/
def skipBlanks : Nat → Lexer → Lexer
  | 0,        l => l
  | fuel + 1, l =>
    let tabs := l.inFlow || !l.keyAllowed
    let c := l.cursor.skipOrderMark
    let c := (c.skipWhile fun x => x == ' ' || (tabs && x == '\t')).skipComment
    if c.at? isBreak then
      skipBlanks fuel { l with cursor := c.skipBreak, keyAllowed := l.keyAllowed || !l.inFlow }
    else { l with cursor := c }

/-! ### One token -/

/-- Add a token that takes so many characters. -/
def take (n : Nat) (t : Token) (l : Lexer) : Lexer :=
  { l.push t with cursor := l.cursor.skipMany n }

/-- Allow or forbid a key behind the token. -/
def allowKey (allowed : Bool) (l : Lexer) : Lexer := { l with keyAllowed := allowed }

/-- The marks between documents close everything that is open. -/
def betweenDocuments? (l : Lexer) : Option Lexer := (l.unindent 0).dropPlace?.map (allowKey false)

def directive? (l : Lexer) : Option Lexer :=
  match l.betweenDocuments? with
  | none   => none
  | some l => l.cursor.takeDirective?.map fun (t, c) => { l.push t with cursor := c }

def documentMark? (t : Token) (l : Lexer) : Option Lexer := l.betweenDocuments?.map (take 3 t)

/-- The start of a flow collection, which may itself be a key. -/
def openFlow? (t : Token) (l : Lexer) : Option Lexer :=
  l.savePlace?.map fun l => { (l.take 1 t).allowKey true with places := none :: l.places }

def closeFlow? (t : Token) (l : Lexer) : Option Lexer :=
  l.dropPlace?.map fun l =>
    { (l.take 1 t).allowKey false with
      places := if l.inFlow then l.places.drop 1 else l.places }

def flowEntry? (l : Lexer) : Option Lexer :=
  l.dropPlace?.map fun l => (l.take 1 .flowEntry).allowKey true

def blockEntry? (l : Lexer) : Option Lexer :=
  if !l.inFlow && !l.keyAllowed then none
  else
    (l.indent l.cursor.column l.count .blockSequenceStart).dropPlace?.map fun l =>
      (l.take 1 .blockEntry).allowKey true

def explicitKey? (l : Lexer) : Option Lexer :=
  if !l.inFlow && !l.keyAllowed then none
  else
    (l.indent l.cursor.column l.count .blockMappingStart).dropPlace?.map fun l =>
      (l.take 1 .key).allowKey (!l.inFlow)

/-- A colon: the innermost place was a key after all, or the key was announced before. -/
def value? (l : Lexer) : Option Lexer :=
  match l.places with
  | some p :: places =>
    let l := (l.insertAt p.tokenNumber .key).indent p.column p.tokenNumber .blockMappingStart
    some (({ l with places := none :: places }.take 1 .value).allowKey false)
  | _ =>
    if !l.inFlow && !l.keyAllowed then none
    else
      let l := l.indent l.cursor.column l.count .blockMappingStart
      some ((l.take 1 .value).allowKey (!l.inFlow))

/-- A token that may begin a key, read from here. -/
def keyLike? (read : Cursor → Option (Token × Cursor)) (l : Lexer) : Option Lexer :=
  match l.savePlace? with
  | none   => none
  | some l => (read l.cursor).map fun (t, c) => { (l.push t).allowKey false with cursor := c }

def named? (build : List Char → Token) (l : Lexer) : Option Lexer :=
  l.keyLike? fun c => c.skip.takeAnchorName?.map fun (name, c) => (build name, c)

def quoted? (quote : Char) (l : Lexer) : Option Lexer :=
  l.keyLike? fun c =>
    (c.skip.takeQuoted? quote c.rest.length []).map fun (s, c) => (.scalar s false, c)

/-- A block scalar; the line behind it may begin with a key. -/
def block? (folded : Bool) (l : Lexer) : Option Lexer :=
  match l.dropPlace? with
  | none   => none
  | some l =>
    (l.cursor.skip.takeBlock? folded l.margin).map fun (s, c) =>
      { (l.push (.scalar s false)).allowKey true with cursor := c }

/-- A plain scalar; a key may follow on a new line. -/
def plain? (l : Lexer) : Option Lexer :=
  match l.savePlace? with
  | none   => none
  | some l =>
    (l.cursor.takePlain? l.inFlow l.margin l.cursor.rest.length [] .empty).map fun p =>
      { l.push (.scalar p.content true) with cursor := p.rest, keyAllowed := p.broken }

/-- The characters that no plain scalar starts with. -/
def isIndicator (c : Char) : Bool :=
  ['-', '?', ':', ',', '[', ']', '\x7b', '\x7d', '#', '&', '*', '!', '|', '>', '\'', '"', '%', '@',
    '\x60'].contains c

def startsPlain (l : Lexer) (x : Char) : Bool :=
  let c := l.cursor
  (!c.blankAhead 0 && !isIndicator x) ||
    (x == '-' && !(c.skip.at? isSpace)) ||
    (!l.inFlow && (x == '?' || x == ':') && !c.blankAhead 1)

/-- The token that begins with the next character. -/
def token? (l : Lexer) (x : Char) : Option Lexer :=
  let c := l.cursor
  if c.column == 0 && x == '%' then l.directive?
  else if c.atTriple '-' then l.documentMark? .documentStart
  else if c.atTriple '.' then l.documentMark? .documentEnd
  else if x == '[' then l.openFlow? .flowSequenceStart
  else if x == '\x7b' then l.openFlow? .flowMappingStart
  else if x == ']' then l.closeFlow? .flowSequenceEnd
  else if x == '\x7d' then l.closeFlow? .flowMappingEnd
  else if x == ',' then l.flowEntry?
  else if x == '-' && c.blankAhead 1 then l.blockEntry?
  else if x == '?' && (l.inFlow || c.blankAhead 1) then l.explicitKey?
  else if x == ':' && (l.inFlow || c.blankAhead 1) then l.value?
  else if x == '*' then l.named? .alias
  else if x == '&' then l.named? .anchor
  else if x == '!' then l.keyLike? (·.takeTag? l.inFlow)
  else if x == '|' && !l.inFlow then l.block? false
  else if x == '>' && !l.inFlow then l.block? true
  else if x == '\'' || x == '"' then l.quoted? x
  else if l.startsPlain x then l.plain?
  else none

/-- The state behind the next token; at the end of the text that token is `streamEnd`. -/
def next? (l : Lexer) : Option Lexer :=
  match (l.skipBlanks (l.cursor.rest.length + 1)).dropStale? with
  | none   => none
  | some l =>
    let l := l.unindent (l.cursor.column + 1)
    match l.cursor.rest with
    | x :: _ => l.token? x
    | []     => (l.unindent 0).dropPlace?.map (push · .streamEnd)

/-! ### All tokens -/

/-- The tokens in front of the first place where a key may still begin. -/
def settled (l : Lexer) : List Token :=
  let open? := l.places.filterMap fun p => p.filter fun p => !isStale l.cursor p
  let limit := (open?.map KeyPlace.tokenNumber).foldl min l.count
  l.produced.reverse.take limit

/-- Read on until the end, or until the text cannot be read any further. -/
def run : Nat → Lexer → List Token
  | 0,        l => l.settled ++ [.unreadable]
  | fuel + 1, l =>
    match l.next? with
    | none    => l.settled ++ [.unreadable]
    | some l' =>
      match l'.produced with
      | .streamEnd :: _ => l'.produced.reverse
      | _               => run fuel l'

end Lexer

/-- The tokens of a text, in which no character outside the allowed ones may be anywhere. -/
def tokens (text : List Char) : List Token :=
  if text.all isAllowed then (Lexer.start text).allowKey true |>.run (text.length + 2)
  else [.unreadable]

end TwoStage.Yaml
