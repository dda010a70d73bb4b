import TwoStage.Yaml.Token
import TwoStage.Decimal.Numeral

/-!
# Scalars in a document text

Plain, quoted and block scalars. A line break inside a plain or quoted scalar folds: one break
becomes a space, and of several the first is dropped.

Every loop is bounded by the number of characters ahead, since each round takes at least one.
-/

namespace TwoStage.Yaml

namespace Cursor

/-! ### Gaps between the words of a scalar -/

/-- The blanks before a first line break, that break, and the breaks after it. -/
structure Gap where
  blanks : List Char
  first : Option Char
  broken : Bool
  later : List Char

namespace Gap

def empty : Gap := ⟨[], none, false, []⟩

/-- An escaped line break: it joins the lines without a trace. -/
def joined : Gap := ⟨[], none, true, []⟩

/-- What the gap contributes to the scalar. -/
def folded (g : Gap) : List Char :=
  if g.broken then
    match g.first with
    | some '\n' => if g.later = [] then [' '] else g.later
    | some c    => c :: g.later
    | none      => g.later
  else g.blanks

end Gap

/-- Collect a gap. A tab that stands after a break and before the column `margin` is refused. -/
def takeGap? (margin : Nat) : Nat → Gap → Cursor → Option (Gap × Cursor)
  | 0,        g, c => some (g, c)
  | fuel + 1, g, c =>
    match c.rest with
    | []     => some (g, c)
    | x :: _ =>
      if isSpace x then
        if g.broken then
          if c.column < margin ∧ x = '\t' then none else takeGap? margin fuel g c.skip
        else takeGap? margin fuel { g with blanks := g.blanks ++ [x] } c.skip
      else
        match c.breakChar with
        | some b =>
          if g.broken then
            takeGap? margin fuel { g with later := g.later ++ [b] } c.skipBreak
          else takeGap? margin fuel { g with first := some b, broken := true } c.skipBreak
        | none => some (g, c)

/-! ### Quoted scalars -/

/-- The character that an escape of one letter stands for. -/
def escapedChar? : Char → Option Char
  | '0'  => some '\x00'
  | 'a'  => some '\x07'
  | 'b'  => some '\x08'
  | 't'  => some '\t'
  | '\t' => some '\t'
  | 'n'  => some '\n'
  | 'v'  => some '\x0b'
  | 'f'  => some '\x0c'
  | 'r'  => some '\r'
  | 'e'  => some '\x1b'
  | ' '  => some ' '
  | '"'  => some '"'
  | '/'  => some '/'
  | '\\' => some '\\'
  | 'N'  => some '\u0085'
  | '_'  => some '\u00a0'
  | 'L'  => some '\u2028'
  | 'P'  => some '\u2029'
  | _    => none

/-- How many digits follow the letter of a numeric escape. -/
def escapeDigits? : Char → Option Nat
  | 'x' => some 2
  | 'u' => some 4
  | 'U' => some 8
  | _   => none

/-- Read an escape behind its backslash. -/
def takeEscape? (c : Cursor) : Option (Char × Cursor) :=
  match c.rest with
  | []        => none
  | x :: rest =>
    match escapedChar? x, escapeDigits? x with
    | some e, _      => some (e, c.skip)
    | none,   some n =>
      if rest.length < n then none
      else
        match (Decimal.readDigits? 16 0 (rest.take n)).bind charOf? with
        | some e => some (e, c.skipMany (n + 1))
        | none   => none
    | none,   none   => none

/-- Read a quoted scalar behind its opening quote, its characters so far in reverse. -/
def takeQuoted? (quote : Char) : Nat → List Char → Cursor → Option (List Char × Cursor)
  | 0,        _,   _ => none
  | fuel + 1, acc, c =>
    if c.atDocumentMark then none
    else
      match c.rest with
      | []        => none
      | x :: rest =>
        if isSpace x || isBreak x then
          match takeGap? 0 c.rest.length .empty c with
          | some (g, c) => takeQuoted? quote fuel (g.folded.reverse ++ acc) c
          | none        => none
        else if x = quote then
          if quote = '\'' ∧ rest.head? = some '\'' then
            takeQuoted? quote fuel ('\'' :: acc) (c.skipMany 2)
          else some (acc.reverse, c.skip)
        else if quote = '"' ∧ x = '\\' then
          if c.skip.at? isBreak then
            match takeGap? 0 c.rest.length .joined c.skip.skipBreak with
            | some (g, c) => takeQuoted? quote fuel (g.folded.reverse ++ acc) c
            | none        => none
          else
            match takeEscape? c.skip with
            | some (e, c) => takeQuoted? quote fuel (e :: acc) c
            | none        => none
        else takeQuoted? quote fuel (x :: acc) c.skip

/-! ### Plain scalars -/

def isFlowIndicator (c : Char) : Bool :=
  c == ',' || c == '[' || c == ']' || c == '\x7b' || c == '\x7d'

def endsPlain (inFlow : Bool) (c : Cursor) : Bool :=
  (c.atChar ':' && c.blankAhead 1) || (inFlow && c.at? isFlowIndicator)

/-- A colon right before a flow indicator, which is refused in a flow collection. -/
def misplacedColon (inFlow : Bool) (c : Cursor) : Bool :=
  inFlow && c.atChar ':' && (c.skip.at? fun x => isFlowIndicator x || x == '?')

/-- Read one word of a plain scalar, in reverse on top of `acc`. -/
def takeWord? (inFlow : Bool) : Nat → List Char → Cursor → Option (List Char × Cursor)
  | 0,        acc, c => some (acc, c)
  | fuel + 1, acc, c =>
    if c.blankAhead 0 then some (acc, c)
    else if c.misplacedColon inFlow then none
    else if c.endsPlain inFlow then some (acc, c)
    else
      match c.rest with
      | x :: _ => takeWord? inFlow fuel (x :: acc) c.skip
      | []     => some (acc, c)

/-- A plain scalar: its content, whether a line break followed its last word, and what is left. -/
structure Plain where
  content : List Char
  broken : Bool
  rest : Cursor

/-- Read a plain scalar: its words so far in reverse, and the gap behind them. Lines behind the
first have to reach the column `margin`, except in a flow collection. -/
def takePlain? (inFlow : Bool) (margin : Nat) : Nat → List Char → Gap → Cursor → Option Plain
  | 0,        acc, g, c => some ⟨acc.reverse, g.broken, c⟩
  | fuel + 1, acc, g, c =>
    if c.atDocumentMark || c.atChar '#' then some ⟨acc.reverse, g.broken, c⟩
    else
      match takeWord? inFlow c.rest.length [] c with
      | none           => none
      | some (word, after) =>
        let (acc, g) := if word = [] then (acc, g) else (word ++ g.folded.reverse ++ acc, Gap.empty)
        if after.rest = [] || !after.blankAhead 0 then some ⟨acc.reverse, g.broken, after⟩
        else
          match takeGap? margin after.rest.length g after with
          | none            => none
          | some (g, after) =>
            if !inFlow && after.column < margin then some ⟨acc.reverse, g.broken, after⟩
            else takePlain? inFlow margin fuel acc g after

/-! ### Block scalars -/

/-- What happens to the line breaks at the end of a block scalar. -/
inductive Chomping
  | strip
  | clip
  | keep
deriving DecidableEq

def takeChomping (c : Cursor) : Chomping × Cursor :=
  if c.atChar '+' then (.keep, c.skip)
  else if c.atChar '-' then (.strip, c.skip)
  else (.clip, c)

/-- Read an indentation indicator, a digit other than zero; no indicator gives zero. -/
def takeIncrement? (c : Cursor) : Option (Nat × Cursor) :=
  match c.rest with
  | x :: _ =>
    if x = '0' then none
    else if x.isDigit then some (x.toNat - 48, c.skip)
    else some (0, c)
  | [] => some (0, c)

/-- Read the two indicators of a block scalar, in either order. -/
def takeHeader? (c : Cursor) : Option (Chomping × Nat × Cursor) :=
  if c.atChar '+' || c.atChar '-' then
    let (chomping, c) := c.takeChomping
    (takeIncrement? c).map fun (n, c) => (chomping, n, c)
  else
    match takeIncrement? c with
    | none        => none
    | some (0, c) => some (.clip, 0, c)
    | some (n, c) => let (chomping, c) := c.takeChomping; some (chomping, n, c)

/-- Step over indentation and empty lines, collecting their breaks. An indentation of zero is
still open: the deepest line decides it. -/
def takeIndent? (indent : Nat) : Nat → Nat → List Char → Cursor → Option (Nat × List Char × Cursor)
  | 0,        deepest, breaks, c => some (deepest, breaks, c)
  | fuel + 1, deepest, breaks, c =>
    let short := indent = 0 ∨ c.column < indent
    if short ∧ c.atChar ' ' then takeIndent? indent fuel deepest breaks c.skip
    else
      let deepest := max deepest c.column
      if short ∧ c.atChar '\t' then none
      else
        match c.breakChar with
        | some b => takeIndent? indent fuel deepest (breaks ++ [b]) c.skipBreak
        | none   => some (deepest, breaks, c)

/-- The lines of a block scalar read so far. -/
structure Block where
  content : List Char
  lastBreak : List Char
  breaks : List Char
  startsBlank : Bool

/-- Append a line whose first character is at hand. A folded scalar turns the break before a line
into a space when neither line starts with a blank. -/
def Block.join (folded : Bool) (b : Block) (blank : Bool) : List Char :=
  if folded && b.lastBreak == ['\n'] && !b.startsBlank && !blank then
    if b.breaks = [] then b.content ++ [' '] else b.content ++ b.breaks
  else b.content ++ b.lastBreak ++ b.breaks

def takeBlockLines? (folded : Bool) (indent : Nat) : Nat → Block → Cursor → Option (Block × Cursor)
  | 0,        b, c => some (b, c)
  | fuel + 1, b, c =>
    if c.column = indent ∧ c.rest ≠ [] then
      let blank := c.at? isSpace
      let (line, after) := c.takeWhile fun x => !isBreak x
      let lastBreak := after.breakChar.toList
      match takeIndent? indent after.rest.length 0 [] after.skipBreak with
      | none                     => none
      | some (_, breaks, after) =>
        takeBlockLines? folded indent fuel ⟨b.join folded blank ++ line, lastBreak, breaks, blank⟩
          after
    else some (b, c)

/-- Read a block scalar behind its first character; `margin` is the column that its lines have to
reach unless it names its own. -/
def takeBlock? (folded : Bool) (margin : Nat) (c : Cursor) : Option (List Char × Cursor) :=
  match takeHeader? c with
  | none                          => none
  | some (chomping, increment, c) =>
    match c.finishLine? with
    | none   => none
    | some c =>
      let given := if increment = 0 then 0 else margin - 1 + increment
      match takeIndent? given c.rest.length 0 [] c with
      | none                      => none
      | some (deepest, breaks, c) =>
        let indent := if given = 0 then max (max deepest margin) 1 else given
        match takeBlockLines? folded indent c.rest.length ⟨[], [], breaks, false⟩ c with
        | none        => none
        | some (b, c) =>
          match chomping with
          | .strip => some (b.content, c)
          | .clip  => some (b.content ++ b.lastBreak, c)
          | .keep  => some (b.content ++ b.lastBreak ++ b.breaks, c)

end Cursor

end TwoStage.Yaml
