import TwoStage.Yaml.Token.Lexer

/-!
# Nodes of a document

A node is what the tokens of one document spell: a scalar, a sequence or a mapping with its
properties, or an alias. Anchors are numbered; an alias refers to the number that its name had
last been given when it was met.

Reading follows the grammar with one token of foresight. Each step of a node takes a token, so the
number of tokens bounds the depth of the recursion.
-/

namespace TwoStage.Yaml

/-- The properties of a node: the number of its anchor, and its tag in full. -/
structure Properties where
  anchor : Option Nat
  tag : Option TagText
deriving DecidableEq, Repr

/-- What the tokens of a document spell. -/
inductive Node
  | alias (anchor : Nat)
  | scalar (props : Properties) (content : List Char) (plain : Bool)
  | sequence (props : Properties) (items : List Node)
  | mapping (props : Properties) (entries : List (Node × Node))
deriving Repr

namespace Node

/-- A scalar that is not there. -/
def missing : Node := .scalar ⟨none, none⟩ [] true

/-- What reading a document keeps: the tokens ahead, the numbers of the anchors, and the texts
that tag handles stand for. -/
structure State where
  ahead : List Token
  anchors : List (List Char × Nat)
  handles : List (List Char × TagText)

namespace State

def next (s : State) : Token := s.ahead.head?.getD .unreadable

def skip (s : State) : State := { s with ahead := s.ahead.drop 1 }

/-- The number of a name. -/
def anchor? (name : List Char) (s : State) : Option Nat := s.anchors.lookup name

/-- Number a name. The number is how many names there are so far; a name that is already among
them is counted too, and changes its number. -/
def declare (name : List Char) (s : State) : Nat × State :=
  (s.anchors.length, { s with
    anchors := (name, s.anchors.length) :: s.anchors.filter fun (n, _) => n != name })

/-- The full tag of a handle and a suffix. -/
def fullTag? (handle : List Char) (suffix : TagText) (s : State) : Option TagText :=
  if handle = [] then some suffix else (s.handles.lookup handle).map (· ++ suffix)

/-- Read an anchor and a tag, in either order, each at most once. -/
def properties? (s : State) : Option (Properties × State) :=
  let tag? (s : State) : Option (Option TagText × State) :=
    match s.next with
    | .tag handle suffix => (s.fullTag? handle suffix).map fun t => (some t, s.skip)
    | _                  => some (none, s)
  let name (s : State) : Option (List Char) × State :=
    match s.next with
    | .anchor name => (some name, s.skip)
    | _            => (none, s)
  let read : Option (Option (List Char) × Option TagText × State) :=
    match s.next with
    | .tag .. =>
      (tag? s).map fun (tag, s) => let (anchor, s) := name s; (anchor, tag, s)
    | _ =>
      let (anchor, s) := name s
      (tag? s).map fun (tag, s) => (anchor, tag, s)
  read.map fun (anchor, tag, s) =>
    match anchor with
    | some a => let (n, s) := s.declare a; (⟨some n, tag⟩, s)
    | none   => (⟨none, tag⟩, s)

end State

def endsAt (stops : List Token) (s : State) : Bool := stops.contains s.next

mutual

/-- Read a node. Block collections only in the block context; a sequence may go without its own
indentation where it is a value. -/
def read? : Nat → (block indentless : Bool) → State → Option (Node × State)
  | 0,        _,     _,          _ => none
  | fuel + 1, block, indentless, s =>
    match s.next with
    | .alias name => (s.anchor? name).map fun n => (.alias n, s.skip)
    | _ =>
      match s.properties? with
      | none => none
      | some (props, s) =>
        match s.next with
        | .blockEntry =>
          if indentless then
            (readIndentless? fuel [] s).map fun (items, s) => (.sequence props items, s)
          else emptyScalar? props s
        | .scalar content plain => some (.scalar props content plain, s.skip)
        | .flowSequenceStart =>
          (readFlowItems? fuel true [] s.skip).map fun (items, s) => (.sequence props items, s)
        | .flowMappingStart =>
          (readFlowEntries? fuel true [] s.skip).map fun (es, s) => (.mapping props es, s)
        | .blockSequenceStart =>
          if block then
            (readItems? fuel [] s.skip).map fun (items, s) => (.sequence props items, s)
          else emptyScalar? props s
        | .blockMappingStart =>
          if block then
            (readEntries? fuel [] s.skip).map fun (es, s) => (.mapping props es, s)
          else emptyScalar? props s
        | _ => emptyScalar? props s

/-- A node that has properties and nothing else. -/
def emptyScalar? (props : Properties) (s : State) : Option (Node × State) :=
  if props.anchor.isSome || props.tag.isSome then some (.scalar props [] true, s) else none

/-- Read a node unless one of the given tokens shows that it is missing. -/
def readUnless? : Nat → List Token → (block indentless : Bool) → State → Option (Node × State)
  | 0,        _,     _,     _,          _ => none
  | fuel + 1, stops, block, indentless, s =>
    if endsAt stops s then some (.missing, s) else read? fuel block indentless s

/-- Read the items of a block sequence, the ones so far in reverse. -/
def readItems? : Nat → List Node → State → Option (List Node × State)
  | 0,        _,   _ => none
  | fuel + 1, acc, s =>
    match s.next with
    | .blockEntry =>
      match readUnless? fuel [.blockEntry, .blockEnd] true false s.skip with
      | some (item, s) => readItems? fuel (item :: acc) s
      | none           => none
    | .blockEnd => some (acc.reverse, s.skip)
    | _         => none

/-- Read the items of a sequence without its own indentation. -/
def readIndentless? : Nat → List Node → State → Option (List Node × State)
  | 0,        _,   _ => none
  | fuel + 1, acc, s =>
    match s.next with
    | .blockEntry =>
      match readUnless? fuel [.blockEntry, .key, .value, .blockEnd] true false s.skip with
      | some (item, s) => readIndentless? fuel (item :: acc) s
      | none           => none
    | _ => some (acc.reverse, s)

def readEntries? : Nat → List (Node × Node) → State → Option (List (Node × Node) × State)
  | 0,        _,   _ => none
  | fuel + 1, acc, s =>
    match s.next with
    | .key =>
      match readUnless? fuel [.key, .value, .blockEnd] true true s.skip with
      | none          => none
      | some (key, s) =>
        match s.next with
        | .value =>
          match readUnless? fuel [.key, .value, .blockEnd] true true s.skip with
          | some (value, s) => readEntries? fuel ((key, value) :: acc) s
          | none            => none
        | _ => readEntries? fuel ((key, .missing) :: acc) s
    | .blockEnd => some (acc.reverse, s.skip)
    | _         => none

/-- Read the items of a flow sequence; commas stand between them. -/
def readFlowItems? : Nat → (first : Bool) → List Node → State → Option (List Node × State)
  | 0,        _,     _,   _ => none
  | fuel + 1, first, acc, s =>
    if s.next = .flowSequenceEnd then some (acc.reverse, s.skip)
    else if !first && s.next != .flowEntry then none
    else
      let s := if first then s else s.skip
      match s.next with
      | .flowSequenceEnd => some (acc.reverse, s.skip)
      | .key =>
        match readPair? fuel s.skip with
        | some (pair, s) => readFlowItems? fuel false (pair :: acc) s
        | none           => none
      | _ =>
        match read? fuel false false s with
        | some (item, s) => readFlowItems? fuel false (item :: acc) s
        | none           => none

/-- Read a mapping of one entry that is an item of a flow sequence. A key that is missing takes
the token that shows it. -/
def readPair? : Nat → State → Option (Node × State)
  | 0,        _ => none
  | fuel + 1, s =>
    let key :=
      if endsAt [.value, .flowEntry, .flowSequenceEnd] s then some (.missing, s.skip)
      else read? fuel false false s
    match key with
    | none          => none
    | some (key, s) =>
      let value :=
        if s.next = .value then
          readUnless? fuel [.flowEntry, .flowSequenceEnd] false false s.skip
        else some (.missing, s)
      value.map fun (value, s) => (.mapping ⟨none, none⟩ [(key, value)], s)

/-- Read the entries of a flow mapping; commas stand between them. -/
def readFlowEntries? : Nat → (first : Bool) → List (Node × Node) → State →
    Option (List (Node × Node) × State)
  | 0,        _,     _,   _ => none
  | fuel + 1, first, acc, s =>
    if s.next = .flowMappingEnd then some (acc.reverse, s.skip)
    else if !first && s.next != .flowEntry then none
    else
      let s := if first then s else s.skip
      match s.next with
      | .flowMappingEnd => some (acc.reverse, s.skip)
      | .key =>
        match readUnless? fuel [.value, .flowEntry, .flowMappingEnd] false false s.skip with
        | none          => none
        | some (key, s) =>
          let value :=
            if s.next = .value then
              readUnless? fuel [.flowEntry, .flowMappingEnd] false false s.skip
            else some (.missing, s)
          match value with
          | some (value, s) => readFlowEntries? fuel false ((key, value) :: acc) s
          | none            => none
      | _ =>
        match read? fuel false false s with
        | some (key, s) => readFlowEntries? fuel false ((key, .missing) :: acc) s
        | none          => none

end

/-! ### Documents -/

/-- What standard tags start with. -/
def standardLead : TagText := "tag:yaml.org,2002:".toList.map some

/-- The handles that need no directive. -/
def standardHandles : List (List Char × TagText) :=
  [(['!'], [some '!']), (['!', '!'], standardLead)]

/-- Read the directives of a document; `versioned` once its version is known. -/
def directives? : Nat → (versioned : Bool) → State → Option State
  | 0,        _,         _ => none
  | fuel + 1, versioned, s =>
    match s.next with
    | .versionDirective major minor =>
      if versioned || major != 1 || (minor != 1 && minor != 2) then none
      else directives? fuel true s.skip
    | .tagDirective handle lead =>
      if s.handles.any fun (h, _) => h == handle then none
      else directives? fuel versioned { s.skip with handles := (handle, lead) :: s.handles }
    | _ => some { s with handles := s.handles ++ standardHandles }

/-- A document, if the text holds one, and what is behind it. -/
def document? (ts : List Token) : Option (Option Node × List Token) :=
  let fuel := 4 * ts.length + 8
  let start : State := ⟨ts, [], []⟩
  let finish (node : Node) (s : State) : Option (Option Node × List Token) :=
    match s.next with
    | .unreadable  => none
    | .documentEnd => some (some node, s.skip.ahead)
    | _            => some (some node, s.ahead)
  match start.next with
  | .streamEnd => some (none, ts)
  | .versionDirective .. | .tagDirective .. | .documentStart =>
    match directives? fuel false start with
    | none   => none
    | some s =>
      if s.next = .documentStart then
        let s := s.skip
        match s.next with
        | .versionDirective .. | .tagDirective .. | .documentStart | .documentEnd | .streamEnd =>
          finish .missing s
        | _ => (read? fuel true false s).bind fun (node, s) => finish node s
      else none
  | _ =>
    (read? fuel true false { start with handles := standardHandles }).bind fun (node, s) =>
      finish node s

/-- Nothing but marks of document ends is left. -/
def isLast (ts : List Token) : Bool :=
  match ts.dropWhile (· == .documentEnd) with
  | [.streamEnd] => true
  | _            => false

end Node

end TwoStage.Yaml
