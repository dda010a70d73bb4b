import TwoStage.Yaml.Node
import TwoStage.Yaml.Scalar

/-!
# Reading a document

The text of one document is read into a tree. Aliases are replaced by what they refer to, plain
scalars get their meaning, and a tag of the application's own is kept around its value.

A key may not occur twice in a mapping, collections nest at most 128 deep, and a document of `n`
nodes and ends of collections may follow at most `100 n` aliases.
-/

namespace TwoStage.Yaml

/-- Why a text is no document. -/
inductive ReadError
  | malformed
  | severalDocuments
  | tooManyAliases
deriving DecidableEq, Repr

/-- The wording of the errors that are not about a place in the text. -/
def ReadError.message? : ReadError → Option String
  | .malformed        => none
  | .severalDocuments =>
    some "deserializing from YAML containing more than one document is not supported"
  | .tooManyAliases   => some "repetition limit exceeded"

namespace Node

/-! ### Anchored nodes -/

mutual

/-- The nodes that have an anchor, each after the ones that begin before it. -/
def anchored : Node → List (Nat × Node)
  | .alias _                => []
  | .scalar p s plain       => (p.anchor.map fun n => (n, .scalar p s plain)).toList
  | .sequence p items       =>
    (p.anchor.map fun n => (n, .sequence p items)).toList ++ anchoredItems items
  | .mapping p entries      =>
    (p.anchor.map fun n => (n, .mapping p entries)).toList ++ anchoredEntries entries

def anchoredItems : List Node → List (Nat × Node)
  | []      => []
  | n :: ns => n.anchored ++ anchoredItems ns

def anchoredEntries : List (Node × Node) → List (Nat × Node)
  | []           => []
  | (k, v) :: es => k.anchored ++ v.anchored ++ anchoredEntries es

end

mutual

/-- The number of nodes and ends of collections. -/
def events : Node → Nat
  | .alias _            => 1
  | .scalar ..          => 1
  | .sequence _ items   => itemEvents items + 2
  | .mapping _ entries  => entryEvents entries + 2

def itemEvents : List Node → Nat
  | []      => 0
  | n :: ns => n.events + itemEvents ns

def entryEvents : List (Node × Node) → Nat
  | []           => 0
  | (k, v) :: es => k.events + v.events + entryEvents es

end

/-! ### From nodes to trees -/

/-- What does not change while a document is read. -/
structure Scope where
  anchors : List (Nat × Node)
  limit : Nat

/-- The node an alias refers to: the last one that was given the number. -/
def Scope.target? (scope : Scope) (n : Nat) : Option Node :=
  (scope.anchors.reverse.lookup n)

/-- Reading counts the aliases that were followed. -/
abbrev Reading := StateT Nat (Except ReadError)

def followAlias (scope : Scope) : Reading Unit := do
  let n ← get
  set (n + 1)
  if scope.limit < n + 1 then throw .tooManyAliases

/-- The text without an exclamation mark at its start, unless that is all there is. -/
def withoutMark : List Char → List Char
  | '!' :: c :: cs => c :: cs
  | cs             => cs

/-- The name in the application's own tag of a node; up to two exclamation marks are none of it.
A tag whose text is ill-formed names nothing. -/
def ownTag? (p : Properties) : Option String :=
  match p.tag with
  | some (some '!' :: name) =>
    (name.mapM id).map fun cs => String.ofList (withoutMark (withoutMark ('!' :: cs)))
  | _                       => none

/-- The tag is the application's own, whether or not its text is ill-formed. -/
def isOwn : TagText → Bool
  | some '!' :: _ => true
  | _             => false

/-- The kinds of scalar that a standard tag asks for. -/
inductive Standard
  | bool
  | int
  | float
  | null

/-- The kind that a full tag asks for. -/
def standard? (tag : TagText) : Option Standard :=
  let kinds : List (String × Standard) :=
    [("bool", .bool), ("int", .int), ("float", .float), ("null", .null)]
  (kinds.find? fun (name, _) => tag = standardLead ++ name.toList.map some).map Prod.snd

/-- A scalar of the kind that its tag asks for. -/
def ofStandard? (kind : Standard) (cs : List Char) : Option Tree :=
  match kind with
  | .bool  => (Meaning.boolWord? cs).map .bool
  | .null  => if Meaning.isNullWord cs then some .null else none
  | .float => (Meaning.float? cs).map fun x => .number (.float x)
  | .int   =>
    match Meaning.integer? cs with
    | some (.value t) => some t
    | _               => none

/-- A scalar under none but its own tag. -/
def plainTree? (cs : List Char) (plain : Bool) : Option Tree :=
  if plain then
    match Meaning.ofPlain cs with
    | .value t => some t
    | .tooWide => none
  else some (.text (String.ofList cs))

def scalarTree? (p : Properties) (cs : List Char) (plain : Bool) : Option Tree :=
  match ownTag? p, p.tag with
  | some name, _        => (plainTree? cs plain).map (.tagged name)
  | none,      none     => plainTree? cs plain
  | none,      some tag =>
    match standard? tag with
    | some kind => ofStandard? kind cs
    | none      => plainTree? cs (plain && isOwn tag)

/-- Put a tree under the application's own tag of its node. -/
def tagWith (p : Properties) (t : Tree) : Tree :=
  match ownTag? p with
  | some name => .tagged name t
  | none      => t

/-- Read entries one by one; a key may not be there already. -/
def entryTrees (tree : Node → Reading Tree) :
    List (Node × Node) → List (Tree × Tree) → Reading (List (Tree × Tree))
  | [],           acc => pure acc.reverse
  | (k, v) :: es, acc => do
    let key ← tree k
    if (Tree.lookup? key acc).isSome then throw .malformed
    let value ← tree v
    entryTrees tree es ((key, value) :: acc)

/-- The tree of a node whose collections may nest so deep. -/
def tree (scope : Scope) (depth : Nat) (node : Node) : Reading Tree := do
  let target ←
    match node with
    | .alias n =>
      followAlias scope
      match scope.target? n with
      | some target => pure target
      | none        => throw .malformed
    | node => pure node
  match depth, target with
  | _,         .scalar p cs plain  =>
    match scalarTree? p cs plain with
    | some t => pure t
    | none   => throw .malformed
  | depth + 1, .sequence p items   => do
    let trees ← items.mapM (tree scope depth)
    pure (tagWith p (.sequence trees))
  | depth + 1, .mapping p entries  => do
    let trees ← entryTrees (tree scope depth) entries []
    pure (tagWith p (.mapping trees))
  | _, _ => throw .malformed

end Node

def maxDepth : Nat := 128

/-- Read the text of one document. A text without a document is null. -/
def read (text : String) : Except ReadError Tree :=
  match Node.document? (tokens text.toList) with
  | none                  => .error .malformed
  | some (none, _)        => .ok .null
  | some (some node, behind) =>
    let scope : Node.Scope := ⟨node.anchored, 100 * node.events⟩
    match (node.tree scope maxDepth).run 0 with
    | .error e      => .error e
    | .ok (tree, _) => if Node.isLast behind then .ok tree else .error .severalDocuments

end TwoStage.Yaml
