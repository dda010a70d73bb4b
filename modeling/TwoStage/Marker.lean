import TwoStage.Text.Split
import TwoStage.Decimal.Numeral

/-!
# Variable markers

A text may hold markers of two rounds of substitution. Those of the first round, `${NAME}` and
`${NAME:-default}`, are replaced while a document is compiled. Those of the second, `{{NAME}}` and
`{{NAME:-default}}`, are handed to compose in its own `${NAME}` form and replaced when the compose
file is used.

A text is cut into segments, single plain characters and whole markers, whose sources make up the
text again (`source_segments`). A marker ends at the first closer of its round after its opener.
-/

namespace TwoStage

open Text

/-- The round of substitution that replaces a marker. -/
inductive Round
  | config
  | compose
deriving DecidableEq, Repr

namespace Round

/-- What a marker of the round starts with. -/
def opener : Round → List Char
  | .config  => ['$', '\x7b']
  | .compose => ['\x7b', '\x7b']

/-- What a marker of the round ends with. -/
def closer : Round → List Char
  | .config  => ['\x7d']
  | .compose => ['\x7d', '\x7d']

/-- The round whose opener stands at the start of the text, and what follows it. -/
def opening? : List Char → Option (Round × List Char)
  | '$' :: '\x7b' :: rest    => some (.config, rest)
  | '\x7b' :: '\x7b' :: rest => some (.compose, rest)
  | _                        => none

/-- The marker of a round with the given text inside. -/
def wrap (round : Round) (body : String) : String :=
  String.ofList round.opener ++ body ++ String.ofList round.closer

end Round

/-- The two characters between a name and its default. -/
def defaultSeparator : List Char := [':', '-']

/-- A variable name is a letter or an underscore, then letters, digits and underscores. -/
def isVariableName : List Char → Bool
  | []      => false
  | c :: cs => (c.isAlpha || c == '_') && cs.all fun c => c.isAlphanum || c == '_'

/-- A variable with an optional default. -/
structure Marker where
  round : Round
  name : List Char
  default? : Option (List Char)
deriving DecidableEq, Repr

namespace Marker

/-- The name with the default behind it. -/
def body (m : Marker) : List Char :=
  match m.default? with
  | some d => m.name ++ defaultSeparator ++ d
  | none   => m.name

def source (m : Marker) : List Char := m.round.opener ++ m.body ++ m.round.closer

/-- Read a body: a name up to the first separator, then a default. The name may be anything. -/
def ofBody (round : Round) (body : List Char) : Marker :=
  match cutFirst? defaultSeparator body with
  | some (name, default) => ⟨round, name, some default⟩
  | none                 => ⟨round, body, none⟩

/-- Read a body whose name is a variable name. -/
def ofBody? (round : Round) (body : List Char) : Option Marker :=
  if isVariableName (ofBody round body).name then some (ofBody round body) else none

end Marker

/-- Why a text cannot be cut into markers. -/
inductive MarkerError
  | unterminated (round : Round) (offset : Nat)
  | invalidName (round : Round) (body : List Char)
deriving DecidableEq, Repr

namespace MarkerError

def message : MarkerError → String
  | .unterminated round offset =>
    "unterminated '" ++ String.ofList round.opener ++ "' starting at byte " ++
      Decimal.natText offset
  | .invalidName round body =>
    "invalid variable name '" ++ String.ofList (Marker.ofBody round body).name ++ "' in '" ++
      String.ofList (round.opener ++ body ++ round.closer) ++ "'"

end MarkerError

/-! ### Cutting a text into segments -/

/-- A plain character or a marker. -/
inductive Segment
  | plain (c : Char)
  | marker (m : Marker)
deriving DecidableEq, Repr

def Segment.source : Segment → List Char
  | .plain c  => [c]
  | .marker m => m.source

def byteLength (cs : List Char) : Nat := (cs.map Char.utf8Size).foldr (· + ·) 0

theorem Text.eq_of_cutFirst? {sep cs before after : List Char}
    (h : cutFirst? sep cs = some (before, after)) : cs = before ++ sep ++ after := by
  induction cs generalizing before with
  | nil =>
    unfold cutFirst? at h
    split at h <;> simp_all
  | cons c cs ih =>
    unfold cutFirst? at h
    split at h
    next hp =>
      obtain ⟨rest, hr⟩ := List.isPrefixOf_iff_prefix.1 hp
      simp only [Option.some.injEq, Prod.mk.injEq] at h
      obtain ⟨rfl, rfl⟩ := h
      rw [← hr]
      simp
    next =>
      obtain ⟨⟨b, a⟩, hb, heq⟩ := Option.map_eq_some_iff.1 h
      simp only [Prod.mk.injEq] at heq
      obtain ⟨rfl, rfl⟩ := heq
      simp [ih hb]

theorem Round.eq_of_opening? {cs rest : List Char} {round : Round}
    (h : Round.opening? cs = some (round, rest)) : cs = round.opener ++ rest := by
  unfold Round.opening? at h
  split at h <;> simp_all [Round.opener] <;> (obtain ⟨rfl, rfl⟩ := h; rfl)

/-- Cut a text that starts at the given byte offset. -/
def segmentsFrom (offset : Nat) (cs : List Char) : Except MarkerError (List Segment) :=
  match cs with
  | []      => .ok []
  | c :: cs =>
    match _opened : Round.opening? (c :: cs) with
    | none => (segmentsFrom (offset + c.utf8Size) cs).map (.plain c :: ·)
    | some (round, rest) =>
      match _closed : cutFirst? round.closer rest with
      | none => .error (.unterminated round offset)
      | some (body, after) =>
        match Marker.ofBody? round body with
        | none   => .error (.invalidName round body)
        | some m => (segmentsFrom (offset + byteLength m.source) after).map (.marker m :: ·)
termination_by cs.length
decreasing_by
  · simp
  · have h1 := congrArg List.length (Round.eq_of_opening? _opened)
    have h2 := congrArg List.length (Text.eq_of_cutFirst? _closed)
    have h3 : 0 < round.opener.length := by cases round <;> decide
    simp only [List.length_append, List.length_cons] at h1 h2 ⊢
    omega

theorem Marker.source_ofBody (round : Round) (body : List Char) :
    (Marker.ofBody round body).source = round.opener ++ body ++ round.closer := by
  unfold Marker.ofBody
  split
  next hcut => simp [Marker.source, Marker.body, Text.eq_of_cutFirst? hcut]
  next => simp [Marker.source, Marker.body]

theorem Marker.source_of_ofBody? {round : Round} {body : List Char} {m : Marker}
    (h : Marker.ofBody? round body = some m) : m.source = round.opener ++ body ++ round.closer := by
  unfold Marker.ofBody? at h
  split at h
  · simp only [Option.some.injEq] at h
    rw [← h, Marker.source_ofBody]
  · simp at h

/-- Cutting loses nothing. -/
theorem source_segmentsFrom {offset : Nat} {cs : List Char} {ss : List Segment}
    (h : segmentsFrom offset cs = .ok ss) : ss.flatMap Segment.source = cs := by
  fun_induction segmentsFrom offset cs generalizing ss with
  | case1 => simp_all
  | case2 offset c cs hopen ih =>
    cases hrec : segmentsFrom (offset + c.utf8Size) cs with
    | error e => simp [hrec, Except.map] at h
    | ok ss' =>
      simp only [hrec, Except.map, Except.ok.injEq] at h
      subst h
      simp [Segment.source, ih hrec]
  | case3 => simp at h
  | case4 => simp at h
  | case5 offset c cs round rest hopen body after hclose m hm ih =>
    cases hrec : segmentsFrom (offset + byteLength m.source) after with
    | error e => simp [hrec, Except.map] at h
    | ok ss' =>
      simp only [hrec, Except.map, Except.ok.injEq] at h
      subst h
      simp [Segment.source, ih hrec, Marker.source_of_ofBody? hm, Round.eq_of_opening? hopen,
        Text.eq_of_cutFirst? hclose]

def segments (s : String) : Except MarkerError (List Segment) := segmentsFrom 0 s.toList

/-! ### Where the markers stand -/

/-- A marker with the byte offsets where it starts and where it has ended. -/
structure Located where
  marker : Marker
  start : Nat
  stop : Nat
deriving DecidableEq, Repr

/-- The markers among segments that start at the given offset. -/
def locate (offset : Nat) : List Segment → List Located
  | []             => []
  | .plain c :: ss => locate (offset + c.utf8Size) ss
  | .marker m :: ss =>
    let stop := offset + byteLength m.source
    ⟨m, offset, stop⟩ :: locate stop ss

/-- Every marker of a text, left to right. -/
def scanMarkers (s : String) : Except MarkerError (List Located) :=
  (segments s).map (locate 0)

/-- The markers among segments. -/
def markersOf (ss : List Segment) : List Marker :=
  ss.filterMap fun
    | .marker m => some m
    | .plain _  => none

/-- The name of the first marker of the compose round, if the text is well formed. -/
def firstComposeMarker? (s : String) : Option String :=
  match segments s with
  | .ok ss =>
    ((markersOf ss).find? fun m => m.round = .compose).map fun m => String.ofList m.name
  | .error _ => none

/-- The text is well formed and has a marker of the compose round. -/
def hasComposeMarker (s : String) : Bool := (firstComposeMarker? s).isSome

/-! ### Substitution -/

/-- What stands for a segment after the config round: the variable's value, else the default,
else the marker itself. -/
def Segment.substituted (vars : String → Option String) : Segment → List Char
  | .plain c  => [c]
  | .marker m =>
    match m.round with
    | .compose => m.source
    | .config  =>
      match vars (String.ofList m.name) with
      | some value => value.toList
      | none       => m.default?.getD m.source

/-- Run the config round over a text. Replaced text is not looked at again. -/
def substitute (vars : String → Option String) (s : String) : Except MarkerError String :=
  (segments s).map fun ss => String.ofList (ss.flatMap (Segment.substituted vars))

/-- A compose marker in compose's own form; everything else stays. -/
def Segment.rewritten : Segment → List Char
  | .plain c  => [c]
  | .marker m =>
    match m.round with
    | .compose => Round.config.opener ++ m.body ++ Round.config.closer
    | .config  => m.source

/-- Rewrite the compose markers of a text into compose's own form. -/
def rewrite (s : String) : Except MarkerError String :=
  (segments s).map fun ss => String.ofList (ss.flatMap Segment.rewritten)

end TwoStage
