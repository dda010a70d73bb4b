import TwoStage.Compile
import TwoStage.Proofs.Compilation.Prepared
import TwoStage.Proofs.Resolution

/-!
# The variables that a compilation looks up

The config round looks up the variables of the config markers in the strings of a document, at any
depth of it. What it puts in their place is not scanned for others, keys are not looked at, and
nothing after the round looks up a variable. So two contexts that agree on the variables of these
markers give the same, be it a result or an error.
-/

namespace TwoStage

open Yaml

/-! ### Variables in texts -/

/-- The scanner finds a config marker with the name in the text. -/
def MentionedIn (s name : String) : Prop :=
  ∃ ms, scanMarkers s = .ok ms ∧
    ∃ l ∈ ms, l.marker.round = .config ∧ String.ofList l.marker.name = name

variable {vars vars' : String → Option String}

lemma substitute_congr {s : String} (h : ∀ name, MentionedIn s name → vars name = vars' name) :
    substitute vars s = substitute vars' s := by
  unfold substitute
  cases hss : segments s with
  | error e => rfl
  | ok ss =>
    have hscan : scanMarkers s = .ok (locate 0 ss) := by
      rw [scanMarkers, hss]
      rfl
    have hvars (m : Marker) (hm : .marker m ∈ ss) (hround : m.round = .config) :
        vars (String.ofList m.name) = vars' (String.ofList m.name) := by
      have hlocated : m ∈ (locate 0 ss).map Located.marker := by
        rw [map_marker_locate]
        exact mem_markersOf.2 hm
      obtain ⟨l, hl, rfl⟩ := List.mem_map.1 hlocated
      exact h _ ⟨_, hscan, l, hl, hround, rfl⟩
    have hsegments : ss.flatMap (Segment.substituted vars) =
        ss.flatMap (Segment.substituted vars') := by
      refine List.flatMap_congr fun segment hsegment => ?_
      cases segment with
      | plain c => rfl
      | marker m =>
        cases hround : m.round with
        | compose => simp [Segment.substituted, hround]
        | config => simp [Segment.substituted, hround, hvars m hsegment hround]
    simp only [Except.map, hsegments]

/-! ### Variables in trees -/

namespace Yaml.Tree

/-- A string of the tree mentions the variable. -/
def Mentions (t : Tree) (name : String) : Prop := ∃ s, t.Contains s ∧ MentionedIn s name

variable {ε : Type} {f g : String → String → Except ε String}

mutual

/-- Two changes that agree on the strings of a tree change it alike. -/
lemma mapTextsAt_congr (t : Tree) (path : String)
    (h : ∀ s, t.Contains s → ∀ p, f p s = g p s) : t.mapTextsAt f path = t.mapTextsAt g path := by
  match t with
  | .null | .bool _ | .number _ => simp [mapTextsAt]
  | .text s => simp [mapTextsAt, h s (.text s)]
  | .sequence ts =>
    simp only [mapTextsAt]
    rw [mapItemTextsAt_congr ts path 0 fun t ht s hs => h s (.item ht hs)]
  | .mapping es =>
    simp only [mapTextsAt]
    rw [mapEntryTextsAt_congr es path fun e he s hs => h s (.value he hs)]
  | .tagged tag v =>
    simp only [mapTextsAt]
    rw [mapTextsAt_congr v path fun s hs => h s (.tagged hs)]

lemma mapItemTextsAt_congr (ts : List Tree) (path : String) (i : Nat)
    (h : ∀ t ∈ ts, ∀ s, t.Contains s → ∀ p, f p s = g p s) :
    mapItemTextsAt f path i ts = mapItemTextsAt g path i ts := by
  match ts with
  | [] => simp [mapItemTextsAt]
  | t :: ts =>
    rw [List.forall_mem_cons] at h
    simp only [mapItemTextsAt]
    rw [mapTextsAt_congr t _ h.1, mapItemTextsAt_congr ts path (i + 1) h.2]

lemma mapEntryTextsAt_congr (es : List (Tree × Tree)) (path : String)
    (h : ∀ e ∈ es, ∀ s, e.2.Contains s → ∀ p, f p s = g p s) :
    mapEntryTextsAt f path es = mapEntryTextsAt g path es := by
  match es with
  | [] => simp [mapEntryTextsAt]
  | (k, v) :: es =>
    rw [List.forall_mem_cons] at h
    simp only [mapEntryTextsAt]
    rw [mapTextsAt_congr v _ h.1, mapEntryTextsAt_congr es path h.2]

end

end Yaml.Tree

/-! ### Variables in documents -/

lemma Resolution.resolve_congr {t : Tree} (h : ∀ name, t.Mentions name → vars name = vars' name) :
    resolve vars t = resolve vars' t := by
  have hall : substituteAll vars t = substituteAll vars' t := by
    refine Tree.mapTextsAt_congr t "" fun s hs p => ?_
    rw [substitute_congr fun name hname => h name ⟨s, hs, hname⟩]
  rw [resolve, hall, resolve]

lemma Document.ofTree_congr {t : Tree} (h : ∀ name, t.Mentions name → vars name = vars' name) :
    ofTree vars t = ofTree vars' t := by
  rw [ofTree, Resolution.resolve_congr h, ofTree]

/-- What stands for a document that is null mentions nothing. -/
lemma Document.mentions_rootOf {t : Tree} {name : String} (h : (rootOf t).Mentions name) :
    t.Mentions name := by
  unfold rootOf at h
  split at h
  · obtain ⟨s, hs, -⟩ := h
    cases hs with
    | value mem => simp at mem
  · exact h

lemma Document.ofText_congr {text : String} (h : ∀ t, Yaml.read text = .ok t →
    ∀ name, t.Mentions name → vars name = vars' name) : ofText vars text = ofText vars' text := by
  unfold ofText
  cases hread : Yaml.read text with
  | error e => rfl
  | ok t => exact ofTree_congr fun name hname => h t hread name (mentions_rootOf hname)

/-! ### Compiling -/

/-- The variables are looked up when a document is read, and never after that. -/
lemma compile_vars (ctx : Context) (vars : String → Option String) (generator : Generator)
    (d : Document) : compile { ctx with vars } generator d = compile ctx generator d := by
  rfl

/-- Variables matter to a compilation only if a string of its document mentions them, wherever it
stands: contexts that agree on these variables load the same document or fail in the same way, and
what is compiled from a document is the same under both. -/
theorem compile_of_mentioned {ctx : Context} {vars' : String → Option String} {text : String}
    (h : ∀ t, Yaml.read text = .ok t → ∀ name, t.Mentions name → ctx.vars name = vars' name) :
    Document.ofText ctx.vars text = Document.ofText vars' text ∧
      ∀ generator d, compile ctx generator d = compile { ctx with vars := vars' } generator d :=
  ⟨Document.ofText_congr h, fun generator d => (compile_vars ctx vars' generator d).symm⟩

/-- A marker in the value of a variable and one in a default are not looked up. -/
theorem compile_of_mentioned_of_nested :
    Document.ofText (fun name => if name = "B" then some "$\x7bD\x7d" else none)
        "stage_1: \x7bimage: \x7bbase: '$\x7bB:-$\x7bC\x7d'\x7d\x7d" =
      Document.ofText (fun name => if name = "B" then some "$\x7bD\x7d" else some "y")
        "stage_1: \x7bimage: \x7bbase: '$\x7bB:-$\x7bC\x7d'\x7d\x7d" := by
  have hstrings : (Yaml.read "stage_1: \x7bimage: \x7bbase: '$\x7bB:-$\x7bC\x7d'\x7d\x7d"
      ).toOption.map Tree.strings = some ["$\x7bB:-$\x7bC\x7d"] := by
    decide +kernel
  have hnames : (scanMarkers "$\x7bB:-$\x7bC\x7d").map
      (fun ms => ms.map fun l => String.ofList l.marker.name) = .ok ["B"] := by
    decide +kernel
  refine (@compile_of_mentioned { Context.bare with
    vars := fun name => if name = "B" then some "$\x7bD\x7d" else none } _ _ ?_).1
  rintro t hread name ⟨s, hs, ms, hscan, l, hl, -, rfl⟩
  have hlisted : s ∈ t.strings := Tree.mem_strings_iff.2 hs
  rw [hread] at hstrings
  rw [Option.some.inj hstrings, List.mem_singleton] at hlisted
  rw [hlisted] at hscan
  rw [hscan] at hnames
  have hnames : ms.map (fun l => String.ofList l.marker.name) = ["B"] := Except.ok.inj hnames
  have hname : String.ofList l.marker.name ∈ ms.map fun l => String.ofList l.marker.name :=
    List.mem_map_of_mem hl
  rw [hnames, List.mem_singleton] at hname
  simp [hname]

end TwoStage
