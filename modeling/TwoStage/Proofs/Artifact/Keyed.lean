import TwoStage.Artifact.Basic
import TwoStage.Proofs.OrderedMap
import TwoStage.Proofs.Path

/-!
# Artifacts by their paths

The artifacts that have been added one after another are a map in order of insertion, under the
steps of their paths: two texts that spell the same steps are one file. So the laws of such maps
are those of artifacts: no file is there twice, each stands where its path was first added, and the
one that was added last is the one that is found.
-/

namespace TwoStage

open Text

namespace Path

/-- A segment that is no step takes no part where another one, or a slash, stands before it. -/
lemma components_drop {absolute : Bool} (before : List (List Char)) {after : List (List Char)}
    {s : List Char} (hs : step? s = none) (h : absolute = true ∨ before ≠ []) :
    components ⟨absolute, before ++ s :: after⟩ = components ⟨absolute, before ++ after⟩ := by
  have hsteps : (before ++ s :: after).filterMap step? = (before ++ after).filterMap step? := by
    rw [List.filterMap_append, List.filterMap_cons_none hs, List.filterMap_append]
  rw [components, components, hsteps]
  rcases h with rfl | hne
  · rfl
  · obtain ⟨t, ts, rfl⟩ := List.exists_cons_of_ne_nil hne
    rfl

/-- A segment that is no step takes no part between two slashes of a text. -/
lemma components_ofChars_idle {s : List Char} (hslash : '/' ∉ s) (hs : step? s = none)
    (front back : List Char) :
    (ofChars (front ++ '/' :: (s ++ '/' :: back))).components =
      (ofChars (front ++ '/' :: back)).components := by
  have hsplit (cs : List Char) : splitAll '/' (cs ++ '/' :: (s ++ '/' :: back)) =
      splitAll '/' cs ++ s :: splitAll '/' back := by
    rw [splitAll_append, splitAll_append_cons hslash]
  cases front with
  | nil =>
    rw [List.nil_append, List.nil_append, ofChars, ofChars, splitAll_append_cons hslash]
    exact components_drop [] hs (.inl rfl)
  | cons c front =>
    by_cases hc : c = '/'
    · subst hc
      rw [List.cons_append, List.cons_append, ofChars, ofChars, hsplit, splitAll_append]
      exact components_drop _ hs (.inl rfl)
    · have hrelative (cs : List Char) : ofChars (c :: front ++ cs) =
          ⟨false, splitAll '/' (c :: front ++ cs)⟩ :=
        ofChars.eq_3 _ (by simp) fun ds heq => hc (List.cons.inj heq).1
      rw [hrelative, hrelative, hsplit, splitAll_append]
      exact components_drop _ hs (.inr (splitAll_ne_nil '/' (c :: front)))

end Path

/-- The steps to a file, which tell it from others. -/
def Artifact.steps (a : Artifact) : List Component := a.path.components

namespace Artifacts

def bySteps (as : Artifacts) : OrderedMap (List Component) Artifact :=
  ⟨as.items.map fun a => (a.steps, a)⟩

lemma keys_bySteps (as : Artifacts) : as.bySteps.keys = as.items.map Artifact.steps := by
  rw [OrderedMap.keys, bySteps, List.map_map]
  rfl

lemma pushItem_bySteps (a : Artifact) (items : List Artifact) :
    (pushItem a items).map (fun b => (b.steps, b)) =
      OrderedMap.insertEntry a.steps a (items.map fun b => (b.steps, b)) := by
  induction items with
  | nil => rfl
  | cons b items ih =>
    rw [pushItem, List.map_cons, OrderedMap.insertEntry]
    by_cases h : b.steps = a.steps
    · have hsame : b.path.same a.path = true := beq_iff_eq.2 h
      rw [if_pos hsame, if_pos h, List.map_cons, h]
    · have hsame : ¬ b.path.same a.path = true := fun heq => h (beq_iff_eq.1 heq)
      rw [if_neg hsame, if_neg h, List.map_cons, ih]

/-- Adding a file is inserting it under the steps to it. -/
lemma bySteps_push (as : Artifacts) (a : Artifact) :
    (as.push a).bySteps = as.bySteps.insert a.steps a :=
  congrArg OrderedMap.mk (pushItem_bySteps a as.items)

lemma bySteps_ofList (items : List Artifact) :
    (ofList items).bySteps = .ofList (items.map fun a => (a.steps, a)) := by
  induction items using List.reverseRecOn with
  | nil => rfl
  | append_singleton items a ih =>
    have hpush : ofList (items ++ [a]) = (ofList items).push a := List.foldl_append
    rw [hpush, bySteps_push, ih, List.map_append, List.map_singleton, OrderedMap.ofList_concat]

lemma get?_bySteps (items : List Artifact) (p : Path) :
    OrderedMap.get? ⟨items.map fun a => (a.steps, a)⟩ p.components =
      items.find? fun a => a.path.same p := by
  induction items with
  | nil => rfl
  | cons a items ih =>
    rw [OrderedMap.get?] at ih ⊢
    rw [List.map_cons, OrderedMap.lookup_cons_eq, ih, List.find?_cons]
    by_cases h : p.components = a.steps
    · have hsame : a.path.same p = true := beq_iff_eq.2 h.symm
      rw [if_pos h, hsame]
    · have hsame : a.path.same p = false := beq_false_of_ne (Ne.symm h)
      rw [if_neg h, hsame]

/-- The file at a path is the last one that was added there. -/
lemma get?_ofList (items : List Artifact) (p : Path) :
    (ofList items).get? p = (items.filter fun a => a.path.same p).getLast? := by
  calc (ofList items).get? p
      = (ofList items).bySteps.get? p.components := (get?_bySteps _ p).symm
    _ = OrderedMap.get? ⟨items.reverse.map fun a => (a.steps, a)⟩ p.components := by
        rw [bySteps_ofList, OrderedMap.get?_ofList, OrderedMap.get?, List.map_reverse]
    _ = (items.filter fun a => a.path.same p).getLast? := by
        rw [get?_bySteps, ← List.head?_filter, List.filter_reverse, List.head?_reverse]

/-- The file at a path is found by any text that spells its steps. -/
lemma get?_congr (as : Artifacts) {p q : Path} (h : p.components = q.components) :
    as.get? p = as.get? q := by
  rw [get?, get?]
  congr 1
  funext a
  rw [Path.same, Path.same, h]

/-- What has been added one by one: files with steps of their own, in the order in which these steps
were first added, each with the contents and the mode that it was last added with. A slash more
between two steps, or a dot, makes no other file. -/
theorem keyed_ofList (items : List Artifact) :
    ((ofList items).items.map Artifact.steps).Nodup ∧
      (ofList items).items.map Artifact.steps = (items.map Artifact.steps).eraseDups ∧
      (∀ p, (ofList items).get? p = (items.filter fun a => a.path.same p).getLast?) ∧
      (ofList items).size = (items.map Artifact.steps).toFinset.card ∧
      ∀ front back : String,
        (ofList items).get? (.ofString (front ++ "//" ++ back)) =
            (ofList items).get? (.ofString (front ++ "/" ++ back)) ∧
          (ofList items).get? (.ofString (front ++ "/./" ++ back)) =
            (ofList items).get? (.ofString (front ++ "/" ++ back)) := by
  have hkeys : (items.map fun a => (a.steps, a)).map Prod.fst = items.map Artifact.steps := by
    rw [List.map_map]
    rfl
  refine ⟨?_, ?_, get?_ofList items, ?_, fun front back => ⟨?_, ?_⟩⟩
  · rw [← keys_bySteps, bySteps_ofList]
    exact OrderedMap.nodup_keys_ofList _
  · rw [← keys_bySteps, bySteps_ofList, OrderedMap.keys_ofList, hkeys]
    congr 1
    exact lawful_beq_subsingleton _ _
  · have hsize : (ofList items).size = (ofList items).bySteps.size := (List.length_map _).symm
    rw [hsize, bySteps_ofList, OrderedMap.size_ofList, hkeys]
  · refine get?_congr _ ?_
    have hidle := Path.components_ofChars_idle (s := []) (by simp) rfl front.toList back.toList
    simpa [Path.ofString, String.toList_append] using hidle
  · refine get?_congr _ ?_
    have hidle := Path.components_ofChars_idle (s := ['.']) (by simp) rfl front.toList back.toList
    simpa [Path.ofString, String.toList_append] using hidle

example : (ofList [⟨.ofString "a/b", "one", .regular⟩, ⟨.ofString "c", "two", .secret⟩,
    ⟨.ofString "a//./b", "three", .executable⟩]).items.map Artifact.contents =
      ["three", "two"] := by
  decide

end Artifacts

end TwoStage
