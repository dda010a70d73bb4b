import Mathlib.Data.List.Chain
import TwoStage.Proofs.Template.Following

/-!
# What resolving decides

A tree can be resolved exactly if no reference that is reached from it is missing, stands for a
node that does not fit into its string, or is reached again from where it leads. Resolving it then
unfolds all references in it, and a cycle that is reported otherwise is a path of references that
comes back.
-/

namespace TwoStage.Template

open Text Yaml

variable {context t u node : Tree} {r r' : Reference}

/-! ### Reaching references -/

/-- The trees that are walked for a tree: itself, and the nodes behind the references in them. -/
inductive Visits (context t : Tree) : Tree → Prop
  | start : Visits context t t
  | step {t' node : Tree} {r : Reference} (h : Visits context t t') (hr : Mentions t' r)
      (target : r.target? context = some node) : Visits context t node

/-- The references that are followed for a tree. -/
def Reaches (context t : Tree) (r : Reference) : Prop :=
  ∃ t', Visits context t t' ∧ Mentions t' r

lemma Visits.trans {t' t'' : Tree} (h : Visits context t t') (h' : Visits context t' t'') :
    Visits context t t'' := by
  induction h' with
  | start => exact h
  | step _ hr target ih => exact .step ih hr target

namespace Reaches

lemma of_mentions (h : Mentions t r) : Reaches context t r := ⟨t, .start, h⟩

lemma isValid (h : Reaches context t r) : r.IsValid := by
  obtain ⟨t', -, hr⟩ := h
  exact hr.isValid

/-- What is reached from the node behind a reference is reached from where the reference is. -/
lemma trans (h : Reaches context t r) (target : r.target? context = some node)
    (h' : Reaches context node r') : Reaches context t r' := by
  obtain ⟨t', ht', hr⟩ := h
  obtain ⟨t'', ht'', hr'⟩ := h'
  exact ⟨t'', (ht'.step hr target).trans ht'', hr'⟩

/-- The first step towards a reference. -/
lemma cases_head (h : Reaches context t r) :
    Mentions t r ∨ ∃ r₁ node, Mentions t r₁ ∧ r₁.target? context = some node ∧
      Reaches context node r := by
  obtain ⟨t', ht', hr⟩ := h
  induction ht' generalizing r with
  | start => exact .inl hr
  | @step t' node r₁ _ hr₁ target ih =>
    rcases ih hr₁ with hmentions | ⟨r₂, node₂, hr₂, target₂, hreaches⟩
    · exact .inr ⟨r₁, node, hmentions, target, of_mentions hr⟩
    · exact .inr ⟨r₂, node₂, hr₂, target₂, hreaches.trans target (of_mentions hr)⟩

end Reaches

/-! ### Trees that can be resolved -/

/-- What it takes to resolve a tree against a section. -/
structure Resolvable (context t : Tree) : Prop where
  /-- Every reference that is reached leads somewhere. -/
  found : ∀ r, Reaches context t r → ∃ node, r.target? context = some node
  /-- A reference in a longer string stands for nothing but a scalar. -/
  scalar : ∀ t' r, Visits context t t' → Embeds t' r → ∀ node v,
    r.target? context = some node → Unfolds context node v → v.IsScalar
  /-- No reference is reached again from where it leads. -/
  acyclic : ∀ r node, Reaches context t r → r.target? context = some node →
    ¬ Reaches context node r

section Following

variable {F : List String → Follow} {chain : List String}

/-- A walk over a tree on the way succeeds if it gets answers. -/
lemma IsFollowing.exists_resolveTree_eq_ok (hF : IsFollowing context F) (h : Resolvable context t)
    {t' : Tree} (ht' : Visits context t t')
    (hanswer : ∀ r, Mentions t' r → ∀ p, ∃ v, F chain p r = .ok v) (path : String) :
    ∃ u, resolveTree (F chain) path t' = .ok u := by
  cases hwalk : resolveTree (F chain) path t' with
  | ok u => exact ⟨u, rfl⟩
  | error e =>
    rcases fails_of_resolveTree path t' hwalk with ⟨r, p, hr, he⟩ | ⟨r, p, v, hr, hv, hno, -⟩
    · obtain ⟨v, hv⟩ := hanswer r hr p
      simp [hv] at he
    · obtain ⟨node, htarget, hunfolds⟩ := hF.unfolds hv
      exact absurd (h.scalar t' r ht' hr node v htarget hunfolds) hno

/-- References behind a chain are followed to their ends if the tree can be resolved. The chain
holds references from which the next one is reached. -/
lemma IsFollowing.exists_eq_ok (hF : IsFollowing context F) (h : Resolvable context t)
    (hr : Reaches context t r)
    (hchain : ∀ n ∈ chain, ∃ r₀ node, r₀.name = n ∧ Reaches context t r₀ ∧
      r₀.target? context = some node ∧ Reaches context node r) (path : String) :
    ∃ u, F chain path r = .ok u := by
  induction chain, r using callInduction context generalizing path with
  | step chain r ih =>
    have hmem : r.name ∉ chain := fun hmem => by
      obtain ⟨r₀, node, hname, hr₀, htarget, hback⟩ := hchain _ hmem
      obtain rfl := hr₀.isValid.eq_of_name_eq hr.isValid hname
      exact h.acyclic r₀ node hr₀ htarget hback
    obtain ⟨node, htarget⟩ := h.found r hr
    rw [hF.of_target hmem htarget]
    obtain ⟨t', ht', hr'⟩ := id hr
    refine hF.exists_resolveTree_eq_ok h (ht'.step hr' htarget) (fun r' hr' p => ?_) r.name
    refine ih r' hmem ⟨node, htarget, hr'⟩ (hr.trans htarget (.of_mentions hr')) (fun n hn => ?_) p
    rcases List.mem_append.1 hn with hn | hn
    · obtain ⟨r₀, node₀, hname, hr₀, htarget₀, hreach⟩ := hchain n hn
      exact ⟨r₀, node₀, hname, hr₀, htarget₀, hreach.trans htarget (.of_mentions hr')⟩
    · exact ⟨r, node, (List.mem_singleton.1 hn).symm, hr, htarget, .of_mentions hr'⟩

end Following

/-! ### Trees that unfold -/

/-- What a reference leads to, seen from there. -/
def LedFrom (context : Tree) (r' r : Reference) : Prop := Leads context r r'

/-- From the references of a tree that unfolds one cannot go on for ever. -/
lemma Unfolds.acc (h : Unfolds context t u) (hr : Mentions t r) : Acc (LedFrom context) r := by
  obtain ⟨s, hs, hmem⟩ := hr
  -- what a reference leads to has been unfolded as well, and so comes earlier in the induction
  induction h generalizing r s with
  | null | bool _ | number _ | tagged _ _ => cases hs
  | whole hpieces target _ ih =>
    cases hs
    rw [hpieces, List.mem_singleton] at hmem
    obtain rfl := Piece.reference.inj hmem
    refine .intro _ fun r' hr' => ?_
    obtain ⟨node', target', s', hs', hmem'⟩ := hr'
    obtain rfl := Option.some.inj (target.symm.trans target')
    exact ih s' hs' hmem'
  | parts node value text _ target _ _ ih =>
    cases hs
    refine .intro _ fun r' hr' => ?_
    obtain ⟨node', target', s', hs', hmem'⟩ := hr'
    obtain rfl := Option.some.inj ((target r hmem).symm.trans target')
    exact ih r hmem s' hs' hmem'
  | sequence length _ ih =>
    cases hs with
    | item mem hs =>
      obtain ⟨u, hzip⟩ := exists_mem_zip length mem
      exact ih _ hzip s hs hmem
  | mapping length _ ih =>
    cases hs with
    | value mem hs =>
      obtain ⟨u, hzip⟩ := exists_mem_zip (by simpa using length) (List.mem_map_of_mem mem)
      exact ih _ hzip s hs hmem

/-- A reference from which one cannot go on for ever is not reached again from where it leads. -/
lemma not_reaches_of_acc (h : Acc (LedFrom context) r) (target : r.target? context = some node) :
    ¬ Reaches context node r := by
  induction h generalizing node with
  | intro r _ ih =>
    intro hback
    rcases hback.cases_head with hr | ⟨r₁, node₁, hr₁, target₁, hreach⟩
    · exact ih r ⟨node, target, hr⟩ target hback
    · exact ih r₁ ⟨node, target, hr₁⟩ target₁ (hreach.trans target (.of_mentions hr₁))

/-- The trees that are walked for a tree that unfolds unfold themselves. -/
lemma Unfolds.of_visits (h : Unfolds context t u) {t' : Tree} (ht' : Visits context t t') :
    ∃ v, Unfolds context t' v := by
  induction ht' with
  | start => exact ⟨u, h⟩
  | step _ hr target ih =>
    obtain ⟨v, hv⟩ := ih
    obtain ⟨node, w, target', hw⟩ := hv.of_mentions hr
    obtain rfl := Option.some.inj (target.symm.trans target')
    exact ⟨w, hw⟩

lemma Unfolds.resolvable (h : Unfolds context t u) : Resolvable context t where
  found r hr := by
    obtain ⟨t', ht', hr⟩ := hr
    obtain ⟨v, hv⟩ := h.of_visits ht'
    obtain ⟨node, -, target, -⟩ := hv.of_mentions hr
    exact ⟨node, target⟩
  scalar t' r ht' hr node v target hunfolds := by
    obtain ⟨w, hw⟩ := h.of_visits ht'
    exact hw.isScalar_of_embeds hr target hunfolds
  acyclic r node hr target := by
    obtain ⟨t', ht', hr⟩ := hr
    obtain ⟨v, hv⟩ := h.of_visits ht'
    exact not_reaches_of_acc (hv.acc hr) target

/-! ### Cycles -/

/-- The names are those of a path of references that starts in the tree and comes back to one that
it has passed. -/
def IsCycle (context t : Tree) (names : List String) : Prop :=
  ∃ path last, names = (path ++ [last]).map Reference.name ∧ last ∈ path ∧
    (path ++ [last]).IsChain (Leads context) ∧ ∀ r ∈ (path ++ [last]).head?, Mentions t r

/-- A cycle that shows behind a path of references is a path itself. -/
lemma IsFollowing.isCycle {F : List String → Follow} (hF : IsFollowing context F)
    (rs : List Reference) (hpath : (rs ++ [r]).IsChain (Leads context))
    (hhead : ∀ r₀ ∈ (rs ++ [r]).head?, Mentions t r₀) (hvalid : ∀ r₀ ∈ rs ++ [r], r₀.IsValid)
    {path : String} {names : List String}
    (h : F (rs.map Reference.name) path r = .error (.templateCycle names)) :
    IsCycle context t names := by
  obtain ⟨chain, hchain⟩ : ∃ chain, chain = rs.map Reference.name := ⟨_, rfl⟩
  rw [← hchain] at h
  induction chain, r using callInduction context generalizing rs path with
  | step chain r ih =>
    by_cases hmem : r.name ∈ chain
    · rw [hF.of_mem hmem, Except.error.injEq, Error.templateCycle.injEq] at h
      obtain ⟨r₀, hr₀, hname⟩ := List.mem_map.1 (hchain ▸ hmem)
      obtain rfl := (hvalid r₀ (List.mem_append_left _ hr₀)).eq_of_name_eq
        (hvalid r (by simp)) hname
      exact ⟨rs, r₀, by rw [← h, hchain, List.map_append, List.map_singleton], hr₀, hpath, hhead⟩
    · cases htarget : r.target? context with
      | none => simp [hF.of_target_eq_none hmem htarget] at h
      | some node =>
        rw [hF.of_target hmem htarget] at h
        obtain ⟨r', p, hr', he⟩ := exists_cycle_of_resolveTree h
        have hleads : Leads context r r' := ⟨node, htarget, hr'⟩
        have hpath' : (rs ++ [r] ++ [r']).IsChain (Leads context) :=
          List.isChain_append.2 ⟨hpath, .singleton r', by simpa using hleads⟩
        have hhead' : ∀ r₀ ∈ (rs ++ [r] ++ [r']).head?, Mentions t r₀ := by
          rwa [List.head?_append_of_ne_nil _ (by simp)]
        have hvalid' : ∀ r₀ ∈ rs ++ [r] ++ [r'], r₀.IsValid :=
          List.forall_mem_append.2 ⟨hvalid, by simpa using hr'.isValid⟩
        exact ih r' hmem hleads _ hpath' hhead' hvalid' he (by simp [hchain])

/-! ### Resolving -/

/-- Resolving ends: references are followed by one rule, which calls itself along a well-founded
relation. It succeeds exactly if the tree can be resolved, and then with what the tree unfolds to. A
cycle that it reports is one of references that lead to each other from the tree on. -/
theorem resolve_decides_unfolding (context t : Tree) :
    (WellFounded (Calls context) ∧ ∃ F, IsFollowing context F ∧
      (∀ G, IsFollowing context G → G = F) ∧ resolve context t = resolveTree (F []) "" t) ∧
    ((∃ u, resolve context t = .ok u) ↔ Resolvable context t) ∧
    (∀ u, resolve context t = .ok u ↔ Unfolds context t u) ∧
    ∀ names, resolve context t = .error (.templateCycle names) → IsCycle context t names := by
  obtain ⟨F, hF, heq⟩ : ∃ F, IsFollowing context F ∧ resolve context t = resolveTree (F []) "" t :=
    ⟨_, isFollowing_follow context, rfl⟩
  have hunfolds : ∀ u, resolve context t = .ok u → Unfolds context t u := fun u h =>
    unfolds_of_resolveTree "" t (fun r _ p v hv => hF.unfolds hv) (heq.symm.trans h)
  have hresolves : Resolvable context t → ∃ u, resolve context t = .ok u := fun h => by
    rw [heq]
    exact hF.exists_resolveTree_eq_ok h .start
      (fun r hr => hF.exists_eq_ok h (.of_mentions hr) (by simp)) ""
  refine ⟨⟨wellFounded_calls context, F, hF, fun G hG => hG.unique hF, heq⟩,
    ⟨fun ⟨u, h⟩ => (hunfolds u h).resolvable, hresolves⟩, fun u => ⟨hunfolds u, fun h => ?_⟩,
    fun names h => ?_⟩
  · obtain ⟨v, hv⟩ := hresolves h.resolvable
    rw [hv, h.unique (hunfolds v hv)]
  · obtain ⟨r, p, hr, he⟩ := exists_cycle_of_resolveTree (heq.symm.trans h)
    exact hF.isCycle [] (.singleton r) (by simpa using hr) (by simpa using hr.isValid) he

/-- Two values that refer to each other are reported with the path around, and a value that is
referred to twice is unfolded twice. -/
theorem resolve_decides_unfolding_in_circle :
    IsCycle
      (.mapping [(.text "a", .text "$\x7bx-cfg.b\x7d"), (.text "b", .text "$\x7bx-cfg.a\x7d")])
      (.text "$\x7bx-cfg.a\x7d") ["x-cfg.a", "x-cfg.b", "x-cfg.a"] ∧
    Unfolds (.mapping [(.text "a", .bool true)])
      (.sequence [.text "$\x7bx-cfg.a\x7d", .text "-$\x7bx-cfg.a\x7d-"])
      (.sequence [.bool true, .text "-true-"]) := by
  have ha : piecesOf "$\x7bx-cfg.a\x7d" = [.reference ⟨[['a']]⟩] := by decide
  have hb : piecesOf "$\x7bx-cfg.b\x7d" = [.reference ⟨[['b']]⟩] := by decide
  have hlonger : piecesOf "-$\x7bx-cfg.a\x7d-" =
      [.plain '-', .reference ⟨[['a']]⟩, .plain '-'] := by
    decide
  have hcount : referenceCount (.mapping [(.text "a", .text "$\x7bx-cfg.b\x7d"),
      (.text "b", .text "$\x7bx-cfg.a\x7d")]) = 2 := by
    decide
  have hcycle : resolve
      (.mapping [(.text "a", .text "$\x7bx-cfg.b\x7d"), (.text "b", .text "$\x7bx-cfg.a\x7d")])
      (.text "$\x7bx-cfg.a\x7d") = .error (.templateCycle ["x-cfg.a", "x-cfg.b", "x-cfg.a"]) := by
    simp [resolve, hcount, resolveTree, resolveText, ha, hb, follow, Reference.name, contextKey,
      Reference.target?, Tree.walk?, Tree.lookupText?]
  have hshared : resolve (.mapping [(.text "a", .bool true)])
      (.sequence [.text "$\x7bx-cfg.a\x7d", .text "-$\x7bx-cfg.a\x7d-"]) =
      .ok (.sequence [.bool true, .text "-true-"]) := by
    simp [resolve, resolveTree, resolveItems, resolveText, ha, hlonger, follow, Reference.name,
      contextKey, Reference.target?, Tree.walk?, Tree.lookupText?, resolvePiece, interpolated,
      Tree.scalarText?, Tree.boolText, bind, Except.bind, pure, Except.pure, Except.map]
  exact ⟨(resolve_decides_unfolding _ _).2.2.2 _ hcycle,
    ((resolve_decides_unfolding _ _).2.2.1 _).1 hshared⟩

end TwoStage.Template
