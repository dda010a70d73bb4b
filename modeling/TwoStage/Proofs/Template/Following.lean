import Mathlib.Data.Finset.Card
import Mathlib.Data.Finset.Dedup
import TwoStage.Proofs.Template.Unfolding

/-!
# Following references

A reference is followed behind a chain of others, and the ones where it leads behind it. Each of
them stands in the section, and none is on the chain, so the references of the section that are not
on the chain get fewer from call to call. The calls are therefore well founded, and the room that
the resolver has for them does not show in what it gives: it follows references by a rule that knows
of no room.
-/

namespace TwoStage

open Text Yaml

/-! ### Names of references -/

namespace Reference

/-- References with the same name are the same. -/
lemma IsValid.eq_of_name_eq {r r' : Reference} (h : r.IsValid) (h' : r'.IsValid)
    (heq : r.name = r'.name) : r = r' := by
  have hpath : r.path = r'.path := by
    have hname := String.ofList_injective heq
    exact List.append_cancel_left hname
  have hread := ofPath?_eq_some_iff.2 ⟨h, rfl⟩
  rw [hpath, ofPath?_eq_some_iff.2 ⟨h', rfl⟩] at hread
  exact (Option.some.inj hread).symm

end Reference

lemma isValid_of_mem_piecesWithin {n : Nat} {cs : List Char} {r : Reference}
    (h : .reference r ∈ piecesWithin n cs) : r.IsValid := by
  fun_induction piecesWithin n cs with
  | case1 => simp at h
  | case2 => simp at h
  | case3 n c cs r' rest hstart ih =>
    rcases List.mem_cons.1 h with heq | h
    · obtain rfl := Piece.reference.inj heq
      exact (Reference.atStart?_eq_some_iff.1 hstart).1
    · exact ih h
  | case4 n c cs _ ih => exact ih (by simpa using h)

namespace Template

variable {context t u node : Tree} {r r' : Reference} {s : String}

lemma Mentions.isValid (h : Mentions t r) : r.IsValid := by
  obtain ⟨s, -, hmem⟩ := h
  exact isValid_of_mem_piecesWithin hmem

/-! ### Where references lead -/

/-- The second reference stands where the first one leads. -/
def Leads (context : Tree) (r r' : Reference) : Prop :=
  ∃ node, r.target? context = some node ∧ Mentions node r'

/-! ### The references of a section -/

def reference? : Piece → Option Reference
  | .plain _     => none
  | .reference r => some r

def referencesOf (t : Tree) : List Reference :=
  t.strings.flatMap fun s => (piecesOf s).filterMap reference?

lemma length_referencesOf (t : Tree) : (referencesOf t).length = referenceCount t := by
  rw [referencesOf, List.length_flatMap, Tree.strings, List.map_map, referenceCount,
    ← List.sum_eq_foldr]
  congr 1
  refine List.map_congr_left fun ps _ => ?_
  rw [Function.comp_apply, List.length_filterMap_eq_countP, List.countP_eq_length_filter]
  congr 1
  refine List.filter_congr fun p _ => ?_
  cases p <;> rfl

lemma mem_referencesOf (hs : t.Contains s) (h : .reference r ∈ piecesOf s) :
    r ∈ referencesOf t :=
  List.mem_flatMap.2 ⟨s, Tree.mem_strings_iff.2 hs, List.mem_filterMap.2 ⟨_, h, rfl⟩⟩

end Template

namespace Yaml.Tree

lemma exists_of_lookupText?_eq_some {name : String} {es : List (Tree × Tree)} {v : Tree}
    (h : lookupText? name es = some v) : ∃ k, (k, v) ∈ es := by
  fun_induction lookupText? name es with
  | case1 => simp at h
  | case2 v' es =>
    obtain rfl := Option.some.inj h
    exact ⟨_, List.mem_cons_self⟩
  | case3 s v' es _ ih =>
    obtain ⟨k, hk⟩ := ih h
    exact ⟨k, List.mem_cons_of_mem _ hk⟩
  | case4 e es _ ih =>
    obtain ⟨k, hk⟩ := ih h
    exact ⟨k, List.mem_cons_of_mem _ hk⟩

/-- What passes from lists to their items and from mappings to their values passes to every node
that is found. -/
lemma walk?_induction {P : Tree → Prop} (items : ∀ ts, P (.sequence ts) → ∀ t ∈ ts, P t)
    (values : ∀ es, P (.mapping es) → ∀ e ∈ es, P e.2) {path : List String} {t node : Tree}
    (h : t.walk? path = some node) (ht : P t) : P node := by
  induction path generalizing t with
  | nil =>
    rw [walk?, Option.some.injEq] at h
    exact h ▸ ht
  | cons name rest ih =>
    unfold walk? at h
    split at h
    next => simp_all
    next es heq =>
      obtain ⟨rfl, rfl⟩ := List.cons.inj heq
      obtain ⟨v, hv, hrest⟩ := Option.bind_eq_some_iff.1 h
      obtain ⟨k, hk⟩ := exists_of_lookupText?_eq_some hv
      exact ih hrest (values es ht (k, v) hk)
    next ts heq =>
      obtain ⟨rfl, rfl⟩ := List.cons.inj heq
      split at h
      next i _ =>
        obtain ⟨v, hv, hrest⟩ := Option.bind_eq_some_iff.1 h
        exact ih hrest (items ts ht v (List.mem_of_getElem? hv))
      next => simp at h
    next => simp at h

/-- A tree contains the strings of the nodes in it. -/
lemma contains_of_walk? {path : List String} {t node : Tree} {s : String}
    (h : t.walk? path = some node) (hs : node.Contains s) : t.Contains s := by
  refine walk?_induction (P := fun u => ∀ s, u.Contains s → t.Contains s) ?_ ?_ h
    (fun _ hs => hs) s hs
  · intro ts hts u hu s hs
    exact hts s (.item hu hs)
  · intro es hes e he s hs
    exact hes s (.value he hs)

end Yaml.Tree

namespace Template

variable {context t u node : Tree} {r r' : Reference} {s : String}

/-- The references behind a reference stand in the section. -/
lemma Leads.mem_referencesOf (h : Leads context r r') : r' ∈ referencesOf context := by
  obtain ⟨node, target, s, hs, hmem⟩ := h
  exact Template.mem_referencesOf (Tree.contains_of_walk? target hs.contains) hmem

def namesOf (context : Tree) : Finset String := ((referencesOf context).map Reference.name).toFinset

/-- How many calls can be inside the following of a reference behind a chain, itself included: one
for each name of the section that is not on the chain, and one more where the reference is from
elsewhere. -/
def need (context : Tree) (chain : List String) (r : Reference) : Nat :=
  (namesOf context \ chain.toFinset).card + if r.name ∈ namesOf context then 0 else 1

/-- One reference is followed inside the following of another, each behind its chain. -/
def Calls (context : Tree) (callee caller : List String × Reference) : Prop :=
  caller.2.name ∉ caller.1 ∧ callee.1 = caller.1 ++ [caller.2.name] ∧
    Leads context caller.2 callee.2

lemma need_le (context : Tree) (chain : List String) (r : Reference) :
    need context chain r ≤ referenceCount context + 1 := by
  have hnames : (namesOf context \ chain.toFinset).card ≤ referenceCount context := by
    refine (Finset.card_le_card Finset.sdiff_subset).trans ?_
    rw [← length_referencesOf]
    simpa [namesOf] using List.toFinset_card_le ((referencesOf context).map Reference.name)
  unfold need
  split <;> omega

lemma need_pos {chain : List String} (h : r.name ∉ chain) : 0 < need context chain r := by
  unfold need
  split
  next hmem =>
    have hleft : r.name ∈ namesOf context \ chain.toFinset := by simp [hmem, h]
    have hcard := Finset.card_pos.2 ⟨_, hleft⟩
    omega
  next => omega

/-- Each call leaves fewer calls to come. -/
lemma need_lt {chain : List String} (h : r.name ∉ chain) (hleads : Leads context r r') :
    need context (chain ++ [r.name]) r' < need context chain r := by
  have hmem' : r'.name ∈ namesOf context := by
    rw [namesOf, List.mem_toFinset]
    exact List.mem_map_of_mem hleads.mem_referencesOf
  have hleft : namesOf context \ (chain ++ [r.name]).toFinset =
      (namesOf context \ chain.toFinset).erase r.name := by
    ext n
    simp only [Finset.mem_sdiff, List.mem_toFinset, List.mem_append, List.mem_singleton,
      Finset.mem_erase]
    tauto
  unfold need
  rw [if_pos hmem', hleft]
  split
  next hmem =>
    have hcard := Finset.card_erase_lt_of_mem (a := r.name)
      (s := namesOf context \ chain.toFinset) (by simp [hmem, h])
    omega
  next =>
    have hcard := Finset.card_erase_le (a := r.name) (s := namesOf context \ chain.toFinset)
    omega

/-- Following references ends. -/
lemma wellFounded_calls (context : Tree) : WellFounded (Calls context) := by
  refine Subrelation.wf ?_ (measure fun p : List String × Reference => need context p.1 p.2).wf
  rintro ⟨chain', r'⟩ ⟨chain, r⟩ ⟨hname, rfl, hleads⟩
  exact need_lt hname hleads

/-- What holds of a reference behind a chain if it holds of those followed inside it holds of
all. -/
@[elab_as_elim]
lemma callInduction (context : Tree) {P : List String → Reference → Prop}
    (step : ∀ chain r, (∀ r', r.name ∉ chain → Leads context r r' → P (chain ++ [r.name]) r') →
      P chain r) (chain : List String) (r : Reference) : P chain r := by
  refine (wellFounded_calls context).induction (C := fun p => P p.1 p.2) (chain, r) ?_
  rintro ⟨chain, r⟩ ih
  exact step chain r fun r' hname hleads => ih (_, r') ⟨hname, rfl, hleads⟩

/-! ### The rule without room -/

/-- Follow a reference behind a chain of others, if the ones behind it are followed as given. -/
def followWith (context : Tree) (next : List String → Follow) (chain : List String) : Follow :=
  fun path r =>
    if r.name ∈ chain then .error (.templateCycle (chain ++ [r.name]))
    else
      match r.target? context with
      | none      => .error (.templateReference path r.name)
      | some node => resolveTree (next (chain ++ [r.name])) r.name node

/-- References are followed by the rule, however many there are. -/
def IsFollowing (context : Tree) (F : List String → Follow) : Prop :=
  ∀ chain, F chain = followWith context F chain

lemma follow_succ (context : Tree) (room : Nat) (chain : List String) :
    follow context (room + 1) chain = followWith context (follow context room) chain := by
  funext path r
  unfold follow followWith
  simp only [List.contains_iff_mem]
  split
  · rfl
  · split <;> simp_all

lemma follow_of_mem {room : Nat} {chain : List String} {path : String} (h : r.name ∈ chain) :
    follow context room chain path r = .error (.templateCycle (chain ++ [r.name])) := by
  unfold follow
  rw [if_pos (by simpa using h)]

/-- Room beyond what is needed makes no difference. -/
lemma follow_congr {room room' : Nat} {chain : List String} {path : String}
    (hroom : need context chain r ≤ room) (hroom' : need context chain r ≤ room') :
    follow context room chain path r = follow context room' chain path r := by
  induction chain, r using callInduction context generalizing room room' path with
  | step chain r ih =>
    by_cases hmem : r.name ∈ chain
    · rw [follow_of_mem hmem, follow_of_mem hmem]
    · have hpos : 0 < need context chain r := need_pos hmem
      obtain ⟨room, rfl⟩ : ∃ n, room = n + 1 := ⟨room - 1, by omega⟩
      obtain ⟨room', rfl⟩ : ∃ n, room' = n + 1 := ⟨room' - 1, by omega⟩
      rw [follow_succ, follow_succ]
      unfold followWith
      rw [if_neg hmem, if_neg hmem]
      cases htarget : r.target? context with
      | none => rfl
      | some node =>
        refine resolveTree_congr _ node fun r' hr' p => ?_
        have hleads : Leads context r r' := ⟨node, htarget, hr'⟩
        have hlt := need_lt hmem hleads
        exact ih r' hmem hleads (by omega) (by omega)

/-- The resolver follows references by the rule. -/
lemma isFollowing_follow (context : Tree) :
    IsFollowing context (follow context (referenceCount context + 1)) := by
  intro chain
  funext path r
  conv_lhs => rw [follow_succ]
  unfold followWith
  split
  · rfl
  next hmem =>
    cases htarget : r.target? context with
    | none => rfl
    | some node =>
      refine resolveTree_congr _ node fun r' hr' p => follow_congr ?_ ?_
      all_goals
        have hlt := need_lt hmem ⟨node, htarget, hr'⟩
        have hle := need_le context chain r
        omega

/-! ### What following gives -/

section Following

variable {F : List String → Follow} {chain : List String} {path : String}

lemma IsFollowing.of_mem (hF : IsFollowing context F) (h : r.name ∈ chain) :
    F chain path r = .error (.templateCycle (chain ++ [r.name])) := by
  rw [hF, followWith, if_pos h]

lemma IsFollowing.of_target (hF : IsFollowing context F) (h : r.name ∉ chain)
    (htarget : r.target? context = some node) :
    F chain path r = resolveTree (F (chain ++ [r.name])) r.name node := by
  conv_lhs => rw [hF]
  rw [followWith, if_neg h, htarget]

lemma IsFollowing.of_target_eq_none (hF : IsFollowing context F) (h : r.name ∉ chain)
    (htarget : r.target? context = none) :
    F chain path r = .error (.templateReference path r.name) := by
  rw [hF, followWith, if_neg h, htarget]

/-- The rule determines how references are followed. -/
lemma IsFollowing.unique {G : List String → Follow} (hF : IsFollowing context F)
    (hG : IsFollowing context G) : F = G := by
  funext chain path r
  induction chain, r using callInduction context generalizing path with
  | step chain r ih =>
    by_cases hmem : r.name ∈ chain
    · rw [hF.of_mem hmem, hG.of_mem hmem]
    · cases htarget : r.target? context with
      | none => rw [hF.of_target_eq_none hmem htarget, hG.of_target_eq_none hmem htarget]
      | some node =>
        rw [hF.of_target hmem htarget, hG.of_target hmem htarget]
        exact resolveTree_congr _ node fun r' hr' p => ih r' hmem ⟨node, htarget, hr'⟩ p

/-- A reference that is followed to its end stands for what the node behind it unfolds to. -/
lemma IsFollowing.unfolds (hF : IsFollowing context F) (h : F chain path r = .ok u) :
    ∃ node, r.target? context = some node ∧ Unfolds context node u := by
  induction chain, r using callInduction context generalizing path u with
  | step chain r ih =>
    by_cases hmem : r.name ∈ chain
    · simp [hF.of_mem hmem] at h
    · cases htarget : r.target? context with
      | none => simp [hF.of_target_eq_none hmem htarget] at h
      | some node =>
        rw [hF.of_target hmem htarget] at h
        exact ⟨node, rfl, unfolds_of_resolveTree _ node
          (fun r' hr' p v hv => ih r' hmem ⟨node, htarget, hr'⟩ hv) h⟩

end Following

end Template

end TwoStage
