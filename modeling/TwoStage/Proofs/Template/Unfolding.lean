import TwoStage.Proofs.Template.Reference
import TwoStage.Proofs.Yaml.Correspondence

/-!
# Unfolding references

What a tree stands for against a section, as a relation: a string that is one reference stands for
what the node behind it stands for, and references in a longer string are filled in by scalars. The
resolver is a walk over a tree that asks for the node behind each reference in it. Whatever answers
it gets, the walk succeeds with unfolded nodes exactly if the answers are such, and it fails only
with the error of an answer or where a node does not fit into a string.
-/

namespace TwoStage

open Text Yaml

namespace Yaml.Tree

/-- The string stands as a value in the tree, outside of tags. -/
inductive Exposes : Tree → String → Prop
  | text (s : String) : Exposes (.text s) s
  | item {ts : List Tree} {t : Tree} {s : String} (mem : t ∈ ts) (h : Exposes t s) :
      Exposes (.sequence ts) s
  | value {es : List (Tree × Tree)} {e : Tree × Tree} {s : String} (mem : e ∈ es)
      (h : Exposes e.2 s) : Exposes (.mapping es) s

lemma Exposes.contains {t : Tree} {s : String} (h : t.Exposes s) : t.Contains s := by
  induction h with
  | text s => exact .text s
  | item mem _ ih => exact .item mem ih
  | value mem _ ih => exact .value mem ih

/-- The text that the tree gives inside a longer string: that of a scalar, and none for null. -/
def inlineText? : Tree → Option String
  | .null => some ""
  | t     => t.scalarText?

def IsScalar (t : Tree) : Prop := t = .null ∨ t.scalarText?.isSome

lemma isScalar_iff {t : Tree} : t.IsScalar ↔ ∃ s, t.inlineText? = some s := by
  cases t <;> simp [IsScalar, inlineText?, scalarText?]

end Yaml.Tree

namespace Template

variable {context t u : Tree} {r : Reference} {s : String}

/-! ### References in a tree -/

/-- The reference stands in a string of the tree, outside of tags. -/
def Mentions (t : Tree) (r : Reference) : Prop := ∃ s, t.Exposes s ∧ .reference r ∈ piecesOf s

/-- The reference stands in a string of the tree that holds more than it. -/
def Embeds (t : Tree) (r : Reference) : Prop :=
  ∃ s, t.Exposes s ∧ .reference r ∈ piecesOf s ∧ piecesOf s ≠ [.reference r]

lemma mentions_text (h : .reference r ∈ piecesOf s) : Mentions (.text s) r := ⟨s, .text s, h⟩

lemma Mentions.item {ts : List Tree} (ht : t ∈ ts) (h : Mentions t r) :
    Mentions (.sequence ts) r := by
  obtain ⟨s, hs, hmem⟩ := h
  exact ⟨s, .item ht hs, hmem⟩

lemma Mentions.value {es : List (Tree × Tree)} {e : Tree × Tree} (he : e ∈ es)
    (h : Mentions e.2 r) : Mentions (.mapping es) r := by
  obtain ⟨s, hs, hmem⟩ := h
  exact ⟨s, .value he hs, hmem⟩

lemma embeds_text (h : .reference r ∈ piecesOf s) (hmore : ∀ r', piecesOf s ≠ [.reference r']) :
    Embeds (.text s) r := ⟨s, .text s, h, hmore r⟩

lemma Embeds.item {ts : List Tree} (ht : t ∈ ts) (h : Embeds t r) : Embeds (.sequence ts) r := by
  obtain ⟨s, hs, hmem⟩ := h
  exact ⟨s, .item ht hs, hmem⟩

lemma Embeds.value {es : List (Tree × Tree)} {e : Tree × Tree} (he : e ∈ es) (h : Embeds e.2 r) :
    Embeds (.mapping es) r := by
  obtain ⟨s, hs, hmem⟩ := h
  exact ⟨s, .value he hs, hmem⟩

/-! ### The walk over a tree -/

lemma resolveText_of_whole {follow : Follow} {path : String} (h : piecesOf s = [.reference r]) :
    resolveText follow path s = follow path r := by
  rw [resolveText, h]

lemma resolveText_of_parts {follow : Follow} {path : String}
    (h : ∀ r, piecesOf s ≠ [.reference r]) :
    resolveText follow path s = ((piecesOf s).mapM (resolvePiece follow path)).map fun parts =>
      .text (String.join parts) := by
  unfold resolveText
  split
  next r hr => exact absurd hr (h r)
  next => rfl

/-- A string is one reference or not. -/
lemma whole_or_parts (s : String) :
    (∃ r, piecesOf s = [.reference r]) ∨ ∀ r, piecesOf s ≠ [.reference r] := by
  by_cases h : ∃ r, piecesOf s = [.reference r]
  · exact .inl h
  · exact .inr (not_exists.1 h)

lemma interpolated_eq_ok_iff {path : String} {node : Tree} {text : String} :
    interpolated path r node = .ok text ↔ node.inlineText? = some text := by
  cases node <;> simp [interpolated, Tree.inlineText?, Tree.scalarText?]

/-- What a reference gives inside a longer string. -/
lemma resolvePiece_reference_eq_ok_iff {follow : Follow} {path text : String} :
    resolvePiece follow path (.reference r) = .ok text ↔
      ∃ node, follow path r = .ok node ∧ node.inlineText? = some text := by
  rw [resolvePiece, Outcome.bind_eq_ok_iff]
  simp only [interpolated_eq_ok_iff]

section Congruence

variable {f g : Follow}

lemma resolveText_congr {path : String} (h : ∀ r, .reference r ∈ piecesOf s → f path r = g path r) :
    resolveText f path s = resolveText g path s := by
  rcases whole_or_parts s with ⟨r, hr⟩ | hparts
  · rw [resolveText_of_whole hr, resolveText_of_whole hr]
    exact h r (by simp [hr])
  · rw [resolveText_of_parts hparts, resolveText_of_parts hparts]
    congr 1
    refine Outcome.mapM_congr fun p hp => ?_
    cases p with
    | plain c => rfl
    | reference r => rw [resolvePiece, resolvePiece, h r hp]

mutual

/-- The walk asks for the references of the tree only. -/
lemma resolveTree_congr (path : String) (t : Tree) (h : ∀ r, Mentions t r → ∀ p, f p r = g p r) :
    resolveTree f path t = resolveTree g path t := by
  match t with
  | .null | .bool _ | .number _ | .tagged _ _ => simp [resolveTree]
  | .text s =>
    rw [resolveTree, resolveTree]
    exact resolveText_congr fun r hr => h r (mentions_text hr) path
  | .sequence ts =>
    rw [resolveTree, resolveTree, resolveItems_congr path 0 ts fun t ht r hr => h r (hr.item ht)]
  | .mapping es =>
    rw [resolveTree, resolveTree,
      resolveEntries_congr path es fun e he r hr => h r (hr.value he)]

lemma resolveItems_congr (path : String) (i : Nat) (ts : List Tree)
    (h : ∀ t ∈ ts, ∀ r, Mentions t r → ∀ p, f p r = g p r) :
    resolveItems f path i ts = resolveItems g path i ts := by
  match ts with
  | [] => simp [resolveItems]
  | t :: ts =>
    rw [List.forall_mem_cons] at h
    rw [resolveItems, resolveItems, resolveTree_congr _ t h.1,
      resolveItems_congr path (i + 1) ts h.2]

lemma resolveEntries_congr (path : String) (es : List (Tree × Tree))
    (h : ∀ e ∈ es, ∀ r, Mentions e.2 r → ∀ p, f p r = g p r) :
    resolveEntries f path es = resolveEntries g path es := by
  match es with
  | [] => simp [resolveEntries]
  | (k, v) :: es =>
    rw [List.forall_mem_cons] at h
    rw [resolveEntries, resolveEntries, resolveTree_congr _ v h.1,
      resolveEntries_congr path es h.2]

end

end Congruence

/-! ### Unfolding -/

/-- The text of a piece, where references stand for the given texts. -/
def filled (text : Reference → String) : Piece → String
  | .plain c     => String.ofList [c]
  | .reference r => text r

/-- What a tree stands for once all references in it are unfolded. Tagged values stay as they
are. -/
inductive Unfolds (context : Tree) : Tree → Tree → Prop
  | null : Unfolds context .null .null
  | bool (b : Bool) : Unfolds context (.bool b) (.bool b)
  | number (n : Number) : Unfolds context (.number n) (.number n)
  | tagged (tag : String) (v : Tree) : Unfolds context (.tagged tag v) (.tagged tag v)
  /-- A string that is one reference stands for what the node behind it stands for. -/
  | whole {s : String} {r : Reference} {node u : Tree} (hs : piecesOf s = [.reference r])
      (target : r.target? context = some node) (h : Unfolds context node u) :
      Unfolds context (.text s) u
  /-- References in a longer string are replaced by the texts of what they stand for. -/
  | parts {s : String} (node value : Reference → Tree) (text : Reference → String)
      (hs : ∀ r, piecesOf s ≠ [.reference r])
      (target : ∀ r, .reference r ∈ piecesOf s → r.target? context = some (node r))
      (h : ∀ r, .reference r ∈ piecesOf s → Unfolds context (node r) (value r))
      (inline : ∀ r, .reference r ∈ piecesOf s → (value r).inlineText? = some (text r)) :
      Unfolds context (.text s) (.text (String.join ((piecesOf s).map (filled text))))
  | sequence {ts us : List Tree} (length : ts.length = us.length)
      (h : ∀ p ∈ ts.zip us, Unfolds context p.1 p.2) :
      Unfolds context (.sequence ts) (.sequence us)
  /-- Keys stay as they are. -/
  | mapping {es : List (Tree × Tree)} {us : List Tree} (length : es.length = us.length)
      (h : ∀ p ∈ (es.map Prod.snd).zip us, Unfolds context p.1 p.2) :
      Unfolds context (.mapping es) (.mapping ((es.map Prod.fst).zip us))

/-- Each item has a partner in a list of the same length. -/
lemma exists_mem_zip {α β : Type} {as : List α} {bs : List β} (h : as.length = bs.length) {a : α}
    (ha : a ∈ as) : ∃ b, (a, b) ∈ as.zip bs := by
  rw [← List.map_fst_zip h.le, List.mem_map] at ha
  obtain ⟨⟨a', b⟩, hmem, rfl⟩ := ha
  exact ⟨b, hmem⟩

/-- Lists with the same partners are the same where a partner is determined. -/
lemma eq_of_zip {α β : Type} {R : α → β → Prop} {as : List α} {bs cs : List β}
    (hbs : as.length = bs.length) (hcs : as.length = cs.length)
    (hdet : ∀ p ∈ as.zip bs, ∀ c, R p.1 c → p.2 = c) (h : ∀ p ∈ as.zip cs, R p.1 p.2) :
    bs = cs := by
  induction as generalizing bs cs with
  | nil =>
    rw [List.eq_nil_of_length_eq_zero hbs.symm, List.eq_nil_of_length_eq_zero hcs.symm]
  | cons a as ih =>
    obtain ⟨b, bs, rfl⟩ := List.exists_cons_of_length_eq_add_one hbs.symm
    obtain ⟨c, cs, rfl⟩ := List.exists_cons_of_length_eq_add_one hcs.symm
    rw [List.zip_cons_cons, List.forall_mem_cons] at hdet h
    have hhead : b = c := hdet.1 c h.1
    rw [hhead, ih (by simpa using hbs) (by simpa using hcs) hdet.2 h.2]

namespace Unfolds

/-- A tree unfolds to one tree. -/
lemma unique (h : Unfolds context t u) {v : Tree} (hv : Unfolds context t v) : u = v := by
  induction h generalizing v with
  | null | bool _ | number _ | tagged _ _ =>
    cases hv
    rfl
  | whole hs target _ ih =>
    cases hv with
    | whole hs' target' hv =>
      obtain rfl : _ = _ := Piece.reference.inj (List.cons.inj (hs.symm.trans hs')).1
      obtain rfl := Option.some.inj (target.symm.trans target')
      exact ih hv
    | parts _ _ _ hs' => exact absurd hs (hs' _)
  | @parts s node value text hs target _ inline ih =>
    cases hv with
    | whole hs' => exact absurd hs' (hs _)
    | parts node' value' text' _ target' hv inline' =>
      -- each reference is filled with the text of the one value that its target unfolds to
      have hfilled : (piecesOf s).map (filled text) = (piecesOf s).map (filled text') := by
        refine List.map_congr_left fun p hp => ?_
        cases p with
        | plain c => rfl
        | reference r =>
          have hnode : node r = node' r := Option.some.inj ((target r hp).symm.trans (target' r hp))
          have hvalue : value r = value' r := ih r hp (hnode ▸ hv r hp)
          exact Option.some.inj ((inline r hp).symm.trans (hvalue ▸ inline' r hp))
      rw [hfilled]
  | sequence length _ ih =>
    cases hv with
    | sequence length' hv =>
      rw [eq_of_zip length length' (fun p hp _ hc => ih p hp hc) hv]
  | mapping length _ ih =>
    cases hv with
    | mapping length' hv =>
      rw [eq_of_zip (by simpa using length) (by simpa using length')
        (fun p hp _ hc => ih p hp hc) hv]

/-- Every string of a tree that unfolds does so itself. -/
lemma of_exposes (h : Unfolds context t u) (hs : t.Exposes s) :
    ∃ v, Unfolds context (.text s) v := by
  induction h with
  | null | bool _ | number _ | tagged _ _ => cases hs
  | whole hpieces target h _ =>
    cases hs
    exact ⟨_, .whole hpieces target h⟩
  | parts node value text hpieces target h inline _ =>
    cases hs
    exact ⟨_, .parts node value text hpieces target h inline⟩
  | sequence length _ ih =>
    cases hs with
    | item mem hs =>
      obtain ⟨u, hzip⟩ := exists_mem_zip length mem
      exact ih _ hzip hs
  | mapping length _ ih =>
    cases hs with
    | value mem hs =>
      obtain ⟨u, hzip⟩ := exists_mem_zip (by simpa using length) (List.mem_map_of_mem mem)
      exact ih _ hzip hs

/-- What a reference leads to unfolds if the tree that mentions it does. -/
lemma of_mentions (h : Unfolds context t u) (hr : Mentions t r) :
    ∃ node v, r.target? context = some node ∧ Unfolds context node v := by
  obtain ⟨s, hs, hmem⟩ := hr
  obtain ⟨v, hv⟩ := h.of_exposes hs
  cases hv with
  | whole hpieces target h =>
    rw [hpieces, List.mem_singleton] at hmem
    obtain rfl := Piece.reference.inj hmem
    exact ⟨_, _, target, h⟩
  | parts node value text _ target h _ => exact ⟨node r, value r, target r hmem, h r hmem⟩

/-- What a reference in a longer string leads to unfolds to a scalar. -/
lemma isScalar_of_embeds (h : Unfolds context t u) (hr : Embeds t r) {node v : Tree}
    (hnode : r.target? context = some node) (hv : Unfolds context node v) : v.IsScalar := by
  obtain ⟨s, hs, hmem, hmore⟩ := hr
  obtain ⟨w, hw⟩ := h.of_exposes hs
  cases hw with
  | whole hpieces _ _ =>
    rw [hpieces, List.mem_singleton] at hmem
    exact absurd hpieces (Piece.reference.inj hmem ▸ hmore)
  | parts node' value text _ target h inline =>
    obtain rfl := Option.some.inj (hnode.symm.trans (target r hmem))
    obtain rfl := hv.unique (h r hmem)
    exact Tree.isScalar_iff.2 ⟨_, inline r hmem⟩

end Unfolds

/-! ### Walks that succeed, and walks that fail -/

section Walks

variable {follow : Follow}

lemma unfolds_of_resolveText {path : String}
    (hf : ∀ r, .reference r ∈ piecesOf s → ∀ p v, follow p r = .ok v →
      ∃ node, r.target? context = some node ∧ Unfolds context node v)
    (h : resolveText follow path s = .ok u) : Unfolds context (.text s) u := by
  rcases whole_or_parts s with ⟨r, hr⟩ | hparts
  · rw [resolveText_of_whole hr] at h
    obtain ⟨node, hnode, hu⟩ := hf r (by simp [hr]) path u h
    exact .whole hr hnode hu
  · rw [resolveText_of_parts hparts] at h
    obtain ⟨texts, htexts, rfl⟩ := Outcome.map_eq_ok_iff.1 h
    -- what a reference came to is chosen for all of them at once, since the same text fills each of
    -- its occurrences
    have hanswer : ∀ r, ∃ node value text, .reference r ∈ piecesOf s →
        r.target? context = some node ∧ Unfolds context node value ∧
          value.inlineText? = some text ∧ resolvePiece follow path (.reference r) = .ok text := by
      intro r
      by_cases hr : .reference r ∈ piecesOf s
      · obtain ⟨text, -, htext⟩ := Outcome.exists_result_of_mem htexts hr
        obtain ⟨value, hvalue, hinline⟩ := resolvePiece_reference_eq_ok_iff.1 htext
        obtain ⟨node, hnode, hu⟩ := hf r hr path value hvalue
        exact ⟨node, value, text, fun _ => ⟨hnode, hu, hinline, htext⟩⟩
      · exact ⟨.null, .null, "", fun h => absurd h hr⟩
    choose node value text hall using hanswer
    have hfilled : (piecesOf s).mapM (resolvePiece follow path) =
        .ok ((piecesOf s).map (filled text)) := by
      refine Outcome.mapM_eq_map fun p hp => ?_
      cases p with
      | plain c => rfl
      | reference r => exact (hall r hp).2.2.2
    obtain rfl := Except.ok.inj (htexts.symm.trans hfilled)
    exact .parts node value text hparts (fun r hr => (hall r hr).1) (fun r hr => (hall r hr).2.1)
      fun r hr => (hall r hr).2.2.1

mutual

/-- A walk that gets unfolded nodes for answers gives the unfolded tree. -/
lemma unfolds_of_resolveTree (path : String) (t : Tree)
    (hf : ∀ r, Mentions t r → ∀ p v, follow p r = .ok v →
      ∃ node, r.target? context = some node ∧ Unfolds context node v) {u : Tree}
    (h : resolveTree follow path t = .ok u) : Unfolds context t u := by
  match t with
  | .null | .bool _ | .number _ | .tagged _ _ =>
    simp only [resolveTree, Except.ok.injEq] at h
    subst h
    constructor
  | .text s =>
    rw [resolveTree] at h
    exact unfolds_of_resolveText (fun r hr => hf r (mentions_text hr)) h
  | .sequence ts =>
    rw [resolveTree] at h
    obtain ⟨us, hus, rfl⟩ := Outcome.map_eq_ok_iff.1 h
    obtain ⟨length, hzip⟩ :=
      unfolds_of_resolveItems path 0 ts (fun t ht r hr => hf r (hr.item ht)) hus
    exact .sequence length hzip
  | .mapping es =>
    rw [resolveTree] at h
    obtain ⟨fs, hfs, rfl⟩ := Outcome.map_eq_ok_iff.1 h
    obtain ⟨us, rfl, length, hzip⟩ :=
      unfolds_of_resolveEntries path es (fun e he r hr => hf r (hr.value he)) hfs
    exact .mapping length hzip

lemma unfolds_of_resolveItems (path : String) (i : Nat) (ts : List Tree)
    (hf : ∀ t ∈ ts, ∀ r, Mentions t r → ∀ p v, follow p r = .ok v →
      ∃ node, r.target? context = some node ∧ Unfolds context node v) {us : List Tree}
    (h : resolveItems follow path i ts = .ok us) :
    ts.length = us.length ∧ ∀ p ∈ ts.zip us, Unfolds context p.1 p.2 := by
  match ts with
  | [] =>
    rw [resolveItems, Except.ok.injEq] at h
    subst h
    simp
  | t :: ts =>
    rw [List.forall_mem_cons] at hf
    rw [resolveItems] at h
    obtain ⟨u, hu, h⟩ := Outcome.bind_eq_ok_iff.1 h
    obtain ⟨us, hus, h⟩ := Outcome.bind_eq_ok_iff.1 h
    obtain rfl := Outcome.pure_eq_ok_iff.1 h
    obtain ⟨length, hzip⟩ := unfolds_of_resolveItems path (i + 1) ts hf.2 hus
    rw [List.zip_cons_cons, List.forall_mem_cons]
    exact ⟨congrArg (· + 1) length, unfolds_of_resolveTree _ t hf.1 hu, hzip⟩

lemma unfolds_of_resolveEntries (path : String) (es : List (Tree × Tree))
    (hf : ∀ e ∈ es, ∀ r, Mentions e.2 r → ∀ p v, follow p r = .ok v →
      ∃ node, r.target? context = some node ∧ Unfolds context node v) {fs : List (Tree × Tree)}
    (h : resolveEntries follow path es = .ok fs) :
    ∃ us, (es.map Prod.fst).zip us = fs ∧ es.length = us.length ∧
      ∀ p ∈ (es.map Prod.snd).zip us, Unfolds context p.1 p.2 := by
  match es with
  | [] =>
    rw [resolveEntries, Except.ok.injEq] at h
    subst h
    exact ⟨[], by simp⟩
  | (k, v) :: es =>
    rw [List.forall_mem_cons] at hf
    rw [resolveEntries] at h
    obtain ⟨u, hu, h⟩ := Outcome.bind_eq_ok_iff.1 h
    obtain ⟨fs, hfs, h⟩ := Outcome.bind_eq_ok_iff.1 h
    obtain rfl := Outcome.pure_eq_ok_iff.1 h
    obtain ⟨us, rfl, length, hzip⟩ := unfolds_of_resolveEntries path es hf.2 hfs
    refine ⟨u :: us, rfl, congrArg (· + 1) length, ?_⟩
    rw [List.map_cons, List.zip_cons_cons, List.forall_mem_cons]
    exact ⟨unfolds_of_resolveTree _ v hf.1 hu, hzip⟩

end

/-- The error of a walk over a tree: that of an answer, or one about a node that does not fit into a
longer string. -/
def Fails (follow : Follow) (t : Tree) (e : Error) : Prop :=
  (∃ r p, Mentions t r ∧ follow p r = .error e) ∨
    ∃ r p u, Embeds t r ∧ follow p r = .ok u ∧ ¬ u.IsScalar ∧
      ∃ q text, e = .templateReference q text

lemma Fails.item {ts : List Tree} {e : Error} (ht : t ∈ ts) (h : Fails follow t e) :
    Fails follow (.sequence ts) e := by
  rcases h with ⟨r, p, hr, he⟩ | ⟨r, p, u, hr, hu⟩
  · exact .inl ⟨r, p, hr.item ht, he⟩
  · exact .inr ⟨r, p, u, hr.item ht, hu⟩

lemma Fails.value {es : List (Tree × Tree)} {f : Tree × Tree} {e : Error} (hf : f ∈ es)
    (h : Fails follow f.2 e) : Fails follow (.mapping es) e := by
  rcases h with ⟨r, p, hr, he⟩ | ⟨r, p, u, hr, hu⟩
  · exact .inl ⟨r, p, hr.value hf, he⟩
  · exact .inr ⟨r, p, u, hr.value hf, hu⟩

lemma interpolated_eq_error {path : String} {node : Tree} {e : Error}
    (h : interpolated path r node = .error e) :
    ¬ node.IsScalar ∧ ∃ q text, e = .templateReference q text := by
  unfold interpolated at h
  split at h
  next => simp at h
  next hnull =>
    split at h
    next => simp at h
    next hnone =>
      refine ⟨fun hscalar => ?_, path, _, (Except.error.inj h).symm⟩
      rcases hscalar with rfl | hsome
      · exact hnull rfl
      · simp [hnone] at hsome

lemma fails_of_resolveText {path : String} {e : Error} (h : resolveText follow path s = .error e) :
    Fails follow (.text s) e := by
  rcases whole_or_parts s with ⟨r, hr⟩ | hparts
  · rw [resolveText_of_whole hr] at h
    exact .inl ⟨r, path, mentions_text (by simp [hr]), h⟩
  · rw [resolveText_of_parts hparts, Outcome.map_eq_error_iff] at h
    obtain ⟨p, hp, he⟩ := Outcome.exists_error_of_mapM h
    cases p with
    | plain c => simp [resolvePiece] at he
    | reference r =>
      rw [resolvePiece, Outcome.bind_eq_error_iff] at he
      rcases he with he | ⟨u, hu, he⟩
      · exact .inl ⟨r, path, mentions_text hp, he⟩
      · exact .inr ⟨r, path, u, embeds_text hp hparts, hu, interpolated_eq_error he⟩

mutual

/-- Where a walk fails. -/
lemma fails_of_resolveTree (path : String) (t : Tree) {e : Error}
    (h : resolveTree follow path t = .error e) : Fails follow t e := by
  match t with
  | .null | .bool _ | .number _ | .tagged _ _ => simp [resolveTree] at h
  | .text s =>
    rw [resolveTree] at h
    exact fails_of_resolveText h
  | .sequence ts =>
    rw [resolveTree, Outcome.map_eq_error_iff] at h
    obtain ⟨t, ht, he⟩ := fails_of_resolveItems path 0 ts h
    exact he.item ht
  | .mapping es =>
    rw [resolveTree, Outcome.map_eq_error_iff] at h
    obtain ⟨f, hf, he⟩ := fails_of_resolveEntries path es h
    exact he.value hf

lemma fails_of_resolveItems (path : String) (i : Nat) (ts : List Tree) {e : Error}
    (h : resolveItems follow path i ts = .error e) : ∃ t ∈ ts, Fails follow t e := by
  match ts with
  | [] => simp [resolveItems] at h
  | t :: ts =>
    rw [resolveItems, Outcome.bind_eq_error_iff] at h
    rcases h with h | ⟨u, -, h⟩
    · exact ⟨t, List.mem_cons_self, fails_of_resolveTree _ t h⟩
    · rcases Outcome.bind_eq_error_iff.1 h with h | ⟨us, -, h⟩
      · obtain ⟨t', ht, he⟩ := fails_of_resolveItems path (i + 1) ts h
        exact ⟨t', List.mem_cons_of_mem _ ht, he⟩
      · simp [pure, Except.pure] at h

lemma fails_of_resolveEntries (path : String) (es : List (Tree × Tree)) {e : Error}
    (h : resolveEntries follow path es = .error e) : ∃ f ∈ es, Fails follow f.2 e := by
  match es with
  | [] => simp [resolveEntries] at h
  | (k, v) :: es =>
    rw [resolveEntries, Outcome.bind_eq_error_iff] at h
    rcases h with h | ⟨u, -, h⟩
    · exact ⟨(k, v), List.mem_cons_self, fails_of_resolveTree _ v h⟩
    · rcases Outcome.bind_eq_error_iff.1 h with h | ⟨fs, -, h⟩
      · obtain ⟨f, hf, he⟩ := fails_of_resolveEntries path es h
        exact ⟨f, List.mem_cons_of_mem _ hf, he⟩
      · simp [pure, Except.pure] at h

end

/-- A cycle is reported where an answer reports it. -/
lemma exists_cycle_of_resolveTree {path : String} {names : List String}
    (h : resolveTree follow path t = .error (.templateCycle names)) :
    ∃ r p, Mentions t r ∧ follow p r = .error (.templateCycle names) := by
  rcases fails_of_resolveTree path t h with hanswer | ⟨r, p, u, -, -, -, q, text, he⟩
  · exact hanswer
  · simp at he

end Walks

end Template

end TwoStage
