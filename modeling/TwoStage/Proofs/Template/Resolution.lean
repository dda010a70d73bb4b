import TwoStage.Proofs.Template.Reference
import TwoStage.Proofs.Yaml.Record

/-!
# Resolving templates

What a tree resolves to, whatever place it is seen from: a tree without references to itself, a
record field by field, and a text that is one reference to what the reference leads to.
-/

namespace TwoStage

open Text Yaml

def Reference.ofNames (names : List String) : Reference := ⟨names.map String.toList⟩

lemma Reference.target?_ofNames (context : Tree) (names : List String) :
    (ofNames names).target? context = context.walk? names := by
  rw [target?, ofNames, List.map_map]
  congr 1
  simp

namespace Template

variable {follow : Follow} {context t t' : Tree}

/-! ### What trees resolve to -/

/-- The tree resolves to the other one from any place. -/
def Resolves (follow : Follow) (t t' : Tree) : Prop := ∀ path, resolveTree follow path t = .ok t'

/-- No string of the tree holds a reference. -/
abbrev Inert (t : Tree) : Prop := t.Holds fun s => ReferenceFree s.toList

mutual

lemma resolveTree_eq_self (path : String) (t : Tree) (h : Inert t) :
    resolveTree follow path t = .ok t := by
  match t with
  | .null | .bool _ | .number _ | .tagged _ _ => simp [resolveTree]
  | .text s =>
    rw [resolveTree]
    exact resolveText_eq_self_iff.2 (h s (by simp)) follow path
  | .sequence ts =>
    rw [resolveTree, resolveItems_eq_self path 0 ts fun t ht s hs =>
      h s (by simpa using ⟨t, ht, hs⟩)]
    rfl
  | .mapping es =>
    rw [resolveTree, resolveEntries_eq_self path es fun e he s hs =>
      h s (by rw [Tree.strings_mapping]; exact List.mem_flatMap.2 ⟨e, he, hs⟩)]
    rfl

lemma resolveItems_eq_self (path : String) (i : Nat) (ts : List Tree) (h : ∀ t ∈ ts, Inert t) :
    resolveItems follow path i ts = .ok ts := by
  match ts with
  | [] => simp [resolveItems]
  | t :: ts =>
    rw [List.forall_mem_cons] at h
    rw [resolveItems, resolveTree_eq_self _ t h.1, resolveItems_eq_self path (i + 1) ts h.2]
    rfl

lemma resolveEntries_eq_self (path : String) (es : List (Tree × Tree))
    (h : ∀ e ∈ es, Inert e.2) : resolveEntries follow path es = .ok es := by
  match es with
  | [] => simp [resolveEntries]
  | (k, v) :: es =>
    rw [List.forall_mem_cons] at h
    rw [resolveEntries, resolveTree_eq_self _ v h.1, resolveEntries_eq_self path es h.2]
    rfl

end

lemma Inert.resolves (h : Inert t) : Resolves follow t t := fun path => resolveTree_eq_self path t h

/-- A record resolves field by field. -/
lemma resolves_record {fields fields' : List (String × Tree)}
    (h : List.Forall₂ (fun f f' => f.1 = f'.1 ∧ Resolves follow f.2 f'.2) fields fields') :
    Resolves follow (.record fields) (.record fields') := by
  intro path
  suffices hentries : resolveEntries follow path (fields.map fun f => (.text f.1, f.2)) =
      .ok (fields'.map fun f => (.text f.1, f.2)) by
    change resolveTree follow path (.mapping (fields.map fun f => (.text f.1, f.2))) = _
    rw [resolveTree, hentries]
    rfl
  induction h with
  | nil => simp [resolveEntries]
  | cons hf _ ih =>
    rw [List.map_cons, resolveEntries, hf.2, ih, List.map_cons, hf.1]
    rfl

/-! ### References -/

/-- A text that is one reference stands for what the reference leads to. -/
lemma resolves_reference (names : List String) {s : String} {room : Nat} {chain : List String}
    (hs : piecesOf s = [.reference (.ofNames names)])
    (hchain : chain.contains (Reference.ofNames names).name = false)
    (hwalk : context.walk? names = some t)
    (ht : Resolves
      (Template.follow context room (chain ++ [(Reference.ofNames names).name])) t t') :
    Resolves (Template.follow context (room + 1) chain) (.text s) t' := by
  intro path
  have htarget : (Reference.ofNames names).target? context = some t :=
    (Reference.target?_ofNames context names).trans hwalk
  rw [resolveTree, resolveText, hs]
  change Template.follow context (room + 1) chain path _ = _
  unfold Template.follow
  rw [hchain, if_neg Bool.false_ne_true, htarget]
  exact ht _

def referencesIn (s : String) : Nat :=
  ((piecesOf s).filter fun
    | .reference _ => true
    | .plain _     => false).length

lemma referenceCount_eq (t : Tree) :
    referenceCount t = (t.strings.map referencesIn).foldr (· + ·) 0 := by
  rw [referenceCount, Tree.strings, List.map_map]
  rfl

end Template

end TwoStage
