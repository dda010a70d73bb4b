import TwoStage.Proofs.Yaml.Overlay
import TwoStage.Proofs.Yaml.Plain

/-!
# The keys of a document

No mapping of a document that is read has a key twice, so such trees can be laid over each other
path by path.
-/

namespace TwoStage.Yaml

open TwoStage.Yaml.Tree

/-! ### Scalars -/

lemma keysDiffer_of_integer? {cs : List Char} {t : Tree}
    (h : Meaning.integer? cs = some (.value t)) : t.KeysDiffer := by
  unfold Meaning.integer? at h
  split at h
  · split at h
    · cases h
      simp [Tree.int, KeysDiffer]
    · split at h <;> simp at h
  · split at h
    · cases h
      simp [Tree.int, KeysDiffer]
    · split at h <;> simp at h
  · simp at h

lemma keysDiffer_of_ofPlain {cs : List Char} {t : Tree} (h : Meaning.ofPlain cs = .value t) :
    t.KeysDiffer := by
  unfold Meaning.ofPlain at h
  split at h
  next =>
    cases h
    simp [KeysDiffer]
  next =>
    split at h
    next =>
      cases h
      simp [KeysDiffer]
    next =>
      split at h
      next hinteger => exact keysDiffer_of_integer? (h ▸ hinteger)
      next =>
        split at h <;> cases h <;> simp [KeysDiffer]

lemma keysDiffer_of_ofStandard? {kind : Node.Standard} {cs : List Char} {t : Tree}
    (h : Node.ofStandard? kind cs = some t) : t.KeysDiffer := by
  cases kind with
  | bool =>
    obtain ⟨b, -, rfl⟩ := Option.map_eq_some_iff.1 h
    simp [KeysDiffer]
  | float =>
    obtain ⟨x, -, rfl⟩ := Option.map_eq_some_iff.1 h
    simp [KeysDiffer]
  | null =>
    rw [Node.ofStandard?] at h
    split at h <;> simp at h
    simp [← h, KeysDiffer]
  | int =>
    rw [Node.ofStandard?] at h
    split at h
    next hinteger => exact keysDiffer_of_integer? (Option.some.inj h ▸ hinteger)
    next => simp at h

lemma keysDiffer_of_plainTree? {cs : List Char} {plain : Bool} {t : Tree}
    (h : Node.plainTree? cs plain = some t) : t.KeysDiffer := by
  rw [Node.plainTree?] at h
  split at h
  · split at h
    next hplain => exact keysDiffer_of_ofPlain (Option.some.inj h ▸ hplain)
    next => simp at h
  · simp [← Option.some.inj h, KeysDiffer]

lemma keysDiffer_of_scalarTree? {p : Properties} {cs : List Char} {plain : Bool} {t : Tree}
    (h : Node.scalarTree? p cs plain = some t) : t.KeysDiffer := by
  rw [Node.scalarTree?] at h
  split at h
  next =>
    obtain ⟨t, ht, rfl⟩ := Option.map_eq_some_iff.1 h
    rw [KeysDiffer]
    exact keysDiffer_of_plainTree? ht
  next => exact keysDiffer_of_plainTree? h
  next =>
    split at h
    next => exact keysDiffer_of_ofStandard? h
    next => exact keysDiffer_of_plainTree? h

namespace Node

/-! ### Readings -/

variable {α β : Type} {P : α → Prop} {Q : β → Prop}

/-- Whatever the reading gives has the property. -/
def Gives (P : α → Prop) (reading : Reading α) : Prop :=
  ∀ n a m, reading.run n = .ok (a, m) → P a

lemma gives_pure {a : α} (h : P a) : Gives P (pure a) := by
  rintro n b m heq
  obtain ⟨rfl, -⟩ := Prod.mk.inj (Except.ok.inj heq)
  exact h

lemma gives_throw {e : ReadError} : Gives P (throw e) := by
  rintro n a m heq
  cases heq

lemma Gives.bind {reading : Reading α} {f : α → Reading β} (h : Gives P reading)
    (hf : ∀ a, P a → Gives Q (f a)) : Gives Q (reading >>= f) := by
  intro n b m heq
  rw [StateT.run_bind] at heq
  obtain ⟨⟨a, n'⟩, ha, hb⟩ := Outcome.bind_eq_ok_iff.1 heq
  exact hf a (h n a n' ha) n' b m hb

lemma gives_trivial (reading : Reading α) : Gives (fun _ => True) reading := fun _ _ _ _ => trivial

lemma gives_mapM {f : α → Reading β} (h : ∀ a, Gives Q (f a)) (as : List α) :
    Gives (fun bs => ∀ b ∈ bs, Q b) (as.mapM f) := by
  induction as with
  | nil => exact gives_pure (by simp)
  | cons a as ih =>
    rw [List.mapM_cons]
    exact (h a).bind fun b hb => ih.bind fun bs hbs =>
      gives_pure (List.forall_mem_cons.2 ⟨hb, hbs⟩)

/-! ### Collections -/

lemma keysDiffer_tagWith (p : Properties) {t : Tree} (h : t.KeysDiffer) :
    (tagWith p t).KeysDiffer := by
  rw [tagWith]
  split
  · rwa [KeysDiffer]
  · exact h

/-- A key that is there already ends the reading. -/
lemma gives_entryTrees {reading : Node → Reading Tree} (h : ∀ n, Gives KeysDiffer (reading n))
    (es : List (Node × Node)) {acc : List (Tree × Tree)}
    (hacc : (Tree.mapping acc.reverse).KeysDiffer) :
    Gives (fun es => (Tree.mapping es).KeysDiffer) (entryTrees reading es acc) := by
  induction es generalizing acc with
  | nil => exact gives_pure hacc
  | cons e es ih =>
    obtain ⟨k, v⟩ := e
    refine (h k).bind fun key hkey => ?_
    split
    next => exact Gives.bind gives_throw fun _ => False.elim
    next hnew =>
      refine (h v).bind fun value hvalue => ih ?_
      obtain ⟨hapart, hdiffer⟩ := keysDiffer_mapping.1 hacc
      have hfresh : ∀ e ∈ acc, e.1.same key = false :=
        lookup?_eq_none_iff.1 (Option.not_isSome_iff_eq_none.1 hnew)
      rw [List.reverse_cons, keysDiffer_mapping]
      refine ⟨List.pairwise_append.2 ⟨hapart, List.pairwise_singleton _ _, ?_⟩, ?_⟩
      · intro e he f hf
        obtain rfl := List.mem_singleton.1 hf
        exact hfresh e (List.mem_reverse.1 he)
      · intro e he
        rcases List.mem_append.1 he with he | he
        · exact hdiffer e he
        · obtain rfl := List.mem_singleton.1 he
          exact ⟨hkey, hvalue⟩

/-- An alias is followed once: it does not lead to another one. -/
lemma tree_alias (scope : Scope) (depth n : Nat) :
    tree scope depth (.alias n) = followAlias scope >>= fun _ =>
      match scope.target? n with
      | none            => throw .malformed
      | some (.alias _) => throw .malformed
      | some target     => tree scope depth target := by
  delta tree
  cases depth <;> change (followAlias scope >>= _) = _ <;> congr 1 <;> funext _
  all_goals
    cases scope.target? n with
    | none => rfl
    | some target => cases target <;> rfl

/-- What all nodes but aliases give, aliases give too. -/
lemma gives_tree_of_ne_alias {scope : Scope} {depth : Nat}
    (h : ∀ n, (∀ m, n ≠ .alias m) → Gives KeysDiffer (tree scope depth n)) (n : Node) :
    Gives KeysDiffer (tree scope depth n) := by
  by_cases halias : ∃ m, n = .alias m
  · obtain ⟨m, rfl⟩ := halias
    rw [tree_alias]
    refine (gives_trivial _).bind fun _ _ => ?_
    split
    next => exact gives_throw
    next => exact gives_throw
    next target htarget _ => exact h target fun m hm => htarget m (hm ▸ rfl)
  · exact h n (not_exists.1 halias)

lemma gives_tree_scalar (scope : Scope) (depth : Nat) (p : Properties) (cs : List Char)
    (plain : Bool) : Gives KeysDiffer (tree scope depth (.scalar p cs plain)) := by
  rw [tree_scalar]
  split
  next h => exact gives_pure (keysDiffer_of_scalarTree? h)
  next => exact gives_throw

lemma gives_tree (scope : Scope) (depth : Nat) (n : Node) :
    Gives KeysDiffer (tree scope depth n) := by
  induction depth generalizing n with
  | zero =>
    refine gives_tree_of_ne_alias (fun n hn => ?_) n
    cases n with
    | «alias» m => exact absurd rfl (hn m)
    | scalar p cs plain => exact gives_tree_scalar scope 0 p cs plain
    | sequence | mapping =>
      delta tree
      exact gives_throw
  | succ depth ih =>
    refine gives_tree_of_ne_alias (fun n hn => ?_) n
    cases n with
    | «alias» m => exact absurd rfl (hn m)
    | scalar p cs plain => exact gives_tree_scalar scope (depth + 1) p cs plain
    | sequence p items =>
      rw [tree_sequence]
      exact (gives_mapM ih items).bind fun ts hts =>
        gives_pure (keysDiffer_tagWith p (keysDiffer_sequence.2 hts))
    | mapping p entries =>
      rw [tree_mapping]
      refine (gives_entryTrees ih entries ?_).bind fun es hes =>
        gives_pure (keysDiffer_tagWith p hes)
      exact keysDiffer_mapping.2 ⟨List.Pairwise.nil, by simp⟩

end Node

/-- No mapping of a document has a key twice. -/
theorem keysDiffer_of_read {text : String} {t : Tree} (h : read text = .ok t) : t.KeysDiffer := by
  unfold read at h
  split at h
  next => simp at h
  next => simp [← Except.ok.inj h, KeysDiffer]
  next =>
    dsimp only at h
    split at h
    next => simp at h
    next hrun =>
      split at h
      next => exact Except.ok.inj h ▸ Node.gives_tree _ _ _ _ _ _ hrun
      next => simp at h

end TwoStage.Yaml
