import TwoStage.Proofs.Yaml.Keyed
import TwoStage.Yaml.Reader

/-!
# Nodes without properties

The trees of nodes that have neither anchors nor tags: quoted scalars are texts, words have their
meaning, and a mapping whose keys are different words for texts is a record.
-/

namespace TwoStage.Yaml.Node

def bare : Properties := ⟨none, none⟩

def word (s : String) : Node := .scalar bare s.toList true

/-- The word stands for itself. -/
def IsTextWord (s : String) : Prop := Meaning.ofPlain s.toList = .value (.text s)

variable {scope : Scope} {depth : Nat}

lemma tree_scalar (p : Properties) (cs : List Char) (plain : Bool) :
    tree scope depth (.scalar p cs plain) =
      match scalarTree? p cs plain with
      | some t => pure t
      | none   => throw .malformed := by
  delta tree
  cases depth <;> rfl

lemma tree_mapping (p : Properties) (entries : List (Node × Node)) :
    tree scope (depth + 1) (.mapping p entries) = (do
      let trees ← entryTrees (tree scope depth) entries []
      pure (tagWith p (.mapping trees))) := by
  delta tree
  rfl

lemma tree_sequence (p : Properties) (items : List Node) :
    tree scope (depth + 1) (.sequence p items) = (do
      let trees ← items.mapM (tree scope depth)
      pure (tagWith p (.sequence trees))) := by
  delta tree
  rfl

lemma tree_word {s : String} (h : IsTextWord s) : tree scope depth (word s) = pure (.text s) := by
  have hplain : scalarTree? bare s.toList true = some (.text s) := by
    unfold IsTextWord at h
    simp [scalarTree?, ownTag?, bare, plainTree?, h]
  rw [word, tree_scalar, hplain]

lemma tree_quoted (s : String) :
    tree scope depth (.scalar bare s.toList false) = pure (.text s) := by
  have hquoted : scalarTree? bare s.toList false = some (.text s) := by
    simp [scalarTree?, ownTag?, bare, plainTree?]
  rw [tree_scalar, hquoted]

/-- Entries with different words for keys are read one by one. -/
lemma entryTrees_words {reading : Node → Reading Tree} {fields : List (String × Node × Tree)}
    (hkey : ∀ f ∈ fields, reading (word f.1) = pure (.text f.1))
    (hvalue : ∀ f ∈ fields, reading f.2.1 = pure f.2.2) (hnodup : (fields.map Prod.fst).Nodup)
    {acc : List (Tree × Tree)} (hacc : ∀ f ∈ fields, Tree.lookup? (.text f.1) acc = none) :
    entryTrees reading (fields.map fun f => (word f.1, f.2.1)) acc =
      pure (acc.reverse ++ fields.map fun f => (.text f.1, f.2.2)) := by
  induction fields generalizing acc with
  | nil => simp [entryTrees]
  | cons f fields ih =>
    rw [List.forall_mem_cons] at hkey hvalue hacc
    rw [List.map_cons, List.nodup_cons] at hnodup
    have hrest : ∀ g ∈ fields, Tree.lookup? (.text g.1) ((.text f.1, f.2.2) :: acc) = none := by
      intro g hg
      have hne : f.1 ≠ g.1 := fun heq => hnodup.1 (heq ▸ List.mem_map_of_mem hg)
      simp [Tree.lookup?, Tree.same, hne, hacc.2 g hg]
    simp [entryTrees, hkey.1, hvalue.1, hacc.1, ih hkey.2 hvalue.2 hnodup.2 hrest]

/-- A mapping of words to nodes, and the record that it is read as. -/
def recordOf (fields : List (String × Node × Tree)) : Node × Tree :=
  (.mapping bare (fields.map fun f => (word f.1, f.2.1)),
    .record (fields.map fun f => (f.1, f.2.2)))

lemma tree_recordOf {fields : List (String × Node × Tree)} (hkey : ∀ f ∈ fields, IsTextWord f.1)
    (hnodup : (fields.map Prod.fst).Nodup)
    (hvalue : ∀ f ∈ fields, tree scope depth f.2.1 = pure f.2.2) :
    tree scope (depth + 1) (recordOf fields).1 = pure (recordOf fields).2 := by
  rw [recordOf, tree_mapping, entryTrees_words (fun f hf => tree_word (hkey f hf)) hvalue hnodup
    (fun _ _ => rfl)]
  simp [tagWith, ownTag?, bare, Tree.record, Function.comp_def]

lemma tree_nil : tree scope (depth + 1) (.sequence bare []) = pure (.sequence []) := by
  rw [tree_sequence]
  rfl

end TwoStage.Yaml.Node
