import TwoStage.Proofs.Marker.Settled
import TwoStage.Proofs.Outcome

/-!
# The strings of a tree

The texts that a tree holds as values, without their places. Every string of a tree that has come
through the config round is settled.
-/

namespace TwoStage

namespace Yaml.Tree

/-! ### Listing -/

mutual

/-- The place from which a tree is listed shows in the places of its texts only. -/
lemma map_snd_textsAt (p q : String) (t : Tree) :
    (t.textsAt p).map Prod.snd = (t.textsAt q).map Prod.snd := by
  match t with
  | .null | .bool _ | .number _ => simp [textsAt]
  | .text s => simp [textsAt]
  | .sequence ts => exact map_snd_itemTextsAt p q 0 0 ts
  | .mapping es => exact map_snd_entryTextsAt p q es
  | .tagged _ v =>
    rw [textsAt, textsAt]
    exact map_snd_textsAt p q v

lemma map_snd_itemTextsAt (p q : String) (i j : Nat) (ts : List Tree) :
    (itemTextsAt p i ts).map Prod.snd = (itemTextsAt q j ts).map Prod.snd := by
  match ts with
  | [] => simp [itemTextsAt]
  | t :: ts =>
    simp only [itemTextsAt, List.map_append]
    rw [map_snd_textsAt _ (FieldPath.item q j) t, map_snd_itemTextsAt p q (i + 1) (j + 1) ts]

lemma map_snd_entryTextsAt (p q : String) (es : List (Tree × Tree)) :
    (entryTextsAt p es).map Prod.snd = (entryTextsAt q es).map Prod.snd := by
  match es with
  | [] => simp [entryTextsAt]
  | (k, v) :: es =>
    simp only [entryTextsAt, List.map_append]
    rw [map_snd_textsAt _ (FieldPath.child q (FieldPath.label k)) v, map_snd_entryTextsAt p q es]

end

def strings (t : Tree) : List String := t.textsOf.map Prod.snd

@[simp] lemma strings_text (s : String) : (text s).strings = [s] := by
  simp [strings, textsOf, textsAt]

@[simp] lemma strings_tagged (tag : String) (t : Tree) : (tagged tag t).strings = t.strings := by
  simp [strings, textsOf, textsAt]

@[simp] lemma strings_null : null.strings = [] := by simp [strings, textsOf, textsAt]

@[simp] lemma strings_bool (b : Bool) : (bool b).strings = [] := by simp [strings, textsOf, textsAt]

@[simp] lemma strings_number (n : Number) : (number n).strings = [] := by
  simp [strings, textsOf, textsAt]

@[simp] lemma strings_sequence (ts : List Tree) :
    (sequence ts).strings = ts.flatMap strings := by
  simp only [strings, textsOf, textsAt]
  generalize 0 = i
  induction ts generalizing i with
  | nil => simp [itemTextsAt]
  | cons t ts ih =>
    simp only [itemTextsAt, List.map_append, List.flatMap_cons]
    rw [ih, map_snd_textsAt _ "" t]
    rfl

@[simp] lemma strings_mapping (es : List (Tree × Tree)) :
    (mapping es).strings = es.flatMap fun e => e.2.strings := by
  simp only [strings, textsOf, textsAt]
  induction es with
  | nil => simp [entryTextsAt]
  | cons e es ih =>
    simp only [entryTextsAt, List.map_append, List.flatMap_cons]
    rw [ih, map_snd_textsAt _ "" e.2]

@[simp] lemma strings_untagged (t : Tree) : t.untagged.strings = t.strings := by
  fun_induction untagged t with
  | case1 _ v ih => simpa using ih
  | case2 => rfl

def Holds (P : String → Prop) (t : Tree) : Prop := ∀ s ∈ t.strings, P s

end Yaml.Tree

/-! ### After the config round -/

open Yaml

namespace Resolution

/-- A text passes the last step of the config round exactly if it is settled. -/
lemma refuseLeftover_eq_ok_iff {path s : String} :
    refuseLeftover path s = .ok () ↔ Settled s.toList := by
  rw [refuseLeftover, Outcome.bind_eq_ok_iff]
  constructor
  · rintro ⟨found, hfound, hleft⟩
    cases found with
    | some name => simp at hleft
    | none => exact .of_firstConfigMarker? (Outcome.mapError_eq_ok_iff.1 hfound)
  · exact fun h => ⟨none, Outcome.mapError_eq_ok_iff.2 h.firstConfigMarker?_eq, rfl⟩

lemma refuseLeftovers_eq_ok_iff {t : Tree} :
    refuseLeftovers t = .ok () ↔ t.Holds fun s => Settled s.toList := by
  rw [refuseLeftovers, Outcome.forM_eq_ok_iff, Tree.Holds, Tree.strings, List.forall_mem_map]
  simp only [refuseLeftover_eq_ok_iff]

/-- What the config round gives: the substituted tree, if its strings are settled. -/
lemma resolve_eq_ok_iff {vars : String → Option String} {t t' : Tree} :
    resolve vars t = .ok t' ↔
      substituteAll vars t = .ok t' ∧ t'.Holds fun s => Settled s.toList := by
  rw [resolve, Outcome.bind_eq_ok_iff]
  constructor
  · rintro ⟨u, hu, h⟩
    obtain ⟨⟨⟩, hrefuse, h⟩ := Outcome.bind_eq_ok_iff.1 h
    obtain rfl := Outcome.pure_eq_ok_iff.1 h
    exact ⟨hu, refuseLeftovers_eq_ok_iff.1 hrefuse⟩
  · rintro ⟨hu, hsettled⟩
    exact ⟨t', hu, Outcome.bind_eq_ok_iff.2 ⟨(), refuseLeftovers_eq_ok_iff.2 hsettled, rfl⟩⟩

/-- The config round leaves nothing but settled strings. -/
lemma holds_settled_of_resolve {vars : String → Option String} {t t' : Tree}
    (h : resolve vars t = .ok t') : t'.Holds fun s => Settled s.toList :=
  (resolve_eq_ok_iff.1 h).2

end Resolution

end TwoStage
