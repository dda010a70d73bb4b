import TwoStage.Proofs.Template.Following
import TwoStage.Proofs.Yaml.Keyed

/-!
# The shape of what is unfolded

Unfolding the references of a tree keeps its keys: what stands under a path of keys stands unfolded
under the same path. A string that is more than one reference stays a string.
-/

namespace TwoStage

open Yaml

namespace Yaml.Tree

variable {path : List String} {t node : Tree}

lemma TextKeyed.of_walk? (h : t.TextKeyed) (hwalk : t.walk? path = some node) :
    node.TextKeyed := by
  refine walk?_induction ?_ ?_ hwalk h
  · intro ts hts u hu
    cases hts with
    | sequence items => exact items u hu
  · intro es hes e he
    cases hes with
    | mapping _ values => exact values e he

lemma Holds.of_walk? {P : String → Prop} (h : t.Holds P) (hwalk : t.walk? path = some node) :
    node.Holds P := by
  intro s hs
  exact h s (mem_strings_iff.2 (contains_of_walk? hwalk (mem_strings_iff.1 hs)))

lemma KeysHold.of_walk? {P : String → Prop} (h : t.KeysHold P) (hwalk : t.walk? path = some node) :
    node.KeysHold P := by
  refine walk?_induction ?_ ?_ hwalk h
  · intro ts hts u hu k hk
    apply hts k
    rw [keysWithin_sequence]
    exact List.mem_flatMap.2 ⟨u, hu, hk⟩
  · intro es hes e he k hk
    apply hes k
    rw [keysWithin_mapping]
    exact List.mem_flatMap.2 ⟨e, he, by simp [hk]⟩

end Yaml.Tree

namespace Template.Unfolds

variable {context t u v : Tree} {names : List String}

lemma exists_mem_zip_right {α β : Type} {as : List α} {bs : List β} (h : as.length = bs.length)
    {b : β} (hb : b ∈ bs) : ∃ a, (a, b) ∈ as.zip bs := by
  rw [← List.map_snd_zip h.ge, List.mem_map] at hb
  obtain ⟨⟨a, b'⟩, hmem, rfl⟩ := hb
  exact ⟨a, hmem⟩

/-- What is unfolded against a section with texts for keys has such keys as well. -/
lemma textKeyed (hcontext : context.TextKeyed) (h : Unfolds context t u) (ht : t.TextKeyed) :
    u.TextKeyed := by
  induction h with
  | null => exact .null
  | bool b => exact .bool b
  | number n => exact .number n
  | tagged => cases ht
  | whole _ target _ ih => exact ih (hcontext.of_walk? target)
  | parts => exact .text _
  | sequence length _ ih =>
    cases ht with
    | sequence items =>
      refine .sequence fun u hu => ?_
      obtain ⟨t, hmem⟩ := exists_mem_zip_right length hu
      exact ih _ hmem (items t (List.of_mem_zip hmem).1)
  | @mapping es us length _ ih =>
    cases ht with
    | mapping keys values =>
      have hvalues : (es.map Prod.snd).length = us.length := by simpa using length
      refine .mapping (fun e he => ?_) fun e he => ?_
      · obtain ⟨f, hf, heq⟩ := List.mem_map.1 (List.of_mem_zip he).1
        rw [← heq]
        exact keys f hf
      · obtain ⟨t, hmem⟩ := exists_mem_zip_right hvalues (List.of_mem_zip he).2
        obtain ⟨f, hf, rfl⟩ := List.mem_map.1 (List.of_mem_zip hmem).1
        exact ih (f.2, e.2) hmem (values f hf)

lemma exists_lookupText?_of_zip {R : Tree → Tree → Prop} {name : String} {es : List (Tree × Tree)}
    {us : List Tree} {w : Tree} (length : es.length = us.length)
    (hR : ∀ p ∈ (es.map Prod.snd).zip us, R p.1 p.2) (h : Tree.lookupText? name es = some w) :
    ∃ w', Tree.lookupText? name ((es.map Prod.fst).zip us) = some w' ∧ R w w' := by
  induction es generalizing us with
  | nil => simp [Tree.lookupText?] at h
  | cons e es ih =>
    obtain ⟨k, v⟩ := e
    obtain ⟨u, us, rfl⟩ := List.exists_cons_of_length_eq_add_one length.symm
    rw [List.map_cons, List.zip_cons_cons, List.forall_mem_cons] at hR
    rw [List.map_cons, List.zip_cons_cons]
    by_cases hk : k = .text name
    · subst hk
      rw [Tree.lookupText?_cons_self] at h ⊢
      obtain rfl := Option.some.inj h
      exact ⟨u, rfl, hR.1⟩
    · rw [Tree.lookupText?_cons_of_ne hk] at h ⊢
      exact ih (by simpa using length) hR.2 h

/-- What stands under a path of keys stands there unfolded. -/
lemma exists_has (h : Unfolds context t u) (hv : t.Has names v) :
    ∃ v', u.Has names v' ∧ Unfolds context v v' := by
  induction hv generalizing u with
  | here t => exact ⟨u, .here u, h⟩
  | under lookup _ ih =>
    cases h with
    | mapping length hzip =>
      obtain ⟨w', hlookup, hw⟩ := exists_lookupText?_of_zip length hzip lookup
      obtain ⟨v', hv', h⟩ := ih hw
      exact ⟨v', .under hlookup hv', h⟩

/-- A string that is more than one reference stays a string. -/
lemma exists_eq_text {s : String} (h : Unfolds context (.text s) u)
    (hs : ∀ r, piecesOf s ≠ [.reference r]) : ∃ s', u = .text s' := by
  cases h with
  | whole hwhole => exact absurd hwhole (hs _)
  | parts => exact ⟨_, rfl⟩

lemma exists_textFields_of_zip {fields : List (String × Tree)} {us : List Tree}
    (length : fields.length = us.length)
    (h : ∀ p ∈ (fields.map Prod.snd).zip us, Unfolds context p.1 p.2)
    (htext : ∀ f ∈ fields, ∀ v, Unfolds context f.2 v → ∃ s, v = .text s) :
    ∃ fields' : List (String × String), fields'.map Prod.fst = fields.map Prod.fst ∧
      (fields.map fun f => Tree.text f.1).zip us =
        fields'.map fun (name, s) => (.text name, .text s) := by
  induction fields generalizing us with
  | nil => exact ⟨[], rfl, rfl⟩
  | cons f fields ih =>
    obtain ⟨v, us, rfl⟩ := List.exists_cons_of_length_eq_add_one length.symm
    rw [List.map_cons, List.zip_cons_cons, List.forall_mem_cons] at h
    rw [List.forall_mem_cons] at htext
    obtain ⟨s, rfl⟩ := htext.1 v h.1
    obtain ⟨fields', hnames, heq⟩ := ih (by simpa using length) h.2 htext.2
    exact ⟨(f.1, s) :: fields', by simp [hnames], by simp [heq]⟩

/-- A record whose values unfold to texts unfolds to a record of texts with the same names. -/
lemma exists_textFields {fields : List (String × Tree)} (h : Unfolds context (.record fields) u)
    (htext : ∀ f ∈ fields, ∀ v, Unfolds context f.2 v → ∃ s, v = .text s) :
    ∃ fields' : List (String × String), fields'.map Prod.fst = fields.map Prod.fst ∧
      u = .record (fields'.map fun (name, s) => (name, .text s)) := by
  cases h with
  | mapping length h =>
    simp only [List.map_map, Function.comp_def] at h ⊢
    obtain ⟨fields', hnames, heq⟩ := exists_textFields_of_zip (by simpa using length) h htext
    refine ⟨fields', hnames, ?_⟩
    rw [heq, Tree.record, List.map_map]
    rfl

end Template.Unfolds

/-- A template that resolves gives what it unfolds to. -/
lemma Template.unfolds_of_resolve {context t u : Yaml.Tree} (h : resolve context t = .ok u) :
    Unfolds context t u :=
  unfolds_of_resolveTree "" t (fun _ _ _ _ hv => (isFollowing_follow context).unfolds hv) h

end TwoStage
