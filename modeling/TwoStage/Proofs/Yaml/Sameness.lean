import Mathlib.Data.List.Forall2
import Mathlib.Tactic.Common
import TwoStage.Yaml.Tree

/-!
# Trees that are the same as keys

Two keys of a mapping are the same when they are equal as values, whatever the order of the mappings
inside them. Among trees whose mappings do not have a key twice, this is an equivalence, so that a
key finds the same value as any key that is the same.
-/

namespace TwoStage.Yaml

/-! ### Numbers -/

lemma Number.same_refl (n : Number) : n.same n = true := by
  cases n <;> simp [Number.same, Decimal.Binary64.same]

lemma Number.same_symm {m n : Number} (h : m.same n = true) : n.same m = true := by
  cases m with
  | int m => cases n <;> simp_all [Number.same]
  | float x =>
    cases n with
    | int n => simp [Number.same] at h
    | float y =>
      simp only [Number.same, Decimal.Binary64.same, Bool.or_eq_true, beq_iff_eq,
        Bool.and_eq_true] at h ⊢
      exact h.imp Eq.symm And.symm

lemma Number.same_trans {l m n : Number} (h : l.same m = true) (h' : m.same n = true) :
    l.same n = true := by
  cases m with
  | int m => cases l <;> cases n <;> simp_all [Number.same]
  | float y =>
    cases l with
    | int l => simp [Number.same] at h
    | float x =>
      cases n with
      | int n => simp [Number.same] at h'
      | float z =>
        simp only [Number.same, Decimal.Binary64.same, Bool.or_eq_true, beq_iff_eq,
          Bool.and_eq_true] at h h' ⊢
        rcases h with rfl | ⟨hx, hy⟩
        · exact h'
        · rcases h' with rfl | ⟨-, hz⟩
          · exact .inr ⟨hx, hy⟩
          · exact .inr ⟨hx, hz⟩

namespace Tree

/-! ### Induction over trees -/

/-- What holds of a tree if it holds of its items, or of the keys and values of its entries, holds
of every tree. -/
@[elab_as_elim]
lemma induction {P : Tree → Prop} (null : P .null) (bool : ∀ b, P (.bool b))
    (number : ∀ n, P (.number n)) (text : ∀ s, P (.text s))
    (sequence : ∀ ts, (∀ t ∈ ts, P t) → P (.sequence ts))
    (mapping : ∀ es, (∀ e ∈ es, P e.1 ∧ P e.2) → P (.mapping es))
    (tagged : ∀ tag t, P t → P (.tagged tag t)) (t : Tree) : P t :=
  @Tree.rec P (fun ts => ∀ t ∈ ts, P t) (fun es => ∀ e ∈ es, P e.1 ∧ P e.2)
    (fun e => P e.1 ∧ P e.2) null bool number text sequence mapping tagged
    (by simp) (fun _ _ ht hts => List.forall_mem_cons.2 ⟨ht, hts⟩)
    (by simp) (fun _ _ he hes => List.forall_mem_cons.2 ⟨he, hes⟩)
    (fun _ _ hk hv => ⟨hk, hv⟩) t

/-! ### Equality as values -/

lemma sameItems_iff {ts us : List Tree} :
    sameItems ts us = true ↔ List.Forall₂ (fun t u => t.same u = true) ts us := by
  induction ts generalizing us with
  | nil => cases us <;> simp [sameItems]
  | cons t ts ih => cases us <;> simp [sameItems, ih]

/-- The entry is the same as the other one, in its key and its value. -/
def SameEntry (e f : Tree × Tree) : Prop := e.1.same f.1 = true ∧ e.2.same f.2 = true

lemma entriesWithin_iff {es fs : List (Tree × Tree)} :
    entriesWithin es fs = true ↔ ∀ e ∈ es, ∃ f ∈ fs, SameEntry e f := by
  induction es with
  | nil => simp [entriesWithin]
  | cons e es ih => simp [entriesWithin, ih, SameEntry]

lemma same_sequence {ts us : List Tree} : (sequence ts).same (sequence us) = true ↔
    List.Forall₂ (fun t u => t.same u = true) ts us := by
  rw [same, sameItems_iff]

lemma same_mapping {es fs : List (Tree × Tree)} : (mapping es).same (mapping fs) = true ↔
    es.length = fs.length ∧ ∀ e ∈ es, ∃ f ∈ fs, SameEntry e f := by
  rw [same, Bool.and_eq_true, beq_iff_eq, entriesWithin_iff]

lemma same_refl (t : Tree) : t.same t = true := by
  induction t using Tree.induction with
  | null => rfl
  | bool b => simp [same]
  | number n => simp [same, n.same_refl]
  | text s => simp [same]
  | sequence ts ih => exact same_sequence.2 (List.forall₂_same.2 ih)
  | mapping es ih => exact same_mapping.2 ⟨rfl, fun e he => ⟨e, he, ih e he⟩⟩
  | tagged tag t ih => simp [same, ih]

lemma same_trans {t u v : Tree} (h : t.same u = true) (h' : u.same v = true) :
    t.same v = true := by
  induction t using Tree.induction generalizing u v with
  | null => cases u <;> simp_all [same]
  | bool b => cases u <;> cases v <;> simp_all [same]
  | number n =>
    cases u <;> cases v <;> simp only [same, Bool.false_eq_true] at h h' ⊢
    exact Number.same_trans h h'
  | text s => cases u <;> cases v <;> simp_all [same]
  | sequence ts ih =>
    cases u <;> cases v <;> simp only [same, Bool.false_eq_true, sameItems_iff] at h h' ⊢
    next us vs =>
      induction h generalizing vs with
      | nil => exact h'
      | cons ht _ hts =>
        rw [List.forall_mem_cons] at ih
        cases h' with
        | cons hu hus => exact .cons (ih.1 ht hu) (hts ih.2 _ hus)
  | mapping es ih =>
    cases u <;> cases v <;> simp only [same, Bool.false_eq_true, Bool.and_eq_true, beq_iff_eq,
      entriesWithin_iff] at h h' ⊢
    next fs gs =>
      refine ⟨h.1.trans h'.1, fun e he => ?_⟩
      -- the partner of an entry's partner is a partner of the entry
      obtain ⟨f, hf, hef⟩ := h.2 e he
      obtain ⟨g, hg, hfg⟩ := h'.2 f hf
      exact ⟨g, hg, (ih e he).1 hef.1 hfg.1, (ih e he).2 hef.2 hfg.2⟩
  | tagged tag t ih =>
    cases u <;> cases v <;> simp only [same, Bool.false_eq_true, Bool.and_eq_true, beq_iff_eq]
      at h h' ⊢
    exact ⟨h.1.trans h'.1, ih h.2 h'.2⟩

/-! ### Keys that differ -/

def ApartKeys (es : List (Tree × Tree)) : Prop := es.Pairwise fun e f => e.1.same f.1 = false

mutual

/-- No mapping in the tree, be it within a key, has a key twice. -/
def KeysDiffer : Tree → Prop
  | .sequence ts => ItemKeysDiffer ts
  | .mapping es  => ApartKeys es ∧ EntryKeysDiffer es
  | .tagged _ t  => t.KeysDiffer
  | _            => True

def ItemKeysDiffer : List Tree → Prop
  | []      => True
  | t :: ts => t.KeysDiffer ∧ ItemKeysDiffer ts

def EntryKeysDiffer : List (Tree × Tree) → Prop
  | []           => True
  | (k, v) :: es => k.KeysDiffer ∧ v.KeysDiffer ∧ EntryKeysDiffer es

end

lemma keysDiffer_sequence {ts : List Tree} :
    (sequence ts).KeysDiffer ↔ ∀ t ∈ ts, t.KeysDiffer := by
  rw [KeysDiffer]
  induction ts with
  | nil => simp [ItemKeysDiffer]
  | cons t ts ih => rw [ItemKeysDiffer, ih, List.forall_mem_cons]

lemma keysDiffer_mapping {es : List (Tree × Tree)} :
    (mapping es).KeysDiffer ↔
      ApartKeys es ∧ ∀ e ∈ es, e.1.KeysDiffer ∧ e.2.KeysDiffer := by
  rw [KeysDiffer]
  refine and_congr_right' ?_
  induction es with
  | nil => simp [EntryKeysDiffer]
  | cons e es ih => rw [EntryKeysDiffer, ih, List.forall_mem_cons, and_assoc]

/-- When as many things as there are partners have partners that they do not share, each partner has
one of them. -/
lemma exists_of_partners {α β : Type} {R : α → β → Prop} {as : List α} {bs : List β}
    (hlength : as.length = bs.length) (h : ∀ a ∈ as, ∃ b ∈ bs, R a b)
    (hapart : as.Pairwise fun a a' => ∀ b, R a b → ¬ R a' b) : ∀ b ∈ bs, ∃ a ∈ as, R a b := by
  induction as generalizing bs with
  | nil => simp [List.length_eq_zero_iff.1 hlength.symm]
  | cons a as ih =>
    rw [List.forall_mem_cons] at h
    rw [List.pairwise_cons] at hapart
    obtain ⟨⟨b, hb, hab⟩, h⟩ := h
    obtain ⟨front, back, rfl⟩ := List.append_of_mem hb
    have hrest : ∀ a' ∈ as, ∃ b' ∈ front ++ back, R a' b' := by
      intro a' ha'
      obtain ⟨b', hb', hab'⟩ := h a' ha'
      refine ⟨b', ?_, hab'⟩
      have hne : b' ≠ b := fun heq => hapart.1 a' ha' b hab (heq ▸ hab')
      simpa [hne] using hb'
    have hfewer : as.length = (front ++ back).length := by
      simp only [List.length_append, List.length_cons] at hlength ⊢
      omega
    have hothers := ih hfewer hrest hapart.2
    intro b' hb'
    by_cases heq : b' = b
    · exact ⟨a, List.mem_cons_self, heq ▸ hab⟩
    · obtain ⟨a', ha', hab'⟩ := hothers b' (by simpa [heq] using hb')
      exact ⟨a', List.mem_cons_of_mem _ ha', hab'⟩

lemma same_symm {t u : Tree} (ht : t.KeysDiffer) (h : t.same u = true) : u.same t = true := by
  induction t using Tree.induction generalizing u with
  | null => cases u <;> simp_all [same]
  | bool b => cases u <;> simp_all [same]
  | number n =>
    cases u <;> simp only [same, Bool.false_eq_true] at h ⊢
    exact Number.same_symm h
  | text s => cases u <;> simp_all [same]
  | sequence ts ih =>
    cases u <;> simp only [same, Bool.false_eq_true, sameItems_iff] at h ⊢
    rw [keysDiffer_sequence] at ht
    induction h with
    | nil => exact .nil
    | cons htu _ hts =>
      rw [List.forall_mem_cons] at ih ht
      exact .cons (ih.1 ht.1 htu) (hts ih.2 ht.2)
  | mapping es ih =>
    cases u <;> simp only [same, Bool.false_eq_true, Bool.and_eq_true, beq_iff_eq,
      entriesWithin_iff] at h ⊢
    next fs =>
      rw [keysDiffer_mapping] at ht
      refine ⟨h.1.symm, ?_⟩
      -- Two entries with one partner would have the same key.
      have hpartners := exists_of_partners h.1 h.2 <|
        ht.1.imp_of_mem fun {e e'} _ he' hne f hf hf' => by
          have hkeys := same_trans hf.1 ((ih e' he').1 (ht.2 e' he').1 hf'.1)
          simp [hne] at hkeys
      intro f hf
      obtain ⟨e, he, hef⟩ := hpartners f hf
      exact ⟨e, he, (ih e he).1 (ht.2 e he).1 hef.1, (ih e he).2 (ht.2 e he).2 hef.2⟩
  | tagged tag t ih =>
    cases u <;> simp only [same, Bool.false_eq_true, Bool.and_eq_true, beq_iff_eq] at h ⊢
    exact ⟨h.1.symm, ih ht h.2⟩

end Tree

end TwoStage.Yaml
