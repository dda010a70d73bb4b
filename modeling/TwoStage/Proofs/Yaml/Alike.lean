import TwoStage.Proofs.Yaml.Decode

/-!
# Decoding alike

Two runs go alike when both fail, whatever the errors are, or both succeed with related results.
Decoders go alike on two trees that differ at one place, if what reads that place does: everything
around it is read alike, provided that a field which is read into related values gives related ones.
-/

namespace TwoStage

/-! ### Runs -/

/-- Both runs fail, or both succeed with related results. -/
def Alike {ε α β : Type} (R : α → β → Prop) (x : Except ε α) (y : Except ε β) : Prop :=
  Option.Rel R x.toOption y.toOption

namespace Alike

variable {ε α β α' β' : Type} {R : α → β → Prop} {S : α' → β' → Prop}

lemma ok {a : α} {b : β} (h : R a b) : Alike (ε := ε) R (.ok a) (.ok b) := .some h

lemma error {e e' : ε} : Alike R (.error e) (.error e') := .none

lemma of_toOption_eq {R : α → α → Prop} {x y : Except ε α} (h : x.toOption = y.toOption)
    (hR : ∀ a, R a a) : Alike R x y := by
  rw [Alike, h]
  cases y with
  | error e => exact .none
  | ok a => exact .some (hR a)

lemma refl {R : α → α → Prop} (hR : ∀ a, R a a) (x : Except ε α) : Alike R x x :=
  of_toOption_eq rfl hR

lemma mono {R' : α → β → Prop} {x : Except ε α} {y : Except ε β} (h : Alike R x y)
    (hR : ∀ a b, R a b → R' a b) : Alike R' x y := by
  cases x <;> cases y <;> cases h
  · exact .error
  · exact .ok (hR _ _ ‹_›)

lemma bind {x : Except ε α} {y : Except ε β} {f : α → Except ε α'} {g : β → Except ε β'}
    (h : Alike R x y) (hfg : ∀ a b, R a b → Alike S (f a) (g b)) :
    Alike S (x >>= f) (y >>= g) := by
  cases x <;> cases y <;> cases h
  · exact .error
  · exact hfg _ _ ‹_›

lemma map {x : Except ε α} {y : Except ε β} {f : α → α'} {g : β → β'} (h : Alike R x y)
    (hfg : ∀ a b, R a b → S (f a) (g b)) : Alike S (x.map f) (y.map g) := by
  cases x <;> cases y <;> cases h
  · exact .error
  · exact .ok (hfg _ _ ‹_›)

lemma mapM {f : α → Except ε α'} {g : β → Except ε β'} {as : List α} {bs : List β}
    (h : List.Forall₂ (fun a b => Alike S (f a) (g b)) as bs) :
    Alike (List.Forall₂ S) (as.mapM f) (bs.mapM g) := by
  induction h with
  | nil => exact .ok .nil
  | cons hab _ ih =>
    rw [List.mapM_cons, List.mapM_cons]
    exact hab.bind fun a b h => ih.bind fun as bs hs => .ok (.cons h hs)

lemma mapM_option {f : α → Except ε α'} {g : β → Except ε β'} {o : Option α} {o' : Option β}
    (ho : Option.Rel R o o') (h : ∀ a b, R a b → Alike S (f a) (g b)) :
    Alike (Option.Rel S) (o.mapM f) (o'.mapM g) := by
  cases ho with
  | none => exact .ok .none
  | some hab => exact (h _ _ hab).map fun _ _ => .some

/-- Of two runs that go alike one succeeds exactly if the other does. -/
lemma exists_iff {x : Except ε α} {y : Except ε β} (h : Alike R x y) :
    (∃ a, x = .ok a) ↔ ∃ b, y = .ok b := by
  cases x <;> cases y <;> cases h <;> simp

end Alike

/-! ### Decoders -/

namespace Yaml.Decode

variable {α β : Type} {R : α → α → Prop} {S : β → β → Prop} {name : String} {f : Tree → Decoded β}
  {set : β → α → α} {t t' : Tree}

/-- The field that is read into related values gives related ones. -/
def Field.Respects (R : α → α → Prop) (f : Field α) : Prop :=
  ∀ t a b, R a b → Alike R (f.read t a) (f.read t b)

lemma alike_field (hf : Alike S (f t) (f t'))
    (hset : ∀ b b' a a', S b b' → R a a' → R (set b a) (set b' a')) {a a' : α} (ha : R a a') :
    Alike R ((field name f set).read t a) ((field name f set).read t' a') :=
  hf.map fun b b' hb => hset b b' a a' hb ha

lemma respects_field (hset : ∀ b a a', R a a' → R (set b a) (set b a')) :
    (field name f set).Respects R := fun t _ _ ha =>
  alike_field (S := Eq) (.refl (fun _ => rfl) (f t))
    (fun b _ a a' hb ha => hb ▸ hset b a a' ha) ha

lemma optional_of_ne_null (ht : t ≠ .null) : optional f t = (f t).map some := by
  cases t <;> first | exact absurd rfl ht | rfl

lemma alike_optional (ht : t ≠ .null) (ht' : t' ≠ .null) (h : Alike S (f t) (f t')) :
    Alike (Option.Rel S) (optional f t) (optional f t') := by
  rw [optional_of_ne_null ht, optional_of_ne_null ht']
  exact h.map fun _ _ => .some

/-- The entries of a record are read alike if they have the same keys, and the values of the fields
that are known are read alike. -/
lemma alike_fields {known : List (Field α)} {closed : Bool} {es es' : List (Tree × Tree)}
    (h : List.Forall₂ (fun e e' => e.1 = e'.1 ∧ ∀ name f, fieldName e.1 = .ok name →
      known.find? (fun f => f.name = name) = some f →
      ∀ a b, R a b → Alike R (f.read e.2 a) (f.read e'.2 b)) es es')
    (seen : List String) {a b : α} (hab : R a b) :
    Alike (fun p q => R p.1 q.1 ∧ p.2 = q.2) (fields known closed seen a es)
      (fields known closed seen b es') := by
  induction h generalizing seen a b with
  | nil => exact .ok ⟨hab, rfl⟩
  | @cons e e' es es' he _ ih =>
    obtain ⟨k, v⟩ := e
    obtain ⟨_, v'⟩ := e'
    obtain ⟨rfl, hread⟩ := he
    cases hname : fieldName k with
    | error err =>
      rw [fields_cons_of_error hname, fields_cons_of_error hname]
      exact .error
    | ok name =>
      cases hfind : known.find? fun f => f.name = name with
      | none =>
        rw [fields_cons_of_unknown hname hfind, fields_cons_of_unknown hname hfind]
        split
        · exact .error
        · exact ih seen hab
      | some f =>
        rw [fields_cons_of_known hname hfind, fields_cons_of_known hname hfind]
        split
        · exact .error
        · exact (hread name f hname hfind a b hab).bind fun a b => ih (name :: seen)

end Yaml.Decode

end TwoStage
