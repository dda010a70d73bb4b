import TwoStage.Yaml.Decode
import TwoStage.Proofs.OrderedMap
import TwoStage.Proofs.Yaml.Strings

/-!
# Where decoded texts come from

A property of all strings of a tree is carried over to what is decoded from the tree. Each decoder
carries it as its parts do; a record carries it if every one of its fields does.
-/

namespace TwoStage.Yaml.Decode

variable {α β : Type} {P : String → Prop} {Q : α → Prop} {R : β → Prop}

/-- What is decoded from a tree whose strings have the one property has the other. -/
def Carries (P : String → Prop) (Q : α → Prop) (f : Tree → Decoded α) : Prop :=
  ∀ t a, t.Holds P → f t = .ok a → Q a

/-- A field that is read from a tree whose strings have the one property keeps the other. -/
def Field.Keeps (P : String → Prop) (Q : α → Prop) (f : Field α) : Prop :=
  ∀ t a a', t.Holds P → Q a → f.read t a = .ok a' → Q a'

/-! ### Trees -/

lemma holds_untagged {t : Tree} (h : t.Holds P) : t.untagged.Holds P := by
  rwa [Tree.Holds, Tree.strings_untagged]

lemma holds_of_mem_sequence {ts : List Tree} {t : Tree} (h : (Tree.sequence ts).Holds P)
    (ht : t ∈ ts) : t.Holds P :=
  fun s hs => h s (by simpa using ⟨t, ht, hs⟩)

lemma holds_of_mem_mapping {es : List (Tree × Tree)} {k v : Tree} (h : (Tree.mapping es).Holds P)
    (he : (k, v) ∈ es) : v.Holds P :=
  fun s hs => h s (by simpa using ⟨k, v, he, hs⟩)

/-! ### Simple values -/

lemma carries_trivial (f : Tree → Decoded α) : Carries P (fun _ => True) f := fun _ _ _ _ => trivial

lemma carries_text : Carries P P text := by
  intro t s ht h
  unfold text at h
  split at h
  next s' heq =>
    obtain rfl := Except.ok.inj h
    exact holds_untagged ht _ (by simp [heq])
  next => simp at h

lemma carries_optional {f : Tree → Decoded α} (hf : Carries P Q f) :
    Carries P (fun o => ∀ a ∈ o, Q a) (optional f) := by
  intro t o ht h
  unfold optional at h
  split at h
  next =>
    obtain rfl := Except.ok.inj h
    simp
  next =>
    obtain ⟨a, ha, rfl⟩ := Outcome.map_eq_ok_iff.1 h
    simpa using hf t a ht ha

lemma carries_items {f : Tree → Decoded α} (hf : Carries P Q f) :
    Carries P (fun as => ∀ a ∈ as, Q a) (items f) := by
  intro t as ht h a ha
  unfold items at h
  split at h
  next ts heq =>
    obtain ⟨u, hu, hua⟩ := Outcome.exists_of_mem_mapM h ha
    exact hf u a (holds_of_mem_sequence (heq ▸ holds_untagged ht) hu) hua
  next =>
    obtain rfl := Except.ok.inj h
    simp at ha
  next => simp at h

lemma carries_entries {f : Tree → Decoded α} (hf : Carries P Q f) :
    Carries P (fun m => ∀ e ∈ m.entries, Q e.2) (entries f) := by
  intro t m ht h e he
  unfold entries at h
  split at h
  next es heq =>
    obtain ⟨as, has, rfl⟩ := Outcome.map_eq_ok_iff.1 h
    obtain ⟨⟨k, v⟩, hkv, hread⟩ := Outcome.exists_of_mem_mapM has (OrderedMap.mem_of_mem_ofList he)
    obtain ⟨k', -, hread⟩ := Outcome.bind_eq_ok_iff.1 hread
    obtain ⟨a, ha, hread⟩ := Outcome.bind_eq_ok_iff.1 hread
    obtain rfl := Outcome.pure_eq_ok_iff.1 hread
    exact hf v a (holds_of_mem_mapping (heq ▸ holds_untagged ht) hkv) ha
  next =>
    obtain rfl := Except.ok.inj h
    simp [OrderedMap.empty] at he
  next => simp at h

/-- No key occurs twice among decoded entries. -/
lemma nodup_keys_of_entries {f : Tree → Decoded α} {t : Tree} {m : OrderedMap String α}
    (h : entries f t = .ok m) : m.keys.Nodup := by
  unfold entries at h
  split at h
  next =>
    obtain ⟨as, -, rfl⟩ := Outcome.map_eq_ok_iff.1 h
    exact OrderedMap.nodup_keys_ofList as
  next =>
    obtain rfl := Except.ok.inj h
    exact List.nodup_nil
  next => simp at h

lemma carries_firstOf {title : String} {readings : List (Tree → Option α)}
    (hread : ∀ f ∈ readings, ∀ t a, t.Holds P → f t = some a → Q a) :
    Carries P Q (firstOf title readings) := by
  intro t a ht h
  unfold firstOf at h
  split at h
  next => simp at h
  next =>
    split at h
    next b hb =>
      obtain rfl := Except.ok.inj h
      obtain ⟨f, hf, hfb⟩ := List.exists_of_findSome?_eq_some hb
      exact hread f hf t b ht hfb
    next => simp at h

lemma carries_textOrInteger (hint : ∀ n, P (Decimal.intText n)) :
    Carries P P textOrInteger := by
  refine carries_firstOf fun f hf t s ht h => ?_
  simp only [List.mem_cons, List.not_mem_nil, or_false] at hf
  rcases hf with rfl | rfl
  · dsimp only at h
    split at h
    next n =>
      split at h
      next => exact Option.some.inj h ▸ hint n
      next => simp at h
    next => simp at h
  · dsimp only at h
    split at h
    next => exact Option.some.inj h ▸ ht _ (by simp)
    next => simp at h

/-! ### Records -/

lemma keeps_field {name : String} {f : Tree → Decoded β} {set : β → α → α} (hf : Carries P R f)
    (hset : ∀ b a, R b → Q a → Q (set b a)) : (field name f set).Keeps P Q := by
  intro t a a' ht ha h
  obtain ⟨b, hb, rfl⟩ := Outcome.map_eq_ok_iff.1 h
  exact hset b a (hf t b ht hb) ha

lemma keeps_fields {known : List (Field α)} (hknown : ∀ f ∈ known, f.Keeps P Q) {closed : Bool}
    {seen seen' : List String} {a a' : α} {es : List (Tree × Tree)}
    (hes : (Tree.mapping es).Holds P) (ha : Q a)
    (h : fields known closed seen a es = .ok (a', seen')) : Q a' := by
  induction es generalizing seen a with
  | nil =>
    obtain ⟨rfl, -⟩ := Prod.mk.inj (Except.ok.inj h)
    exact ha
  | cons e es ih =>
    obtain ⟨k, v⟩ := e
    have hrest : (Tree.mapping es).Holds P := fun s hs => hes s (by
      simp only [Tree.strings_mapping, List.flatMap_cons, List.mem_append] at hs ⊢
      exact .inr hs)
    obtain ⟨name, -, h⟩ := Outcome.bind_eq_ok_iff.1 h
    split at h
    next f hfind =>
      split at h
      next => simp at h
      next =>
        obtain ⟨b, hb, h⟩ := Outcome.bind_eq_ok_iff.1 h
        refine ih hrest (hknown f (List.mem_of_find?_eq_some hfind) v a b ?_ ha hb) h
        exact holds_of_mem_mapping hes List.mem_cons_self
    next =>
      split at h
      next => simp at h
      next => exact ih hrest ha h

/-- A record is decoded from the entries of a mapping, or from none. -/
lemma exists_fields_of_record {title : String} {closed : Bool} {known : List (Field α)}
    {required : List String} {initial a : α} {t : Tree}
    (h : record title closed known required initial t = .ok a) :
    ∃ es seen, (t.untagged = .mapping es ∨ t.untagged = .null ∧ es = []) ∧
      fields known closed [] initial es = .ok (a, seen) := by
  obtain ⟨es, hes, h⟩ : ∃ es, (t.untagged = .mapping es ∨ t.untagged = .null ∧ es = []) ∧
      record title closed known required initial (.mapping es) = .ok a := by
    unfold record at h
    cases hu : t.untagged with
    | mapping es =>
      rw [hu] at h
      exact ⟨es, .inl rfl, h⟩
    | null =>
      rw [hu] at h
      exact ⟨[], .inr ⟨rfl, rfl⟩, h⟩
    | _ => simp [hu, bind, Except.bind] at h
  obtain ⟨es', hes', h⟩ := Outcome.bind_eq_ok_iff.1 h
  obtain rfl := Except.ok.inj hes'
  obtain ⟨⟨b, seen⟩, hfields, h⟩ := Outcome.bind_eq_ok_iff.1 h
  dsimp only at h
  split at h
  next => simp at h
  next => exact ⟨es, seen, hes, Except.ok.inj h ▸ hfields⟩

lemma carries_record {title : String} {closed : Bool} {known : List (Field α)}
    {required : List String} {initial : α} (hinitial : Q initial)
    (hknown : ∀ f ∈ known, f.Keeps P Q) :
    Carries P Q (record title closed known required initial) := by
  intro t a ht h
  obtain ⟨es, seen, hes, hfields⟩ := exists_fields_of_record h
  refine keeps_fields hknown ?_ hinitial hfields
  rcases hes with hes | ⟨-, rfl⟩
  · exact hes ▸ holds_untagged ht
  · simp [Tree.Holds]

/-! ### The entries of a record -/

lemma fieldName_eq_ok_iff {t : Tree} {name : String} :
    fieldName t = .ok name ↔ t.untagged = .text name := by
  unfold fieldName
  split
  next s heq => simp [heq]
  next hne => simpa using hne name

section

variable {known : List (Field α)} {closed : Bool} {seen : List String} {a : α} {k v : Tree}
  {es : List (Tree × Tree)} {name : String}

lemma fields_cons_of_error {e : DecodeError} (hname : fieldName k = .error e) :
    fields known closed seen a ((k, v) :: es) = .error e := by
  simp only [fields, hname]
  rfl

lemma fields_cons_of_known {f : Field α} (hname : fieldName k = .ok name)
    (hfind : known.find? (fun f => f.name = name) = some f) :
    fields known closed seen a ((k, v) :: es) =
      if seen.contains name then .error (.duplicateField name)
      else f.read v a >>= fun b => fields known closed (name :: seen) b es := by
  simp only [fields, hname, bind, Except.bind, hfind]

lemma fields_cons_of_unknown (hname : fieldName k = .ok name)
    (hfind : known.find? (fun f => f.name = name) = none) :
    fields known closed seen a ((k, v) :: es) =
      if closed then .error (.unknownField name (known.map Field.name))
      else fields known closed seen a es := by
  simp only [fields, hname, bind, Except.bind, hfind]

/-- Every field of a record that is decoded has been read. -/
lemma exists_read_of_fields {b : α} {seen' : List String}
    (h : fields known closed seen a es = .ok (b, seen')) {e : Tree × Tree} (he : e ∈ es)
    {f : Field α} (hname : fieldName e.1 = .ok name)
    (hfind : known.find? (fun f => f.name = name) = some f) : ∃ a a', f.read e.2 a = .ok a' := by
  induction es generalizing seen a with
  | nil => simp at he
  | cons e' es ih =>
    obtain ⟨k, v⟩ := e'
    rcases List.mem_cons.1 he with rfl | he
    · rw [fields_cons_of_known hname hfind] at h
      split at h
      · simp at h
      · obtain ⟨a', ha', -⟩ := Outcome.bind_eq_ok_iff.1 h
        exact ⟨a, a', ha'⟩
    -- the entries in front are read one by one, and none of them is refused
    · cases hname' : fieldName k with
      | error err => simp [fields_cons_of_error hname'] at h
      | ok name' =>
        cases hfind' : known.find? fun f => f.name = name' with
        | none =>
          rw [fields_cons_of_unknown hname' hfind'] at h
          split at h
          · simp at h
          · exact ih h he
        | some f' =>
          rw [fields_cons_of_known hname' hfind'] at h
          split at h
          · simp at h
          · obtain ⟨a', -, h⟩ := Outcome.bind_eq_ok_iff.1 h
            exact ih h he

end

end TwoStage.Yaml.Decode
