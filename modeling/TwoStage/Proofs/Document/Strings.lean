import TwoStage.Document
import TwoStage.Proofs.Yaml.Decode

/-!
# The texts of a document's sections

Every text that a section of a document keeps is a string of the document's tree, or the digits of
an integer. So what holds of all strings of a document, and of digits, holds of its sections.
-/

namespace TwoStage

open Yaml Decode

variable {P : String → Prop}

/-! ### Images, proxy and package sources -/

structure Image.Holds (P : String → Prop) (i : Image) : Prop where
  base : ∀ s ∈ i.base?, P s
  output : ∀ s ∈ i.output?, P s

structure Proxy.Holds (P : String → Prop) (p : Proxy) : Prop where
  address : ∀ s ∈ p.address?, P s

structure Apt.Holds (P : String → Prop) (a : Apt) : Prop where
  repoSource : ∀ s ∈ a.repoSource?, P s

lemma Image.holds_empty : Image.empty.Holds P := ⟨by simp [empty], by simp [empty]⟩

lemma Proxy.holds_empty : Proxy.empty.Holds P := ⟨by simp [empty]⟩

lemma Apt.holds_empty : Apt.empty.Holds P := ⟨by simp [empty]⟩

lemma Image.carries_decode : Carries P (Image.Holds P) Image.decode := by
  refine carries_record holds_empty fun f hf => ?_
  simp only [fields, List.mem_cons, List.not_mem_nil, or_false] at hf
  rcases hf with rfl | rfl
  · exact keeps_field (carries_optional carries_text) fun _ _ hb ha => { ha with base := hb }
  · exact keeps_field (carries_optional carries_text) fun _ _ hb ha => { ha with output := hb }

lemma Proxy.carries_decode : Carries P (Proxy.Holds P) Proxy.decode := by
  refine carries_record holds_empty fun f hf => ?_
  simp only [fields, List.mem_cons, List.not_mem_nil, or_false] at hf
  rcases hf with rfl | rfl | rfl | rfl | rfl
  · exact keeps_field (carries_optional carries_text) fun _ _ hb _ => ⟨hb⟩
  all_goals exact keeps_field (carries_trivial _) fun _ _ _ ha => ⟨ha.address⟩

lemma Apt.carries_decode : Carries P (Apt.Holds P) Apt.decode := by
  refine carries_record holds_empty fun f hf => ?_
  simp only [fields, List.mem_cons, List.not_mem_nil, or_false] at hf
  rcases hf with rfl | rfl | rfl | rfl
  · exact keeps_field (carries_optional carries_text) fun _ _ hb _ => ⟨hb⟩
  all_goals exact keeps_field (carries_trivial _) fun _ _ _ ha => ⟨ha.repoSource⟩

/-! ### Access by SSH -/

structure UserSection.Holds (P : String → Prop) (u : UserSection) : Prop where
  password : ∀ s ∈ u.password?, P s
  publicFile : ∀ s ∈ u.publicFile?, P s
  publicText : ∀ s ∈ u.publicText?, P s
  privateFile : ∀ s ∈ u.privateFile?, P s
  privateText : ∀ s ∈ u.privateText?, P s

/-- The texts of all users have the property, and no two users have one name. -/
structure SshSection.Holds (P : String → Prop) (s : SshSection) : Prop where
  users : ∀ e ∈ s.users.entries, e.2.Holds P
  distinct : s.users.keys.Nodup

lemma UserSection.holds_empty : UserSection.empty.Holds P := by constructor <;> simp [empty]

lemma UserSection.carries_decode : Carries P (UserSection.Holds P) UserSection.decode := by
  refine carries_record holds_empty fun f hf => ?_
  simp only [fields, List.mem_cons, List.not_mem_nil, or_false] at hf
  rcases hf with rfl | rfl | rfl | rfl | rfl | rfl | rfl
  · exact keeps_field (carries_optional carries_text) fun _ _ hb ha => { ha with password := hb }
  · exact keeps_field (carries_optional carries_text) fun _ _ hb ha => { ha with publicFile := hb }
  · exact keeps_field (carries_optional carries_text) fun _ _ hb ha => { ha with publicText := hb }
  · exact keeps_field (carries_optional carries_text) fun _ _ hb ha => { ha with privateFile := hb }
  · exact keeps_field (carries_optional carries_text) fun _ _ hb ha => { ha with privateText := hb }
  all_goals exact keeps_field (carries_trivial _) fun _ _ _ ha => { ha with }

lemma SshSection.carries_decode : Carries P (SshSection.Holds P) SshSection.decode := by
  refine carries_record ⟨by simp [empty, OrderedMap.empty], List.nodup_nil⟩ fun f hf => ?_
  simp only [fields, List.mem_cons, List.not_mem_nil, or_false] at hf
  rcases hf with rfl | rfl | rfl | rfl
  · exact keeps_field (carries_trivial _) fun _ _ _ ha => { ha with }
  · exact keeps_field (carries_trivial _) fun _ _ _ ha => { ha with }
  · exact keeps_field (carries_trivial _) fun _ _ _ ha => { ha with }
  · have husers : Carries P (fun m => (∀ e ∈ m.entries, e.2.Holds P) ∧ m.keys.Nodup)
        (Decode.entries UserSection.decode) := fun t m ht h =>
      ⟨carries_entries UserSection.carries_decode t m ht h, nodup_keys_of_entries h⟩
    exact keeps_field husers fun _ _ hb _ => ⟨hb.1, hb.2⟩

/-! ### Environment and ports -/

/-- The assignments or the values of the section have the property. -/
def EnvironmentSection.Holds (P : String → Prop) : EnvironmentSection → Prop
  | .list entries    => ∀ s ∈ entries, P s
  | .mapping entries => ∀ e ∈ entries.entries, e.2.Holds P

lemma EnvironmentSection.carries_decode :
    Carries P (EnvironmentSection.Holds P) EnvironmentSection.decode := by
  refine carries_firstOf fun f hf t e ht h => ?_
  simp only [List.mem_cons, List.not_mem_nil, or_false] at hf
  -- a list of assignments, or a mapping from the names to the values
  rcases hf with rfl | rfl
  · unfold ofSequence? at h
    split at h
    next ts =>
      obtain ⟨ss, hss, rfl⟩ := Option.map_eq_some_iff.1 h
      intro s hs
      obtain ⟨u, hu, hus⟩ := Outcome.exists_of_mem_of_mapM hss hs
      unfold text? at hus
      split at hus
      next =>
        obtain rfl := Option.some.inj hus
        exact holds_of_mem_sequence ht hu _ (by simp)
      next => simp at hus
    next => simp at h
  · unfold ofMapping? at h
    split at h
    next es =>
      obtain ⟨fs, hfs, rfl⟩ := Option.map_eq_some_iff.1 h
      intro e he
      obtain ⟨⟨k, v⟩, hkv, heq⟩ :=
        Outcome.exists_of_mem_of_mapM hfs (OrderedMap.mem_of_mem_ofList he)
      unfold namedEntry? at heq
      split at heq
      next _ name value hpair =>
        obtain ⟨rfl, rfl⟩ := Prod.mk.inj hpair
        obtain rfl := Option.some.inj heq
        exact holds_of_mem_mapping ht hkv
      next => simp at heq
    next => simp at h

/-! ### Storage and scripts -/

structure StorageSection.Holds (P : String → Prop) (s : StorageSection) : Prop where
  hostPath : ∀ t ∈ s.hostPath?, P t
  volumeName : ∀ t ∈ s.volumeName?, P t
  destination : ∀ t ∈ s.destination?, P t

lemma StorageSection.carries_decode : Carries P (StorageSection.Holds P) StorageSection.decode := by
  refine carries_record (by constructor <;> simp) fun f hf => ?_
  simp only [fields, List.mem_cons, List.not_mem_nil, or_false] at hf
  rcases hf with rfl | rfl | rfl | rfl
  · exact keeps_field (carries_trivial _) fun _ _ _ ha => { ha with }
  · exact keeps_field (carries_optional carries_text) fun _ _ hb ha => { ha with hostPath := hb }
  · exact keeps_field (carries_optional carries_text) fun _ _ hb ha => { ha with volumeName := hb }
  · exact keeps_field (carries_optional carries_text) fun _ _ hb ha => { ha with destination := hb }

def Scripts.Holds (P : String → Prop) (s : Scripts) : Prop := ∀ hook, ∀ e ∈ s.entries hook, P e

lemma Scripts.holds_empty : Scripts.empty.Holds P := by
  intro hook
  cases hook <;> simp [empty, entries]

lemma Scripts.Holds.set {s : Scripts} (h : s.Holds P) {hook : Hook} {es : List String}
    (hes : ∀ e ∈ es, P e) : (s.set hook es).Holds P := by
  intro hook'
  by_cases heq : hook' = hook
  · subst heq
    cases hook' <;> exact hes
  · have hkeep : (s.set hook es).entries hook' = s.entries hook' := by
      cases hook <;> cases hook' <;> first | rfl | exact absurd rfl heq
    rw [hkeep]
    exact h hook'

lemma Scripts.carries_decode : Carries P (Scripts.Holds P) Scripts.decode := by
  refine carries_record holds_empty fun f hf => ?_
  obtain ⟨hook, -, rfl⟩ := List.mem_map.1 hf
  exact keeps_field (carries_items carries_text) fun _ _ hb ha => ha.set hb

/-! ### Stages and documents -/

structure StageSection.Holds (P : String → Prop) (s : StageSection) : Prop where
  image : ∀ i ∈ s.image?, i.Holds P
  ssh : ∀ x ∈ s.ssh?, x.Holds P
  proxy : ∀ x ∈ s.proxy?, x.Holds P
  apt : ∀ x ∈ s.apt?, x.Holds P
  environment : s.environment.Holds P
  ports : ∀ p ∈ s.ports, P p
  storage : ∀ e ∈ s.storage.entries, e.2.Holds P
  mount : ∀ e ∈ s.mount.entries, e.2.Holds P
  scripts : ∀ x ∈ s.scripts?, x.Holds P

lemma StageSection.holds_empty : StageSection.empty.Holds P := by
  constructor <;> simp [empty, OrderedMap.empty, EnvironmentSection.Holds]

lemma StageSection.carries_decodePorts (hint : ∀ n, P (Decimal.intText n)) :
    Carries P (fun ports => ∀ p ∈ ports, P p) StageSection.decodePorts := by
  intro t ports ht h
  obtain ⟨o, ho, rfl⟩ := Outcome.map_eq_ok_iff.1 h
  have hports := carries_optional (carries_items (carries_textOrInteger hint)) t o ht ho
  cases o with
  | none => simp
  | some ps => exact hports ps rfl

lemma StageSection.carries_decode (hint : ∀ n, P (Decimal.intText n)) :
    Carries P (StageSection.Holds P) StageSection.decode := by
  refine carries_record holds_empty fun f hf => ?_
  simp only [fields, List.mem_cons, List.not_mem_nil, or_false] at hf
  rcases hf with rfl | rfl | rfl | rfl | rfl | rfl | rfl | rfl | rfl | rfl | rfl
  · exact keeps_field (carries_optional Image.carries_decode)
      fun _ _ hb ha => { ha with image := hb }
  · exact keeps_field (carries_optional SshSection.carries_decode)
      fun _ _ hb ha => { ha with ssh := hb }
  · exact keeps_field (carries_optional Proxy.carries_decode)
      fun _ _ hb ha => { ha with proxy := hb }
  · exact keeps_field (carries_optional Apt.carries_decode) fun _ _ hb ha => { ha with apt := hb }
  · exact keeps_field EnvironmentSection.carries_decode
      fun _ _ hb ha => { ha with environment := hb }
  · exact keeps_field (carries_trivial _) fun _ _ _ ha => { ha with }
  · exact keeps_field (carries_decodePorts hint) fun _ _ hb ha => { ha with ports := hb }
  · exact keeps_field (carries_trivial _) fun _ _ _ ha => { ha with }
  · exact keeps_field (carries_entries StorageSection.carries_decode)
      fun _ _ hb ha => { ha with storage := hb }
  · exact keeps_field (carries_entries StorageSection.carries_decode)
      fun _ _ hb ha => { ha with mount := hb }
  · exact keeps_field (carries_optional Scripts.carries_decode)
      fun _ _ hb ha => { ha with scripts := hb }

structure Document.Holds (P : String → Prop) (d : Document) : Prop where
  first : ∀ s ∈ d.first?, s.Holds P
  second : ∀ s ∈ d.second?, s.Holds P

lemma Document.carries_decode (hint : ∀ n, P (Decimal.intText n)) :
    Carries P (Document.Holds P) Document.decode := by
  refine carries_record (by constructor <;> simp [empty]) fun f hf => ?_
  simp only [fields, List.mem_cons, List.not_mem_nil, or_false] at hf
  rcases hf with rfl | rfl | rfl | rfl
  · exact keeps_field (carries_trivial _) fun _ _ _ ha => { ha with }
  · exact keeps_field (carries_trivial _) fun _ _ _ ha => { ha with }
  · exact keeps_field (carries_optional (StageSection.carries_decode hint))
      fun _ _ hb ha => { ha with first := hb }
  · exact keeps_field (carries_optional (StageSection.carries_decode hint))
      fun _ _ hb ha => { ha with second := hb }

/-- A document is decoded from the tree that the config round has made of its text. -/
lemma Document.exists_decode_of_ofText {vars : String → Option String} {text : String}
    {d : Document} (h : ofText vars text = .ok d) :
    ∃ t d₀, Resolution.resolve vars t = .ok d.tree ∧ decode d.tree = .ok d₀ ∧
      d = { d₀ with tree := d.tree } := by
  obtain ⟨t, -, h⟩ := Outcome.bind_eq_ok_iff.1 h
  obtain ⟨version, -, h⟩ := Outcome.bind_eq_ok_iff.1 h
  obtain ⟨u, hu, h⟩ := Outcome.bind_eq_ok_iff.1 h
  obtain ⟨d₀, hd, h⟩ := Outcome.bind_eq_ok_iff.1 h
  obtain rfl := Outcome.pure_eq_ok_iff.1 h
  exact ⟨rootOf t, d₀, hu, Outcome.mapError_eq_ok_iff.1 hd, rfl⟩

/-- Every string of a document that was read is settled. -/
lemma Document.holds_settled_of_ofText {vars : String → Option String} {text : String}
    {d : Document} (h : ofText vars text = .ok d) : d.tree.Holds fun s => Settled s.toList := by
  obtain ⟨t, d₀, hresolve, -, -⟩ := exists_decode_of_ofText h
  exact Resolution.holds_settled_of_resolve hresolve

/-- What holds of the strings of a document that was read holds of its stages. -/
lemma Document.holds_of_ofText {vars : String → Option String} {text : String} {d : Document}
    (h : ofText vars text = .ok d) (hint : ∀ n, P (Decimal.intText n)) (htree : d.tree.Holds P) :
    d.Holds P := by
  obtain ⟨t, d₀, -, hdecode, heq⟩ := exists_decode_of_ofText h
  have hd := carries_decode hint d.tree d₀ htree hdecode
  rw [heq]
  exact ⟨hd.first, hd.second⟩

end TwoStage
