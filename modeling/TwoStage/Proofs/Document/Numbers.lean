import TwoStage.Proofs.Document.Version
import TwoStage.Proofs.Yaml.Surroundings
import TwoStage.Stage

/-!
# Numbers in a document

The numbers of a document are the ports of proxies and of servers and the ids of users. Two
documents that differ in the value of one such field only are decoded alike if the values are: they
give sections which are equal if the numbers are, and which are the same but for the numbers in any
case.
-/

namespace TwoStage

open Yaml Decode

variable {same : Prop}

/-! ### The same but for numbers -/

/-- The users are equal if `same` holds, and in any case but for their numbers. -/
structure UserSection.Like (same : Prop) (u u' : UserSection) : Prop where
  eq : same → u = u'
  rest : { u with uid? := none, gid? := none } = { u' with uid? := none, gid? := none }

/-- The sections are equal if `same` holds, and in any case but for their numbers. -/
structure SshSection.Like (same : Prop) (s s' : SshSection) : Prop where
  eq : same → s = s'
  enabled : s.enabled = s'.enabled
  users : List.Forall₂ (fun e e' => e.1 = e'.1 ∧ e.2.Like same e'.2)
    s.users.entries s'.users.entries

/-- The stages are equal if `same` holds, and in any case but for their numbers and their
proxies. -/
structure StageSection.Like (same : Prop) (s s' : StageSection) : Prop where
  eq : same → s = s'
  ssh : Option.Rel (SshSection.Like same) s.ssh? s'.ssh?
  rest : { s with ssh? := none, proxy? := none } = { s' with ssh? := none, proxy? := none }

/-- The documents are equal if `same` holds, and in any case but for their numbers and proxies. -/
structure Document.Like (same : Prop) (d d' : Document) : Prop where
  eq : same → d = d'
  first : Option.Rel (StageSection.Like same) d.first? d'.first?
  second : Option.Rel (StageSection.Like same) d.second? d'.second?
  rest : { d with first? := none, second? := none } = { d' with first? := none, second? := none }

lemma rel_refl {α : Type} {R : α → α → Prop} (hR : ∀ a, R a a) (o : Option α) :
    Option.Rel R o o := by
  cases o with
  | none => exact .none
  | some a => exact .some (hR a)

lemma UserSection.Like.refl (u : UserSection) : u.Like same u := ⟨fun _ => rfl, rfl⟩

lemma SshSection.Like.refl (s : SshSection) : s.Like same s :=
  ⟨fun _ => rfl, rfl, List.forall₂_same.2 fun e _ => ⟨rfl, .refl e.2⟩⟩

lemma StageSection.Like.refl (s : StageSection) : s.Like same s :=
  ⟨fun _ => rfl, rel_refl SshSection.Like.refl _, rfl⟩

lemma Document.Like.refl (d : Document) : d.Like same d :=
  ⟨fun _ => rfl, rel_refl StageSection.Like.refl _, rel_refl StageSection.Like.refl _, rfl⟩

/-! ### Users -/

lemma UserSection.respects_fields : ∀ f ∈ fields, f.Respects (Like same) := by
  intro f hf
  simp only [fields, List.mem_cons, List.not_mem_nil, or_false] at hf
  rcases hf with rfl | rfl | rfl | rfl | rfl | rfl | rfl
  · exact respects_field fun b a a' h => ⟨fun hs => by rw [h.eq hs],
      congrArg (fun u => { u with password? := b }) h.rest⟩
  · exact respects_field fun b a a' h => ⟨fun hs => by rw [h.eq hs],
      congrArg (fun u => { u with publicFile? := b }) h.rest⟩
  · exact respects_field fun b a a' h => ⟨fun hs => by rw [h.eq hs],
      congrArg (fun u => { u with publicText? := b }) h.rest⟩
  · exact respects_field fun b a a' h => ⟨fun hs => by rw [h.eq hs],
      congrArg (fun u => { u with privateFile? := b }) h.rest⟩
  · exact respects_field fun b a a' h => ⟨fun hs => by rw [h.eq hs],
      congrArg (fun u => { u with privateText? := b }) h.rest⟩
  all_goals exact respects_field fun b a a' h => ⟨fun hs => by rw [h.eq hs], h.rest⟩

/-- Numbers are equal if `same` holds. -/
def EqIf (same : Prop) {α : Type} (a b : α) : Prop := same → a = b

lemma EqIf.refl {α : Type} (a : α) : EqIf same a a := fun _ => rfl

variable {l : Layer} {t t' : Tree}

section

variable (ht : t ≠ .null) (ht' : t' ≠ .null)
include ht ht'

lemma alike_optional_numeric {limit : Nat}
    (h : Alike (EqIf same) (numeric limit t) (numeric limit t')) :
    Alike (EqIf same) (optional (numeric limit) t) (optional (numeric limit) t') :=
  (alike_optional ht ht' h).mono fun o o' ho hs => by
    cases ho with
    | none => rfl
    | some hm => rw [hm hs]

lemma UserSection.alike_decode_around
    (hkey : l.key.untagged = .text "uid" ∨ l.key.untagged = .text "gid")
    (h : Alike (EqIf same) (numeric maxId t) (numeric maxId t')) :
    Alike (Like same) (decode (l.around t)) (decode (l.around t')) := by
  refine alike_record_around (.refl _) respects_fields fun name f hname hfind a a' ha => ?_
  have hnumber := alike_optional_numeric ht ht' h
  rcases hkey with hkey | hkey
  all_goals
    obtain rfl := Tree.text.inj (hname.symm.trans hkey)
    obtain rfl := Option.some.inj hfind
    exact alike_field hnumber (fun b b' a a' hb ha =>
      ⟨fun hs => by rw [hb hs, ha.eq hs], ha.rest⟩) ha

end

/-! ### Servers -/

lemma SshSection.respects_fields : ∀ f ∈ fields, f.Respects (Like same) := by
  intro f hf
  simp only [fields, List.mem_cons, List.not_mem_nil, or_false] at hf
  rcases hf with rfl | rfl | rfl | rfl
  · exact respects_field fun b a a' h => ⟨fun hs => by rw [h.eq hs], rfl, h.users⟩
  · exact respects_field fun b a a' h => ⟨fun hs => by rw [h.eq hs], h.enabled, h.users⟩
  · exact respects_field fun b a a' h => ⟨fun hs => by rw [h.eq hs], h.enabled, h.users⟩
  · exact respects_field fun b a a' h => ⟨fun hs => by rw [h.eq hs], h.enabled,
      List.forall₂_same.2 fun e _ => ⟨rfl, .refl e.2⟩⟩

lemma SshSection.alike_decode_port (hkey : l.key.untagged = .text "port")
    (h : Alike (EqIf same) (numeric maxPort t) (numeric maxPort t')) :
    Alike (Like same) (decode (l.around t)) (decode (l.around t')) := by
  refine alike_record_around (.refl _) respects_fields fun name f hname hfind a a' ha => ?_
  obtain rfl := Tree.text.inj (hname.symm.trans hkey)
  obtain rfl := Option.some.inj hfind
  exact alike_field h (fun b b' a a' hb ha =>
    ⟨fun hs => by rw [hb hs, ha.eq hs], ha.enabled, ha.users⟩) ha

lemma SshSection.alike_decode_hostPort (ht : t ≠ .null) (ht' : t' ≠ .null)
    (hkey : l.key.untagged = .text "host_port")
    (h : Alike (EqIf same) (numeric maxPort t) (numeric maxPort t')) :
    Alike (Like same) (decode (l.around t)) (decode (l.around t')) := by
  refine alike_record_around (.refl _) respects_fields fun name f hname hfind a a' ha => ?_
  obtain rfl := Tree.text.inj (hname.symm.trans hkey)
  obtain rfl := Option.some.inj hfind
  exact alike_field (alike_optional_numeric ht ht' h) (fun b b' a a' hb ha =>
    ⟨fun hs => by rw [hb hs, ha.eq hs], ha.enabled, ha.users⟩) ha

/-- The user whose section holds the value has any name. -/
lemma SshSection.alike_decode_users {user : Layer} (hkey : l.key.untagged = .text "users")
    (h : Alike (UserSection.Like same) (UserSection.decode t) (UserSection.decode t')) :
    Alike (Like same) (decode (l.around (user.around t))) (decode (l.around (user.around t'))) := by
  refine alike_record_around (.refl _) respects_fields fun name f hname hfind a a' ha => ?_
  obtain rfl := Tree.text.inj (hname.symm.trans hkey)
  obtain rfl := Option.some.inj hfind
  refine alike_field (alike_entries_around UserSection.Like.refl h) (fun b b' a a' hb ha =>
    ⟨fun hs => ?_, ha.enabled, hb⟩) ha
  have husers : b.entries = b'.entries := by
    rw [← List.forall₂_eq_eq_eq]
    exact hb.imp fun e e' he => Prod.ext he.1 (he.2.eq hs)
  rw [ha.eq hs, show b = b' from congrArg OrderedMap.mk husers]

/-! ### Proxies -/

lemma Proxy.respects_fields : ∀ f ∈ fields, f.Respects (EqIf same) := by
  intro f hf
  simp only [fields, List.mem_cons, List.not_mem_nil, or_false] at hf
  rcases hf with rfl | rfl | rfl | rfl | rfl <;>
    exact respects_field fun b a a' h hs => by rw [h hs]

lemma Proxy.alike_decode_port (ht : t ≠ .null) (ht' : t' ≠ .null)
    (hkey : l.key.untagged = .text "port")
    (h : Alike (EqIf same) (numeric maxPort t) (numeric maxPort t')) :
    Alike (EqIf same) (decode (l.around t)) (decode (l.around t')) := by
  refine alike_record_around (.refl _) respects_fields fun name f hname hfind a a' ha => ?_
  obtain rfl := Tree.text.inj (hname.symm.trans hkey)
  obtain rfl := Option.some.inj hfind
  exact alike_field (alike_optional_numeric ht ht' h) (fun b b' a a' hb ha hs => by
    rw [hb hs, ha hs]) ha

/-! ### Stages -/

lemma StageSection.respects_fields : ∀ f ∈ fields, f.Respects (Like same) := by
  intro f hf
  simp only [fields, List.mem_cons, List.not_mem_nil, or_false] at hf
  rcases hf with rfl | rfl | rfl | rfl | rfl | rfl | rfl | rfl | rfl | rfl | rfl
  -- the `ssh` section holds numbers itself, the proxy holds one, and every other field is kept as
  -- it is
  · exact respects_field fun b a a' h => ⟨fun hs => by rw [h.eq hs], h.ssh,
      congrArg (fun s => { s with image? := b }) h.rest⟩
  · exact respects_field fun b a a' h => ⟨fun hs => by rw [h.eq hs],
      rel_refl SshSection.Like.refl b, h.rest⟩
  · exact respects_field fun b a a' h => ⟨fun hs => by rw [h.eq hs], h.ssh, h.rest⟩
  · exact respects_field fun b a a' h => ⟨fun hs => by rw [h.eq hs], h.ssh,
      congrArg (fun s => { s with apt? := b }) h.rest⟩
  · exact respects_field fun b a a' h => ⟨fun hs => by rw [h.eq hs], h.ssh,
      congrArg (fun s => { s with environment := b }) h.rest⟩
  · exact respects_field fun b a a' h => ⟨fun hs => by rw [h.eq hs], h.ssh,
      congrArg (fun s => { s with bakeEnvironment := b }) h.rest⟩
  · exact respects_field fun b a a' h => ⟨fun hs => by rw [h.eq hs], h.ssh,
      congrArg (fun s => { s with ports := b }) h.rest⟩
  · exact respects_field fun b a a' h => ⟨fun hs => by rw [h.eq hs], h.ssh,
      congrArg (fun s => { s with device? := b }) h.rest⟩
  · exact respects_field fun b a a' h => ⟨fun hs => by rw [h.eq hs], h.ssh,
      congrArg (fun s => { s with storage := b }) h.rest⟩
  · exact respects_field fun b a a' h => ⟨fun hs => by rw [h.eq hs], h.ssh,
      congrArg (fun s => { s with mount := b }) h.rest⟩
  · exact respects_field fun b a a' h => ⟨fun hs => by rw [h.eq hs], h.ssh,
      congrArg (fun s => { s with scripts? := b }) h.rest⟩

lemma eq_of_rel {α : Type} {R : α → α → Prop} (hR : ∀ a b, R a b → a = b) {o o' : Option α}
    (h : Option.Rel R o o') : o = o' := by
  cases h with
  | none => rfl
  | some hab => rw [hR _ _ hab]

section

variable (ht : t ≠ .null) (ht' : t' ≠ .null)
include ht ht'

lemma StageSection.alike_decode_ssh (hkey : l.key.untagged = .text "ssh")
    (h : Alike (SshSection.Like same) (SshSection.decode t) (SshSection.decode t')) :
    Alike (Like same) (decode (l.around t)) (decode (l.around t')) := by
  refine alike_record_around (.refl _) respects_fields fun name f hname hfind a a' ha => ?_
  obtain rfl := Tree.text.inj (hname.symm.trans hkey)
  obtain rfl := Option.some.inj hfind
  exact alike_field (alike_optional ht ht' h) (fun b b' a a' hb ha =>
    ⟨fun hs => by rw [eq_of_rel (fun _ _ h => h.eq hs) hb, ha.eq hs], hb, ha.rest⟩) ha

lemma StageSection.alike_decode_proxy (hkey : l.key.untagged = .text "proxy")
    (h : Alike (EqIf same) (Proxy.decode t) (Proxy.decode t')) :
    Alike (Like same) (decode (l.around t)) (decode (l.around t')) := by
  refine alike_record_around (.refl _) respects_fields fun name f hname hfind a a' ha => ?_
  obtain rfl := Tree.text.inj (hname.symm.trans hkey)
  obtain rfl := Option.some.inj hfind
  exact alike_field (alike_optional ht ht' h) (fun b b' a a' hb ha =>
    ⟨fun hs => by rw [eq_of_rel (fun _ _ h => h hs) hb, ha.eq hs], ha.ssh, ha.rest⟩) ha

end

/-! ### Documents -/

lemma Document.respects_fields : ∀ f ∈ fields, f.Respects (Like same) := by
  intro f hf
  simp only [fields, List.mem_cons, List.not_mem_nil, or_false] at hf
  rcases hf with rfl | rfl | rfl | rfl
  · exact respects_field fun b a a' h => ⟨fun hs => by rw [h.eq hs], h.first, h.second,
      congrArg (fun d => { d with version := b }) h.rest⟩
  · exact respects_field fun b a a' h => ⟨fun hs => by rw [h.eq hs], h.first, h.second,
      congrArg (fun d => { d with projectName? := b }) h.rest⟩
  · exact respects_field fun b a a' h => ⟨fun hs => by rw [h.eq hs],
      rel_refl StageSection.Like.refl b, h.second, h.rest⟩
  · exact respects_field fun b a a' h => ⟨fun hs => by rw [h.eq hs], h.first,
      rel_refl StageSection.Like.refl b, h.rest⟩

lemma Document.alike_decode_stage (ht : t ≠ .null) (ht' : t' ≠ .null) {stage : Stage}
    (hkey : l.key.untagged = .text stage.key)
    (h : Alike (StageSection.Like same) (StageSection.decode t) (StageSection.decode t')) :
    Alike (Like same) (decode (l.around t)) (decode (l.around t')) := by
  refine alike_record_around (.refl _) respects_fields fun name f hname hfind a a' ha => ?_
  have hsection := alike_optional ht ht' h
  obtain rfl := Tree.text.inj (hname.symm.trans hkey)
  cases stage with
  | first =>
    obtain rfl := Option.some.inj hfind
    exact alike_field hsection (fun b b' a a' hb ha =>
      ⟨fun hs => by rw [eq_of_rel (fun _ _ h => h.eq hs) hb, ha.eq hs], hb, ha.second, ha.rest⟩) ha
  | second =>
    obtain rfl := Option.some.inj hfind
    exact alike_field hsection (fun b b' a a' hb ha =>
      ⟨fun hs => by rw [eq_of_rel (fun _ _ h => h.eq hs) hb, ha.eq hs], ha.first, hb, ha.rest⟩) ha

lemma Version.alike_decodeFrom_stage {stage : Stage} (hkey : l.key.untagged = .text stage.key) :
    Alike Eq (decodeFrom (l.around t)) (decodeFrom (l.around t')) := by
  refine alike_record_around rfl (fun f hf => ?_) fun name f hname hfind => ?_
  · obtain rfl := List.mem_singleton.1 hf
    exact respects_field fun _ _ _ _ => rfl
  · obtain ⟨-, rfl⟩ := eq_of_find?_versionField hfind
    have hapi := Tree.text.inj (hkey.symm.trans hname)
    cases stage <;> simp [Stage.key] at hapi

/-! ### Numeric fields -/

/-- The fields of a stage that hold numbers. -/
inductive NumberField
  | proxyPort
  | sshPort
  | sshHostPort
  | uid
  | gid

namespace NumberField

def limit : NumberField → Nat
  | .proxyPort | .sshPort | .sshHostPort => maxPort
  | .uid | .gid                          => maxId

/-- The keys under which the field stands in the section of a stage. A user has any name. -/
def keys : NumberField → List (Option String)
  | .proxyPort   => [some "proxy", some "port"]
  | .sshPort     => [some "ssh", some "port"]
  | .sshHostPort => [some "ssh", some "host_port"]
  | .uid         => [some "ssh", some "users", none, some "uid"]
  | .gid         => [some "ssh", some "users", none, some "gid"]

/-- The layers are those around the field of a stage. -/
def StandsIn (field : NumberField) (stage : Stage) (layers : List Layer) : Prop :=
  List.Forall₂ (fun l key? => ∀ name ∈ key?, l.key.untagged = .text name) layers
    (some stage.key :: field.keys)

variable {field : NumberField} {stage : Stage} {layers layers' : List Layer}
  {vars : String → Option String}

/-- The config round leaves a field where it stands. -/
lemma StandsIn.of_resolves (h : field.StandsIn stage layers)
    (hlayers : List.Forall₂ (Layer.Resolves vars) layers layers') :
    field.StandsIn stage layers' := by
  unfold StandsIn at h ⊢
  generalize some stage.key :: field.keys = keys at h ⊢
  induction hlayers generalizing keys with
  | nil => exact h
  | cons hl _ ih =>
    cases h with
    | cons hkey h => exact .cons (hl.key ▸ hkey) (ih _ h)

/-- Two values of the field that are read alike make documents that are. -/
lemma StandsIn.alike_decode (h : field.StandsIn stage layers) (ht : t ≠ .null) (ht' : t' ≠ .null)
    (hnumber : Alike (EqIf same) (numeric field.limit t) (numeric field.limit t')) :
    Alike (Document.Like same) (Document.decode (surround layers t))
      (Document.decode (surround layers t')) := by
  have hne {l : Layer} {u : Tree} : l.around u ≠ .null := l.around_ne_null u
  -- four of the five fields stand somewhere in the `ssh` section of the stage
  have hssh {first second : Layer} {u u' : Tree} (hfirst : first.key.untagged = .text stage.key)
      (hsecond : second.key.untagged = .text "ssh") (hu : u ≠ .null) (hu' : u' ≠ .null)
      (h : Alike (SshSection.Like same) (SshSection.decode u) (SshSection.decode u')) :
      Alike (Document.Like same) (Document.decode (first.around (second.around u)))
        (Document.decode (first.around (second.around u'))) :=
    Document.alike_decode_stage hne hne hfirst (StageSection.alike_decode_ssh hu hu' hsecond h)
  obtain _ | ⟨hstage, h⟩ := h
  cases field with
  | proxyPort =>
    obtain _ | ⟨hproxy, _ | ⟨hport, _ | _⟩⟩ := h
    exact Document.alike_decode_stage hne hne (hstage _ rfl)
      (StageSection.alike_decode_proxy hne hne (hproxy _ rfl)
        (Proxy.alike_decode_port ht ht' (hport _ rfl) hnumber))
  | sshPort =>
    obtain _ | ⟨hkey, _ | ⟨hport, _ | _⟩⟩ := h
    exact hssh (hstage _ rfl) (hkey _ rfl) hne hne
      (SshSection.alike_decode_port (hport _ rfl) hnumber)
  | sshHostPort =>
    obtain _ | ⟨hkey, _ | ⟨hport, _ | _⟩⟩ := h
    exact hssh (hstage _ rfl) (hkey _ rfl) hne hne
      (SshSection.alike_decode_hostPort ht ht' (hport _ rfl) hnumber)
  | uid =>
    obtain _ | ⟨hkey, _ | ⟨husers, _ | ⟨-, _ | ⟨hid, _ | _⟩⟩⟩⟩ := h
    exact hssh (hstage _ rfl) (hkey _ rfl) hne hne (SshSection.alike_decode_users (husers _ rfl)
      (UserSection.alike_decode_around ht ht' (.inl (hid _ rfl)) hnumber))
  | gid =>
    obtain _ | ⟨hkey, _ | ⟨husers, _ | ⟨-, _ | ⟨hid, _ | _⟩⟩⟩⟩ := h
    exact hssh (hstage _ rfl) (hkey _ rfl) hne hne (SshSection.alike_decode_users (husers _ rfl)
      (UserSection.alike_decode_around ht ht' (.inr (hid _ rfl)) hnumber))

/-- A document that is decoded has the value of the field decoded. -/
lemma StandsIn.exists_number (h : field.StandsIn stage layers) (ht : t ≠ .null) {d : Document}
    (hd : Document.decode (surround layers t) = .ok d) :
    ∃ m, numeric field.limit t = .ok m := by
  have hne {l : Layer} {u : Tree} : l.around u ≠ .null := l.around_ne_null u
  -- from the outside in: every section around the field is decoded, and at last the field
  have hsection {l : Layer} {u : Tree} (hkey : l.key.untagged = .text stage.key) (hu : u ≠ .null)
      (hd : Document.decode (l.around u) = .ok d) : ∃ s, StageSection.decode u = .ok s := by
    cases stage with
    | first => exact exists_of_optional_around hu hkey rfl hd
    | second => exact exists_of_optional_around hu hkey rfl hd
  have hssh {l l' : Layer} {u : Tree} (hkey : l.key.untagged = .text stage.key)
      (hkey' : l'.key.untagged = .text "ssh") (hu : u ≠ .null)
      (hd : Document.decode (l.around (l'.around u)) = .ok d) :
      ∃ s, SshSection.decode u = .ok s := by
    obtain ⟨s, hs⟩ := hsection hkey hne hd
    exact exists_of_optional_around hu hkey' rfl hs
  obtain _ | ⟨hstage, h⟩ := h
  cases field with
  | proxyPort =>
    obtain _ | ⟨hproxy, _ | ⟨hport, _ | _⟩⟩ := h
    obtain ⟨s, hs⟩ := hsection (hstage _ rfl) hne hd
    obtain ⟨p, hp⟩ := exists_of_optional_around hne (hproxy _ rfl) rfl hs
    exact exists_of_optional_around ht (hport _ rfl) rfl hp
  | sshPort =>
    obtain _ | ⟨hkey, _ | ⟨hport, _ | _⟩⟩ := h
    obtain ⟨s, hs⟩ := hssh (hstage _ rfl) (hkey _ rfl) hne hd
    exact exists_of_record_around (hport _ rfl) rfl hs
  | sshHostPort =>
    obtain _ | ⟨hkey, _ | ⟨hport, _ | _⟩⟩ := h
    obtain ⟨s, hs⟩ := hssh (hstage _ rfl) (hkey _ rfl) hne hd
    exact exists_of_optional_around ht (hport _ rfl) rfl hs
  | uid | gid =>
    obtain _ | ⟨hkey, _ | ⟨husers, _ | ⟨-, _ | ⟨hid, _ | _⟩⟩⟩⟩ := h
    obtain ⟨s, hs⟩ := hssh (hstage _ rfl) (hkey _ rfl) hne hd
    obtain ⟨m, hm⟩ := exists_of_record_around (husers _ rfl) rfl hs
    obtain ⟨u, hu⟩ := exists_of_entries_around hm
    exact exists_of_optional_around ht (hid _ rfl) rfl hu

/-- A document that is loaded has the value of the field read. -/
lemma StandsIn.exists_number_of_ofTree (h : field.StandsIn stage layers)
    (ht : Resolution.resolve vars t = .ok t') (hne : t' ≠ .null) {d : Document}
    (hd : Document.ofTree vars (surround layers t) = .ok d) :
    ∃ m, numeric field.limit t' = .ok m := by
  obtain ⟨-, -, hd⟩ := Outcome.bind_eq_ok_iff.1 hd
  obtain ⟨u, hu, hd⟩ := Outcome.bind_eq_ok_iff.1 hd
  obtain ⟨d', hd', -⟩ := Outcome.bind_eq_ok_iff.1 hd
  obtain ⟨layers', v, hlayers, hv, rfl⟩ := resolve_surround_iff.1 hu
  obtain rfl := Except.ok.inj (hv.symm.trans ht)
  exact (h.of_resolves hlayers).exists_number hne (Outcome.mapError_eq_ok_iff.1 hd')

/-- Two values of the field that the config round takes to values which are read alike make
documents that are loaded alike, but for their trees. -/
lemma StandsIn.alike_ofTree (h : field.StandsIn stage layers) {u u' : Tree}
    (ht : Resolution.resolve vars t = .ok u) (ht' : Resolution.resolve vars t' = .ok u')
    (hu : u ≠ .null) (hu' : u' ≠ .null)
    (hnumber : Alike (EqIf same) (numeric field.limit u) (numeric field.limit u')) :
    Alike (fun d d' => Document.Like same { d with tree := .null } { d' with tree := .null })
      (Document.ofTree vars (surround layers t)) (Document.ofTree vars (surround layers t')) := by
  have htyped {α : Type} {R : α → α → Prop} {x y : Decoded α} (h : Alike R x y) :
      Alike R (Document.typed x) (Document.typed y) := by
    cases x <;> cases y <;> exact h
  have hversion : Alike Eq (Version.decodeFrom (surround layers t))
      (Version.decodeFrom (surround layers t')) := by
    obtain _ | ⟨hstage, -⟩ := h
    exact Version.alike_decodeFrom_stage (hstage _ rfl)
  unfold Document.ofTree
  refine (htyped hversion).bind fun _ _ _ => ?_
  refine (alike_resolve_surround ht ht' layers).bind ?_
  rintro _ _ ⟨layers', hlayers, rfl, rfl⟩
  refine (htyped ((h.of_resolves hlayers).alike_decode hu hu' hnumber)).bind fun d d' hd => ?_
  exact .ok ⟨fun hs => by rw [hd.eq hs], hd.first, hd.second,
    congrArg (fun d => { d with tree := .null }) hd.rest⟩

end NumberField

/-! ### Words in a document -/

/-- Load a document in which a word without quotes stands at a place. A word that has no value makes
the whole document malformed. -/
def Document.ofWord (vars : String → Option String) (layers : List Layer) (word : String) :
    Outcome Document :=
  match Node.plainTree? word.toList true with
  | some t => ofTree vars (surround layers t)
  | none   => .error (.invalidDocument (.unreadable .malformed))

end TwoStage
