import TwoStage.Proofs.Outcome
import TwoStage.Spec

/-!
# What checking asks for

A document is checked by checking its stages, a stage by checking its variables, ports and users,
and each of these may be refused. Here it is said once for each check when it passes and what it
gives then (`User.DeclaredBy`, `StageSpec.CheckedFrom`), so that nothing else about checked
documents has to go through the checks again.
-/

namespace TwoStage

/-! ### Users -/

/-- The user has the name and the data of the section, with at most one source for each half of the
key. -/
structure User.DeclaredBy (name : String) (x : UserSection) (u : User) : Prop where
  name : u.name = name
  password : u.password? = x.password?
  publicKey : KeySource.ofPair? x.publicFile? x.publicText? = some u.publicKey
  privateKey : KeySource.ofPair? x.privateFile? x.privateText? = some u.privateKey
  uid : u.uid? = x.uid?
  gid : u.gid? = x.gid?

/-- The user has a password or a key. -/
def User.CanLogIn (u : User) : Prop :=
  u.password? ≠ none ∨ u.publicKey ≠ .absent ∨ u.privateKey ≠ .absent

namespace User

variable {path name : String} {x : UserSection} {u : User}

lemma hasLoginMethod_iff : u.hasLoginMethod = true ↔ u.CanLogIn := by
  have habsent {k : KeySource} : k.isAbsent = false ↔ k ≠ .absent := by
    cases k <;> simp [KeySource.isAbsent]
  simp [hasLoginMethod, CanLogIn, habsent, Option.isSome_iff_ne_none, or_assoc]

/-- What checking a user asks for, and what it gives. -/
lemma ofSection_eq_ok_iff :
    ofSection path name x = .ok u ↔
      isUserName name.toList = true ∧ u.DeclaredBy name x ∧ u.CanLogIn := by
  rw [← hasLoginMethod_iff]
  unfold ofSection
  simp only [Outcome.bind_eq_ok_iff, Outcome.throw_bind, Outcome.ite_throw_eq_ok_iff,
    Bool.not_eq_true', Bool.not_eq_false]
  constructor
  · rintro ⟨hname, publicKey, hpublic, privateKey, hprivate, h⟩
    split at h
    next hlogin =>
      obtain rfl := Outcome.pure_eq_ok_iff.1 h
      refine ⟨hname, ⟨rfl, rfl, ?_, ?_, rfl, rfl⟩, hlogin⟩
      · split at hpublic <;> simp_all
      · split at hprivate <;> simp_all
    next => simp at h
  · obtain ⟨name, password?, publicKey, privateKey, uid?, gid?⟩ := u
    rintro ⟨hname, ⟨rfl, rfl, hpublic, hprivate, rfl, rfl⟩, hlogin⟩
    refine ⟨hname, publicKey, ?_, privateKey, ?_, ?_⟩
    · rw [hpublic]
    · rw [hprivate]
    · rw [if_pos hlogin]
      rfl

lemma name_of_ofSection (h : ofSection path name x = .ok u) : u.name = name :=
  (ofSection_eq_ok_iff.1 h).2.1.name

end User

/-! ### SSH sections -/

namespace Ssh

variable {path : String} {x : SshSection} {s : Ssh}

/-- What checking a section asks for, and what it gives. -/
lemma ofSection_eq_ok_iff :
    ofSection path x = .ok s ↔
      x.users.entries.mapM (fun (name, u) =>
        User.ofSection (FieldPath.below (FieldPath.below path "users") name) name u) = .ok s.users ∧
      (s.enabled = true → s.users ≠ []) ∧
      s.enabled = x.enabled ∧ s.port = x.port ∧ s.hostPort? = x.hostPort? := by
  unfold ofSection
  simp only [Outcome.bind_eq_ok_iff, Outcome.throw_bind, Outcome.ite_throw_eq_ok_iff,
    Outcome.pure_eq_ok_iff, Bool.and_eq_true, List.isEmpty_iff, not_and]
  constructor
  · rintro ⟨users, husers, hinhabited, rfl⟩
    exact ⟨husers, hinhabited, rfl, rfl, rfl⟩
  · obtain ⟨enabled, port, hostPort?, users⟩ := s
    rintro ⟨husers, hinhabited, rfl, rfl, rfl⟩
    exact ⟨users, husers, hinhabited, rfl⟩

lemma users_of_ofSection (h : ofSection path x = .ok s) :
    x.users.entries.mapM (fun (name, u) =>
      User.ofSection (FieldPath.below (FieldPath.below path "users") name) name u) = .ok s.users :=
  (ofSection_eq_ok_iff.1 h).1

/-- What users take from their sections they have in the order of the sections. -/
lemma map_users_of_ofSection {γ : Type} {f : User → γ} {g : String × UserSection → γ}
    (hf : ∀ name x u, u.DeclaredBy name x → f u = g (name, x)) (h : ofSection path x = .ok s) :
    s.users.map f = x.users.entries.map g :=
  Outcome.map_eq_of_mapM (fun _ _ hu => hf _ _ _ (User.ofSection_eq_ok_iff.1 hu).2.1)
    (users_of_ofSection h)

/-- The users are those of the section, in order. -/
lemma names_of_ofSection (h : ofSection path x = .ok s) : s.users.map User.name = x.users.keys :=
  map_users_of_ofSection (fun _ _ _ hu => hu.name) h

end Ssh

/-! ### Stages -/

/-- The stage is what the section of a document says, and keeps to what is checked. -/
structure StageSpec.CheckedFrom (stage : Stage) (x : StageSection) (s : StageSpec) : Prop where
  ssh : x.ssh?.mapM (Ssh.ofSection (stage.path "ssh")) = .ok s.ssh?
  environment : x.environment.environment (stage.path "environment") = .ok s.environment
  categories : checkCategories stage x.storage.keys = .ok ()
  ports : Port.normalizeAll (stage.path "ports") x.ports = .ok s.ports
  entryPoint : s.scripts.onEntry.length ≤ 1
  rest : s = { s with
    image := x.image?.getD .empty
    proxy := x.proxy?.getD .empty
    apt := x.apt?.getD .empty
    bakeEnvironment := x.bakeEnvironment
    device? := x.device?
    storage := x.storage
    mount := x.mount
    scripts := x.scripts?.getD .empty }

namespace StageSpec

variable {stage : Stage} {x : StageSection} {s : StageSpec}

/-- What checking a section asks for, and what it gives. -/
lemma ofSection_eq_ok_iff : ofSection stage x = .ok s ↔ s.CheckedFrom stage x := by
  unfold ofSection
  simp only [Outcome.bind_eq_ok_iff, Outcome.throw_bind, Outcome.ite_throw_eq_ok_iff,
    Outcome.pure_eq_ok_iff]
  constructor
  · rintro ⟨ssh?, hssh, environment, henv, ⟨⟩, hcategories, ports, hports, hlength, rfl⟩
    exact ⟨hssh, henv, hcategories, hports, Nat.le_of_not_lt hlength, rfl⟩
  · rintro ⟨hssh, henv, hcategories, hports, hlength, hrest⟩
    rw [hrest] at hlength
    exact ⟨_, hssh, _, henv, (), hcategories, _, hports, Nat.not_lt.2 hlength, hrest.symm⟩

/-- The SSH settings of a stage are those of its section. -/
lemma exists_ssh_of_ofSection {ssh : Ssh} (h : ofSection stage x = .ok s) (hmem : ssh ∈ s.ssh?) :
    ∃ y ∈ x.ssh?, Ssh.ofSection (stage.path "ssh") y = .ok ssh := by
  have hssh := (ofSection_eq_ok_iff.1 h).ssh
  cases hx : x.ssh? with
  | none =>
    rw [hx] at hssh
    obtain hnone := Except.ok.inj hssh
    simp [← hnone] at hmem
  | some y =>
    rw [hx] at hssh
    obtain ⟨ssh', hread, heq⟩ := Outcome.map_eq_ok_iff.1 hssh
    rw [← heq] at hmem
    obtain rfl := Option.some.inj hmem
    exact ⟨y, rfl, hread⟩

lemma mem_of_checkCategories {names : List String} (h : checkCategories stage names = .ok ()) :
    ∀ n ∈ names, n ∈ storageCategories := by
  unfold checkCategories at h
  split at h
  next => simp at h
  next hfind => simpa using hfind

end StageSpec

/-! ### Documents -/

/-- What checking a document asks for, and what it gives: the first stage has a section and an image
to start from, and the second one may be left out. -/
lemma Spec.ofDocument_eq_ok_iff {dir : Path} {d : Document} {s : Spec} :
    ofDocument dir d = .ok s ↔
      ∃ section₁ first second, d.first? = some section₁ ∧
        StageSpec.ofSection .first section₁ = .ok first ∧
        (d.second? = none ∧ second = .empty ∨ ∃ section₂, d.second? = some section₂ ∧
          StageSpec.ofSection .second section₂ = .ok second) ∧
        first.image.base?.isSome ∧
        s = {
          project := Project.of d.projectName? dir
          first := first.withOutput ((Project.of d.projectName? dir).defaultImage .first)
          second := second.withOutput ((Project.of d.projectName? dir).defaultImage .second)
          tree := d.tree
          source? := d.source? } := by
  have hbase {o : Option String} : ¬ o.isNone = true ↔ o.isSome = true := by cases o <;> simp
  unfold ofDocument
  cases d.first? with
  | none => simp
  | some section₁ =>
    cases d.second? with
    | none =>
      simp only [Outcome.bind_eq_ok_iff, Outcome.throw_bind, Outcome.ite_throw_eq_ok_iff,
        Outcome.pure_eq_ok_iff, hbase]
      constructor
      · rintro ⟨first, h₁, _, rfl, himage, rfl⟩
        exact ⟨section₁, first, .empty, rfl, h₁, .inl ⟨trivial, rfl⟩, himage, rfl⟩
      · rintro ⟨_, first, _, ⟨⟩, h₁, ⟨-, rfl⟩ | ⟨_, ⟨⟩, -⟩, himage, rfl⟩
        exact ⟨first, h₁, .empty, rfl, himage, rfl⟩
    | some section₂ =>
      simp only [Outcome.bind_eq_ok_iff, Outcome.throw_bind, Outcome.ite_throw_eq_ok_iff,
        Outcome.pure_eq_ok_iff, hbase]
      constructor
      · rintro ⟨first, h₁, second, h₂, himage, rfl⟩
        exact ⟨section₁, first, second, rfl, h₁, .inr ⟨section₂, rfl, h₂⟩, himage, rfl⟩
      · rintro ⟨_, first, second, ⟨⟩, h₁, ⟨⟨⟩, -⟩ | ⟨_, ⟨⟩, h₂⟩, himage, rfl⟩
        exact ⟨first, h₁, second, h₂, himage, rfl⟩

/-- The section of a stage, if the document has one. -/
def Document.section? (d : Document) : Stage → Option StageSection
  | .first  => d.first?
  | .second => d.second?

/-- Where a document was read from is no part of its sections. -/
@[simp]
lemma Document.section?_with_source (d : Document) (source? : Option Path) (stage : Stage) :
    ({ d with source? } : Document).section? stage = d.section? stage := by
  cases stage <;> rfl

namespace Spec

variable {dir : Path} {d : Document} {s : Spec}

/-- A stage is checked from its section, or left out with it. -/
lemma stage_of_ofDocument (h : ofDocument dir d = .ok s) (stage : Stage) :
    ∃ t image, s.stage stage = t.withOutput image ∧
      (d.section? stage = none ∧ t = .empty ∨
        ∃ x, d.section? stage = some x ∧ StageSpec.ofSection stage x = .ok t) := by
  obtain ⟨section₁, first, second, hfirst, h₁, hsecond, -, rfl⟩ := ofDocument_eq_ok_iff.1 h
  cases stage with
  | first => exact ⟨first, _, rfl, .inr ⟨section₁, hfirst, h₁⟩⟩
  | second => exact ⟨second, _, rfl, hsecond⟩

/-- The SSH settings of a stage are those of its section. -/
lemma exists_ssh_of_ofDocument (h : ofDocument dir d = .ok s) {stage : Stage} {settings : Ssh}
    (hssh : (s.stage stage).ssh? = some settings) :
    ∃ x ssh, d.section? stage = some x ∧ x.ssh? = some ssh ∧
      Ssh.ofSection (stage.path "ssh") ssh = .ok settings := by
  obtain ⟨t, image, heq, ⟨-, rfl⟩ | ⟨x, hx, hread⟩⟩ := stage_of_ofDocument h stage
  · simp [heq, StageSpec.withOutput, StageSpec.empty] at hssh
  · rw [heq] at hssh
    obtain ⟨ssh, hsection, hchecked⟩ := StageSpec.exists_ssh_of_ofSection hread hssh
    exact ⟨x, ssh, hx, hsection, hchecked⟩

end Spec

end TwoStage
