import TwoStage.Proofs.Document.Characters
import TwoStage.Proofs.Spec.Strings

/-!
# Checked documents are well formed

What a document has to keep to is checked in many places, and the rest of the program relies on all
of it at once. Here the checks of a stage, of its variables, ports and users and the slug of the
project are put together into one property of the checked document. The other way round, a document
is refused when one of its users has two sources for one half of a key.
-/

namespace TwoStage

open Text Yaml

/-! ### The name of the project -/

/-- The name is made of slug characters, with no dash at either end. -/
structure Project.WellNamed (p : Project) : Prop where
  nonempty : p.name ≠ ""
  chars : ∀ c ∈ p.name.toList, isSlugChar c = true
  head : p.name.toList.head? ≠ some '-'
  last : p.name.toList.getLast? ≠ some '-'

/-- A slug that is empty gives way to a name that is none. -/
lemma Project.wellNamed_of (configured : Option String) (dir : Path) :
    (Project.of configured dir).WellNamed := by
  rw [Project.of, ofName]
  split
  next =>
    have hchars : fallbackName.toList.all isSlugChar = true := by decide
    exact ⟨by decide, List.all_eq_true.1 hchars, by decide, by decide⟩
  next hne =>
    refine ⟨hne, fun c hc => isSlugChar_of_mem_slug hc, ?_, ?_⟩
    · rw [slug, String.toList_ofList]
      exact head?_stripChar_ne _ _
    · rw [slug, String.toList_ofList]
      exact getLast?_stripChar_ne _ _

/-! ### Ports -/

namespace Port

/-- The port is in the form that the entries of a document are brought into. -/
def IsNormal (port : String) : Prop := ∀ path, normalize path port = .ok (some port)

/-- The form of an entry is in its own form. -/
lemma normalizeTrimmed_of_normalizeTrimmed {entry port : List Char}
    (hentry : trimBoth entry = entry) (h : normalizeTrimmed entry = .ok (some port)) :
    trimBoth port = port ∧ normalizeTrimmed port = .ok (some port) := by
  have hnot {cs : List Char} (hcolon : ':' ∉ cs) : ':' ∉ trimBoth cs :=
    fun h => hcolon ((trimBoth_isInfix cs).subset h)
  cases normalizeTrimmed_eq_ok_iff.1 h with
  | bare => exact ⟨hentry, h⟩
  | kept => exact ⟨hentry, h⟩
  | @dropped host container hvacant hcolon hne =>
    exact ⟨trimBoth_trimBoth container, normalizeTrimmed_eq_ok_iff.2 (.bare hne (hnot hcolon))⟩
  | @joined host container hsingle hoccupied hcolon hne =>
    refine ⟨trimBoth_seam hoccupied hne, normalizeTrimmed_eq_ok_iff.2 ?_⟩
    have hform := @Form.joined (trimBoth host) (trimBoth container) (hnot hsingle)
      (by rwa [trimBoth_trimBoth]) (hnot hcolon) (by rwa [trimBoth_trimBoth])
    rwa [trimBoth_trimBoth, trimBoth_trimBoth] at hform

lemma isNormal_of_normalize {path entry port : String}
    (h : normalize path entry = .ok (some port)) : IsNormal port := by
  obtain ⟨htrim, hform⟩ :=
    normalizeTrimmed_of_normalizeTrimmed (trimBoth_trimBoth _) (normalize_eq_some_iff.1 h)
  intro path
  exact normalize_eq_some_iff.2 (by rwa [htrim])

lemma isNormal_of_normalizeFrom {path : String} {i : Nat} {es ps : List String}
    (h : normalizeFrom path i es = .ok ps) : ∀ p ∈ ps, IsNormal p := by
  induction es generalizing i ps with
  | nil =>
    obtain rfl := Except.ok.inj h
    simp
  | cons e es ih =>
    obtain ⟨port, hport, h⟩ := Outcome.bind_eq_ok_iff.1 h
    obtain ⟨ports, hports, h⟩ := Outcome.bind_eq_ok_iff.1 h
    obtain rfl := Outcome.pure_eq_ok_iff.1 h
    refine List.forall_mem_append.2 ⟨fun p hp => ?_, ih hports⟩
    obtain rfl := Option.mem_toList.1 hp
    exact isNormal_of_normalize hport

end Port

/-! ### Names of variables -/

lemma EnvironmentSection.nodup_of_environment {path : String} {e : EnvironmentSection}
    {env : Environment} (h : e.environment path = .ok env) : env.keys.Nodup := by
  cases e with
  | list entries =>
    obtain ⟨es, -, rfl⟩ := Outcome.map_eq_ok_iff.1 h
    exact OrderedMap.nodup_keys_ofList es
  | mapping entries =>
    obtain ⟨es, -, rfl⟩ := Outcome.map_eq_ok_iff.1 h
    exact OrderedMap.nodup_keys_ofList es

/-- A stage sets no variable twice. -/
lemma Spec.nodup_environment {dir : Path} {d : Document} {s : Spec}
    (h : ofDocument dir d = .ok s) (stage : Stage) : (s.stage stage).environment.keys.Nodup := by
  obtain ⟨t, image, heq, ⟨-, rfl⟩ | ⟨x, -, hread⟩⟩ := stage_of_ofDocument h stage
  · rw [heq]
    exact List.nodup_nil
  · have hchecked := StageSpec.ofSection_eq_ok_iff.1 hread
    rw [heq]
    exact EnvironmentSection.nodup_of_environment hchecked.environment

/-! ### Users -/

/-- The user has a file and a text for one half of the key. -/
def UserSection.HasTwoSources (x : UserSection) : Prop :=
  (x.publicFile? ≠ none ∧ x.publicText? ≠ none) ∨ (x.privateFile? ≠ none ∧ x.privateText? ≠ none)

instance : DecidablePred UserSection.HasTwoSources := fun _ => inferInstanceAs (Decidable (_ ∨ _))

lemma KeySource.ofPair?_eq_none_iff {file text : Option String} :
    ofPair? file text = none ↔ file ≠ none ∧ text ≠ none := by
  cases file <;> cases text <;> simp [ofPair?]

lemma User.DeclaredBy.not_hasTwoSources {name : String} {x : UserSection} {u : User}
    (h : u.DeclaredBy name x) : ¬ x.HasTwoSources := by
  unfold UserSection.HasTwoSources
  rw [← KeySource.ofPair?_eq_none_iff, ← KeySource.ofPair?_eq_none_iff, h.publicKey, h.privateKey]
  simp

/-! ### SSH sections -/

/-- The users are those of the section in their order, with different names, and each of them can
log in; there is one if the server is enabled. -/
structure Ssh.WellFormed (x : SshSection) (s : Ssh) : Prop where
  declared : List.Forall₂ (fun e u => User.DeclaredBy e.1 e.2 u) x.users.entries s.users
  distinct : (s.users.map User.name).Nodup
  names : ∀ u ∈ s.users, isUserName u.name.toList = true
  login : ∀ u ∈ s.users, u.CanLogIn
  inhabited : s.enabled = true → s.users ≠ []

lemma Ssh.wellFormed_of_ofSection {path : String} {x : SshSection} {s : Ssh}
    (hkeys : x.users.keys.Nodup) (h : ofSection path x = .ok s) : s.WellFormed x := by
  have husers := Outcome.mapM_eq_ok_iff.1 (users_of_ofSection h)
  have hchecked {u : User} (hu : u ∈ s.users) :
      isUserName u.name.toList = true ∧ u.CanLogIn := by
    obtain ⟨e, -, hread⟩ := Outcome.exists_of_mem_mapM (users_of_ofSection h) hu
    obtain ⟨hname, hdeclared, hlogin⟩ := User.ofSection_eq_ok_iff.1 hread
    exact ⟨hdeclared.name ▸ hname, hlogin⟩
  refine ⟨husers.imp fun _ _ hread => (User.ofSection_eq_ok_iff.1 hread).2.1, ?_,
    fun u hu => (hchecked hu).1, fun u hu => (hchecked hu).2,
    (ofSection_eq_ok_iff.1 h).2.1⟩
  rw [names_of_ofSection h]
  exact hkeys

/-! ### Stages -/

/-- What a checked stage keeps to, given the section that it was made from. -/
structure StageSpec.WellFormed (section? : Option StageSection) (s : StageSpec) : Prop where
  output : s.image.output? ≠ none
  names : ∀ name ∈ s.environment.keys, isVariableName name.toList = true
  once : s.environment.keys.Nodup
  ports : ∀ port ∈ s.ports, Port.IsNormal port
  storage : ∀ key ∈ s.storage.keys, key ∈ storageCategories
  entryPoint : s.scripts.onEntry.length ≤ 1
  ssh : ∀ ssh ∈ s.ssh?, ∃ x ∈ section?.bind StageSection.ssh?, ssh.WellFormed x

lemma stable_true : Stable fun _ => True := by
  constructor <;> (intros; trivial)

namespace StageSpec

/-- A checked section is well formed once its image has a name. That every text of the section has
the trivial property says no more than that its users have different names. -/
lemma wellFormed_withOutput {stage : Stage} {x : StageSection} {s : StageSpec}
    (hx : x.Holds (OnChars fun _ => True)) (h : ofSection stage x = .ok s) (image : String) :
    (s.withOutput image).WellFormed (some x) := by
  have hs := holds_of_ofSection stable_true hx h
  have hchecked := ofSection_eq_ok_iff.1 h
  constructor
  case output => simp [withOutput]
  case names =>
    intro name hname
    obtain ⟨v, hv, rfl⟩ := List.mem_map.1 hname
    exact (hs.environment v hv).1
  case once => exact EnvironmentSection.nodup_of_environment hchecked.environment
  case ports => exact Port.isNormal_of_normalizeFrom hchecked.ports
  case storage =>
    intro key hkey
    obtain ⟨e, he, rfl⟩ := List.mem_map.1 hkey
    exact (hs.storage e he).1
  case entryPoint => exact hchecked.entryPoint
  case ssh =>
    intro ssh hssh
    obtain ⟨y, hy, hread⟩ := exists_ssh_of_ofSection h hssh
    exact ⟨y, hy, Ssh.wellFormed_of_ofSection (hx.ssh y hy).distinct hread⟩

lemma wellFormed_empty (image : String) : (empty.withOutput image).WellFormed none := by
  constructor <;> simp [withOutput, empty, OrderedMap.keys, OrderedMap.empty, Scripts.empty]

/-- A stage with a user who has two sources for one half of the key is refused. -/
lemma exists_error_of_hasTwoSources {stage : Stage} {x : StageSection} {ssh : SshSection}
    {e : String × UserSection} (hssh : ssh ∈ x.ssh?) (he : e ∈ ssh.users.entries)
    (htwo : e.2.HasTwoSources) : ∃ err, ofSection stage x = .error err := by
  cases hread : ofSection stage x with
  | error err => exact ⟨err, rfl⟩
  | ok s =>
    have hsection := (ofSection_eq_ok_iff.1 hread).ssh
    rw [Option.mem_def.1 hssh] at hsection
    obtain ⟨checked, hchecked, -⟩ := Outcome.map_eq_ok_iff.1 hsection
    obtain ⟨u, -, hu⟩ := Outcome.exists_result_of_mem (Ssh.users_of_ofSection hchecked) he
    exact absurd htwo (User.ofSection_eq_ok_iff.1 hu).2.1.not_hasTwoSources

end StageSpec

/-! ### Documents -/

/-- The project has a proper name, the first stage something to build on, and both stages are well
formed. -/
structure Spec.WellFormed (d : Document) (s : Spec) : Prop where
  project : s.project.WellNamed
  base : s.first.image.base? ≠ none
  stage : ∀ stage, (s.stage stage).WellFormed (d.section? stage)

lemma Spec.wellFormed_of_ofDocument {dir : Path} {d : Document} {s : Spec}
    (hd : d.Holds (OnChars fun _ => True)) (h : ofDocument dir d = .ok s) : s.WellFormed d := by
  obtain ⟨section₁, first, second, -, -, -, hbase, heq⟩ := ofDocument_eq_ok_iff.1 h
  refine ⟨heq ▸ Project.wellNamed_of _ _, heq ▸ Option.isSome_iff_ne_none.1 hbase, fun stage => ?_⟩
  obtain ⟨t, image, hstage, ⟨hnone, rfl⟩ | ⟨x, hsome, hread⟩⟩ := stage_of_ofDocument h stage
  · rw [hstage, hnone]
    exact StageSpec.wellFormed_empty image
  · rw [hstage, hsome]
    have hx : x.Holds (OnChars fun _ => True) := by
      cases stage with
      | first => exact hd.first x hsome
      | second => exact hd.second x hsome
    exact StageSpec.wellFormed_withOutput hx hread image

/-- A document is refused when the section of a stage is. -/
lemma Spec.exists_error_of_ofSection {dir : Path} {d : Document} {stage : Stage} {x : StageSection}
    (hsection : d.section? stage = some x) (h : ∃ err, StageSpec.ofSection stage x = .error err) :
    ∃ err, ofDocument dir d = .error err := by
  obtain ⟨err, herr⟩ := h
  cases hread : ofDocument dir d with
  | error err => exact ⟨err, rfl⟩
  | ok s =>
    obtain ⟨section₁, first, second, hfirst, h₁, hsecond, -, -⟩ := ofDocument_eq_ok_iff.1 hread
    cases stage with
    | first =>
      obtain rfl : section₁ = x := Option.some.inj (hfirst.symm.trans hsection)
      exact absurd (h₁.symm.trans herr) (by simp)
    | second =>
      change d.second? = some x at hsection
      rcases hsecond with ⟨hnone, -⟩ | ⟨section₂, hsome, h₂⟩
      · simp [hnone] at hsection
      · obtain rfl : section₂ = x := Option.some.inj (hsome.symm.trans hsection)
        exact absurd (h₂.symm.trans herr) (by simp)

/-- A document that was read and passes the checks is well formed, in every directory; and it does
not pass them if a user in a stage has two sources for one half of the key. -/
theorem Spec.wellFormed_of_ofText {vars : String → Option String} {text : String} {d : Document}
    (hread : Document.ofText vars text = .ok d) (dir : Path) (source? : Option Path) :
    (∀ s, ofDocument dir { d with source? } = .ok s → s.WellFormed d) ∧
      ∀ stage x ssh e, d.section? stage = some x → ssh ∈ x.ssh? → e ∈ ssh.users.entries →
        e.2.HasTwoSources → (∃ err, StageSpec.ofSection stage x = .error err) ∧
          ∃ err, ofDocument dir { d with source? } = .error err := by
  have hd : d.Holds (OnChars fun _ => True) :=
    Document.holds_of_ofText hread (fun _ => trivial) fun _ _ => trivial
  constructor
  · intro s h
    have hs := wellFormed_of_ofDocument (d := { d with source? }) ⟨hd.first, hd.second⟩ h
    refine ⟨hs.project, hs.base, fun stage => ?_⟩
    cases stage with
    | first => exact hs.stage .first
    | second => exact hs.stage .second
  · intro stage x ssh e hsection hssh he htwo
    have herr : ∃ err, StageSpec.ofSection stage x = .error err :=
      StageSpec.exists_error_of_hasTwoSources hssh he htwo
    exact ⟨herr, exists_error_of_ofSection (by cases stage <;> exact hsection) herr⟩

/-- A document with both forms of variables is well formed, and one whose only user has both a file
and a text for the public key is refused. -/
theorem Spec.wellFormed_of_two_stages :
    (∃ d s, Document.ofText (fun _ => none)
      ("stage_1:\n image: \x7bbase: a\x7d\n environment: ['A = 1', 'A=2']\n" ++
        " ports: [' 80 : 90 ', ':22', '::']\n ssh:\n  users:\n   b: \x7bpassword: p\x7d\n" ++
        "   a: \x7bpubkey_text: k\x7d\nstage_2:\n environment: \x7bB_1: null\x7d\n" ++
        " storage: \x7bapp: \x7btype: image\x7d\x7d\n custom: \x7bon_entry: [run.sh]\x7d") =
        .ok d ∧
      ofDocument (Path.ofString "/--My App!") d = .ok s ∧ s.project.name = "my-app" ∧
      s.first.ports = ["80:90", "22"] ∧ s.WellFormed d) ∧
    ∃ d err, Document.ofText (fun _ => none)
      ("stage_1:\n image: \x7bbase: a\x7d\n ssh:\n  users:\n" ++
        "   a: \x7bpubkey_file: f, pubkey_text: k\x7d") =
        .ok d ∧ ofDocument (Path.ofString "/p") d = .error err := by
  constructor
  · have hrun : ((Document.ofText (fun _ => none)
        ("stage_1:\n image: \x7bbase: a\x7d\n environment: ['A = 1', 'A=2']\n" ++
          " ports: [' 80 : 90 ', ':22', '::']\n ssh:\n  users:\n   b: \x7bpassword: p\x7d\n" ++
          "   a: \x7bpubkey_text: k\x7d\nstage_2:\n environment: \x7bB_1: null\x7d\n" ++
          " storage: \x7bapp: \x7btype: image\x7d\x7d\n custom: \x7bon_entry: [run.sh]\x7d")
        ).toOption.bind fun d => (ofDocument (Path.ofString "/--My App!") d).toOption.map fun s =>
          decide (s.project.name = "my-app" ∧ s.first.ports = ["80:90", "22"])) = some true := by
      rw [Document.ofText_eq_ofChars, String.toList_append, String.toList_append,
        String.toList_append, String.toList_ofList, String.toList_ofList, String.toList_ofList,
        String.toList_ofList]
      decide +kernel
    obtain ⟨d, hd, hrun⟩ := Outcome.toOption_bind_eq_some_iff.1 hrun
    obtain ⟨s, hs, hrun⟩ := Outcome.toOption_map_eq_some_iff.1 hrun
    obtain ⟨hname, hports⟩ := of_decide_eq_true hrun
    exact ⟨d, s, hd, hs, hname, hports, (wellFormed_of_ofText hd _ d.source?).1 s hs⟩
  · have hrun : ((Document.ofText (fun _ => none)
        ("stage_1:\n image: \x7bbase: a\x7d\n ssh:\n  users:\n" ++
          "   a: \x7bpubkey_file: f, pubkey_text: k\x7d")
        ).toOption.bind fun d => (d.section? .first).bind fun x => x.ssh?.bind fun ssh =>
          ssh.users.entries.head?.map fun e => decide e.2.HasTwoSources) = some true := by
      rw [Document.ofText_eq_ofChars, String.toList_append, String.toList_ofList,
        String.toList_ofList]
      decide +kernel
    obtain ⟨d, hd, hrun⟩ := Outcome.toOption_bind_eq_some_iff.1 hrun
    obtain ⟨x, hx, hrun⟩ := Option.bind_eq_some_iff.1 hrun
    obtain ⟨ssh, hssh, hrun⟩ := Option.bind_eq_some_iff.1 hrun
    obtain ⟨e, he, hrun⟩ := Option.map_eq_some_iff.1 hrun
    obtain ⟨-, err, herr⟩ := (wellFormed_of_ofText hd (Path.ofString "/p") d.source?).2 .first
      x ssh e hx hssh (List.mem_of_mem_head? he) (of_decide_eq_true hrun)
    exact ⟨d, err, hd, herr⟩

end TwoStage
