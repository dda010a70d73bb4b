import TwoStage.Proofs.Artifact.Paths
import TwoStage.Proofs.Document.Characters
import TwoStage.Proofs.Layout.Shape

/-!
# What is emitted

A compilation that can be rendered can be emitted: its compose file can be written, and what the
build script needs of it is there. Every file that is emitted is kept, below no other one and where
it belongs, the key files of the users among them; and those with private keys are the secret ones.
-/

namespace TwoStage

open Text Yaml

/-! ### Emission succeeds -/

namespace Emission

variable {tree : Tree} {stage : Stage} {names : List String} {name s : String}

lemma exists_composeFile (h : tree.TextKeyed) : ∃ a, composeFile tree = .ok a := by
  have hwrite : Template.write tree = .ok (Yaml.write tree) := by
    rw [Template.write, write?, if_pos (h.isWritable false)]
  exact ⟨_, Outcome.map_eq_ok_iff.2 ⟨_, hwrite, rfl⟩⟩

lemma serviceField?_eq_some {t : Tree}
    (hnames : split '.' ("services." ++ stage.label ++ "." ++ name) = names)
    (h : tree.Has names t) : serviceField? tree stage name = some t := by
  rw [serviceField?, Template.get?, hnames]
  exact h.walk?_eq

lemma serviceText_eq_ok (h : serviceField? tree stage name = some (.text s)) :
    serviceText tree stage name = .ok s := by
  rw [serviceText, h]
  rfl

/-! ### Files and directories -/

variable {users : List String} {names' : List String}

/-- No name of a file in the directory of the project is that of a stage's directory, and none in
there that of the directory of keys. -/
lemma ne_of_directories : (∀ owner : Stage, composeName ≠ owner.label) ∧
    (∀ owner : Stage, buildScriptName ≠ owner.label) ∧ ∀ n ∈ bakedNames, n ≠ "ssh" := by
  refine ⟨fun owner => ?_, fun owner => ?_, by decide⟩
  all_goals cases owner <;> decide

/-- No file is in the place of a directory of another one. -/
lemma eq_of_isPrefix_projectNames (h : names ∈ projectNames stage users)
    (h' : names' ∈ projectNames stage users) (hp : names <+: names') : names = names' := by
  obtain ⟨hcompose, hbuild, hssh⟩ := ne_of_directories
  have hlength := hp.length_le
  -- fewer names would end at a file where more names go on through a directory
  rcases mem_projectNames_cases h with rfl | rfl | ⟨owner, n, hn, rfl⟩ | ⟨user, -, n, -, rfl⟩ <;>
    rcases mem_projectNames_cases h' with
      rfl | rfl | ⟨owner', n', hn', rfl⟩ | ⟨user', -, n', -, rfl⟩ <;>
    simp_all [Credentials.keyDirNames, List.cons_prefix_cons]

end Emission

namespace Path

variable {names names' : List String}

lemma components_ofNames (hne : names ≠ []) (h : ∀ n ∈ names, IsName n) :
    (ofNames names).components = names.map fun n => .name n.toList := by
  rw [(GoesDown.ofNames hne h).components_eq, ofNames, List.map_map]
  rfl

lemma ofNames_startsWith_iff (hne : names ≠ []) (h : ∀ n ∈ names, IsName n) (hne' : names' ≠ [])
    (h' : ∀ n ∈ names', IsName n) :
    (ofNames names).startsWith (ofNames names') = true ↔ names' <+: names := by
  rw [startsWith, components_ofNames hne h, components_ofNames hne' h',
    List.isPrefixOf_iff_prefix, List.prefix_map_iff_of_injective]
  exact fun n n' heq => String.toList_inj.1 (Component.name.inj heq)

/-- The path leads below a directory, by the names on it. -/
structure IsBelow (p dir : Path) : Prop where
  startsWith : p.startsWith dir = true
  ne : p.same dir = false

end Path

namespace Compilation

open Emission

variable {ctx : Context} {generator : Generator} {d : Document} {c : Compilation}
  {vars : String → Option String} {text : String} {source? : Option Path} {tree : Tree}
  {items : List Artifact} {a : Artifact}

lemma Prepared.exists_buildWords (h : Prepared ctx generator { d with source? } c)
    (hread : Document.ofText vars text = .ok d) (hrender : Layout.render c = .ok tree)
    (stage : Stage) : ∃ words, buildWords tree stage = .ok words := by
  obtain ⟨⟨image, himage⟩, ⟨dockerfile, hdockerfile⟩, ⟨context, hcontext⟩⟩ :=
    Layout.exists_serviceTexts h hread hrender stage
  refine ⟨_, Outcome.bind_eq_ok_iff.2 ⟨dockerfile, ?_, Outcome.bind_eq_ok_iff.2 ⟨image, ?_,
    Outcome.bind_eq_ok_iff.2 ⟨context, ?_, rfl⟩⟩⟩⟩
  · exact serviceText_eq_ok (serviceField?_eq_some (by cases stage <;> decide) hdockerfile)
  · exact serviceText_eq_ok (serviceField?_eq_some (by cases stage <;> decide) himage)
  · exact serviceText_eq_ok (serviceField?_eq_some (by cases stage <;> decide) hcontext)

/-- Whatever is rendered can be emitted. -/
lemma Prepared.exists_files (h : Prepared ctx generator { d with source? } c)
    (hread : Document.ofText vars text = .ok d) (hrender : Layout.render c = .ok tree) :
    ∃ items, files c tree = .ok items := by
  obtain ⟨compose, hcompose⟩ := exists_composeFile (Layout.textKeyed_of_render hrender)
  obtain ⟨build, hbuild⟩ : ∃ build, buildFiles c tree = .ok build := by
    cases hmode : c.mode with
    | compose => exact ⟨_, buildFiles_eq_ok_iff.2 (.inl ⟨hmode, rfl⟩)⟩
    | singleArtifact =>
      choose words hwords using h.exists_buildWords hread hrender
      have hscript : ∃ script, buildScript tree = .ok script :=
        ⟨_, Outcome.bind_eq_ok_iff.2 ⟨_, Outcome.mapM_eq_map fun stage _ => hwords stage, rfl⟩⟩
      obtain ⟨script, hscript⟩ := hscript
      exact ⟨_, buildFiles_eq_ok_iff.2 (.inr ⟨hmode, script, hscript, rfl⟩)⟩
  exact ⟨_, files_eq_ok_iff.2 ⟨compose, hcompose, build, hbuild, rfl⟩⟩

/-- No file stands in the place of another one, or of a directory of another one. -/
lemma Prepared.apart (h : Prepared ctx generator { d with source? } c)
    (hread : Document.ofText vars text = .ok d) (hfiles : files c tree = .ok items) :
    items.Pairwise fun a b =>
      a.path.startsWith b.path = false ∧ b.path.startsWith a.path = false := by
  obtain ⟨stage, users, hnodup, hnames, hsublist⟩ := h.exists_sublist_files hread hfiles
  have hisName := isName_of_mem_projectNames stage hnames
  have hpaths : (items.map Artifact.path).Pairwise fun p q =>
      p.startsWith q = false ∧ q.startsWith p = false := by
    refine List.Pairwise.sublist hsublist (List.pairwise_map.2 ?_)
    refine (nodup_projectNames stage hnodup).imp_of_mem fun {names names'} hn hn' hne => ?_
    obtain ⟨hfull, hall⟩ := hisName names hn
    obtain ⟨hfull', hall'⟩ := hisName names' hn'
    rw [← Bool.not_eq_true, ← Bool.not_eq_true, Path.ofNames_startsWith_iff hfull hall hfull' hall',
      Path.ofNames_startsWith_iff hfull' hall' hfull hall]
    exact ⟨fun hp => hne (eq_of_isPrefix_projectNames hn' hn hp).symm,
      fun hp => hne (eq_of_isPrefix_projectNames hn hn' hp)⟩
  exact List.pairwise_map.1 hpaths

/-- Every file is the compose file, the build script or below the directory of a stage. -/
lemma Prepared.placed (h : Prepared ctx generator { d with source? } c)
    (hread : Document.ofText vars text = .ok d) (hfiles : files c tree = .ok items) :
    ∀ a ∈ items, a.path = Path.ofString composeName ∨ a.path = Path.ofString buildScriptName ∨
      ∃ stage : Stage, a.path.IsBelow stage.generatedDir := by
  intro a ha
  obtain ⟨stage, users, hnodup, hnames, hsublist⟩ := h.exists_sublist_files hread hfiles
  obtain ⟨names, hmem, heq⟩ := List.mem_map.1 (hsublist.subset (List.mem_map_of_mem ha))
  obtain ⟨hne, hall⟩ := isName_of_mem_projectNames stage hnames names hmem
  have hbelow (owner : Stage) (rest : List String) (hrest : rest ≠ [])
      (heq' : names = [owner.label, generatedName] ++ rest) :
      a.path.IsBelow owner.generatedDir := by
    have hdir := owner.isName_of_mem_generatedNames
    rw [← heq, owner.generatedDir_eq]
    constructor
    · exact (Path.ofNames_startsWith_iff hne hall (by simp) hdir).2 (heq' ▸ List.prefix_append _ _)
    · rw [← Bool.not_eq_true, (Path.GoesDown.ofNames hne hall).same_iff (.ofNames (by simp) hdir),
        Path.ofNames_injective.eq_iff, heq']
      exact fun h => hrest (List.append_right_eq_self.1 h)
  rcases mem_projectNames_cases hmem with rfl | rfl | ⟨owner, n, -, rfl⟩ | ⟨user, -, n, -, rfl⟩
  · have hname : Path.IsName composeName := by decide
    exact .inl (heq.symm.trans hname.ofString_eq.symm)
  · have hname : Path.IsName buildScriptName := by decide
    exact .inr (.inl (heq.symm.trans hname.ofString_eq.symm))
  · exact .inr (.inr ⟨owner, hbelow owner [n] (by simp) rfl⟩)
  · exact .inr (.inr ⟨stage, hbelow stage ["ssh", user, n] (by simp) rfl⟩)

/-! ### Key files -/

/-- Every key file of a user is emitted, as a secret if it is a private key. -/
lemma mem_files_of_mem_users (hfiles : files c tree = .ok items) {u : KeyedUser} (hu : u ∈ c.users)
    {f : KeyFile} : (f ∈ u.authorized → keyFile .regular f ∈ items) ∧
      (u.privateKey? = some f ∨ u.hostKey? = some f → keyFile .secret f ∈ items) := by
  have hsubset := userFiles_subset hfiles hu
  constructor
  · intro hf
    exact hsubset (List.mem_append_left _ (List.mem_map_of_mem hf))
  · intro hf
    refine hsubset (List.mem_append_right _ (List.mem_map_of_mem ?_))
    simpa [eq_comm] using hf

/-- Only private keys of users are secret. -/
lemma exists_key_of_secret (hfiles : files c tree = .ok items) (ha : a ∈ items)
    (hsecret : a.mode = .secret) : ∃ u ∈ c.users, ∃ f,
      (u.privateKey? = some f ∨ u.hostKey? = some f) ∧ a = keyFile .secret f := by
  rcases mem_files_cases hfiles ha with ⟨_, rfl⟩ | ⟨_, rfl⟩ | ⟨stage, ha⟩ | ⟨u, hu, ha⟩
  · simp at hsecret
  · simp at hsecret
  · simp only [stageFiles, List.mem_append, List.mem_map, List.mem_cons, List.not_mem_nil,
      or_false] at ha
    rcases ha with (⟨hook, -, rfl⟩ | rfl | rfl) | ha
    · simp at hsecret
    · simp at hsecret
    · simp at hsecret
    · split at ha
      next =>
        obtain rfl := List.mem_singleton.1 ha
        simp at hsecret
      next => simp at ha
  · rcases List.mem_append.1 ha with ha | ha
    · obtain ⟨f, -, rfl⟩ := List.mem_map.1 ha
      simp [keyFile] at hsecret
    · obtain ⟨f, hf, rfl⟩ := List.mem_map.1 ha
      exact ⟨u, hu, f, by simpa [eq_comm] using hf, rfl⟩

end Compilation

/-- A file is found by its path if no two files have one path. -/
lemma Artifacts.get?_eq_of_mem {items : List Artifact} {a : Artifact}
    (hnodup : (items.map Artifact.path).Nodup) (hdown : ∀ a ∈ items, a.path.GoesDown)
    (ha : a ∈ items) : (Artifacts.mk items).get? a.path = some a := by
  obtain ⟨b, hb⟩ : ∃ b, (Artifacts.mk items).get? a.path = some b := by
    refine Option.isSome_iff_exists.1 (List.find?_isSome.2 ⟨a, ha, ?_⟩)
    exact ((hdown a ha).same_iff (hdown a ha)).2 rfl
  have hmem : b ∈ items := List.mem_of_find?_eq_some hb
  have hsame : b.path.same a.path = true := by
    have hfind : items.find? (fun a' => a'.path.same a.path) = some b := hb
    simpa using List.find?_some hfind
  rw [hb, List.inj_on_of_nodup_map hnodup hmem ha (((hdown b hmem).same_iff (hdown a ha)).1 hsame)]

/-! ### All that is emitted -/

namespace Emission

/-- The files are those that a compilation is to give: apart from each other, in the directories of
the project that they belong in, with every key file of a user among them, and secret where they are
private keys. -/
structure Complete (c : Compilation) (items : List Artifact) : Prop where
  apart : items.Pairwise fun a b =>
    a.path.startsWith b.path = false ∧ b.path.startsWith a.path = false
  relative : ∀ a ∈ items, a.path.absolute = false ∧ .parent ∉ a.path.components
  placed : ∀ a ∈ items, a.path = Path.ofString composeName ∨
    a.path = Path.ofString buildScriptName ∨ ∃ stage : Stage, a.path.IsBelow stage.generatedDir
  present : ∀ u ∈ c.users, ∀ f ∈ u.files,
    ((Artifacts.mk items).get? f.path).map Artifact.contents = some f.contents
  secret : ∀ a ∈ items, a.mode = .secret ↔ ∃ u ∈ c.users, ∃ f,
    (u.privateKey? = some f ∨ u.hostKey? = some f) ∧ a.path = f.path ∧ a.contents = f.contents

variable {ctx : Context} {generator : Generator} {d : Document} {c : Compilation}
  {vars : String → Option String} {text : String} {source? : Option Path} {tree : Tree}

/-- Whatever is rendered is emitted, and all of it is kept as it was pushed. -/
theorem exists_complete_emit (hread : Document.ofText vars text = .ok d)
    (hprepare : Compilation.prepare ctx generator { d with source? } = .ok c)
    (hrender : Layout.render c = .ok tree) :
    ∃ items, files c tree = .ok items ∧ emit c tree = .ok ⟨items⟩ ∧ Complete c items := by
  have h := Compilation.prepared_of_prepare hprepare
  obtain ⟨items, hfiles⟩ := h.exists_files hread hrender
  obtain ⟨hnodup, hdown⟩ := h.paths_of_files hread hfiles
  have hemit : emit c tree = .ok ⟨items⟩ := by
    rw [emit, hfiles, Except.map, Artifacts.ofList_eq hnodup hdown]
  have hget {a : Artifact} (ha : a ∈ items) : (Artifacts.mk items).get? a.path = some a :=
    Artifacts.get?_eq_of_mem hnodup hdown ha
  refine ⟨items, hfiles, hemit, ?_⟩
  exact {
    apart := h.apart hread hfiles
    relative := fun a ha => ⟨(hdown a ha).relative, by simp [(hdown a ha).components_eq]⟩
    placed := h.placed hread hfiles
    present := fun u hu f hf => by
      obtain ⟨hauthorized, hprivate⟩ := Compilation.mem_files_of_mem_users hfiles hu (f := f)
      simp only [KeyedUser.files, List.mem_append, Option.mem_toList] at hf
      rcases hf with (hf | hf) | hf
      · exact congrArg _ (hget (hauthorized hf))
      · exact congrArg _ (hget (hprivate (.inl hf)))
      · exact congrArg _ (hget (hprivate (.inr hf)))
    secret := fun a ha => by
      constructor
      · intro hsecret
        obtain ⟨u, hu, f, hf, rfl⟩ := Compilation.exists_key_of_secret hfiles ha hsecret
        exact ⟨u, hu, f, hf, rfl, rfl⟩
      · rintro ⟨u, hu, f, hf, hpath, -⟩
        have hkey := (Compilation.mem_files_of_mem_users hfiles hu).2 hf
        rw [List.inj_on_of_nodup_map hnodup ha hkey hpath]
        rfl }

/-- A user with a password and no keys gets a new pair, and the private key of it is emitted. -/
theorem exists_complete_emit_of_new_pair : ∃ d c tree items,
    Document.ofText (fun _ => none)
      "stage_1:\n image:\n  base: a\n ssh:\n  users:\n   me:\n    password: p" = .ok d ∧
    Compilation.prepare .bare (.ofSecret [7]) { d with source? := none } = .ok c ∧
    Layout.render c = .ok tree ∧ files c tree = .ok items ∧ emit c tree = .ok ⟨items⟩ ∧
    Complete c items ∧ ∃ a ∈ items, a.mode = .secret := by
  have hrun : ((Document.ofText (fun _ => none)
      "stage_1:\n image:\n  base: a\n ssh:\n  users:\n   me:\n    password: p"
      ).toOption.bind fun d =>
      (Compilation.prepare .bare (.ofSecret [7]) { d with source? := none }).toOption.bind fun c =>
        (Layout.render c).toOption.bind fun tree =>
          (files c tree).toOption.map fun items => items.any fun a =>
            decide (a.mode = .secret)) = some true := by
    rw [Document.ofText_eq_ofChars, String.toList_ofList]
    decide +kernel
  obtain ⟨d, hd, hrun⟩ := Outcome.toOption_bind_eq_some_iff.1 hrun
  obtain ⟨c, hc, hrun⟩ := Outcome.toOption_bind_eq_some_iff.1 hrun
  obtain ⟨tree, htree, hrun⟩ := Outcome.toOption_bind_eq_some_iff.1 hrun
  obtain ⟨items, hitems, hrun⟩ := Outcome.toOption_map_eq_some_iff.1 hrun
  obtain ⟨a, ha, hkey⟩ := List.any_eq_true.1 hrun
  obtain ⟨items', hitems', hemit, hcomplete⟩ := exists_complete_emit hd hc htree
  obtain rfl := Except.ok.inj (hitems.symm.trans hitems')
  exact ⟨d, c, tree, items, hd, hc, htree, hitems, hemit, hcomplete, a, ha, of_decide_eq_true hkey⟩

end Emission

end TwoStage
