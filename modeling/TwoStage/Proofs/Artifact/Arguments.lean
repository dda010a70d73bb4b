import TwoStage.Proofs.Artifact.Emitted
import TwoStage.Proofs.Document.Characters
import TwoStage.Proofs.Files.Links
import TwoStage.Proofs.Layout.Arguments
import TwoStage.Proofs.Layout.Written

/-!
# Build arguments and artifacts

A build argument that names files names them as an image sees them, and every one of them is among
the artifacts of the compilation. The keys of a user are told apart by their names, so that the
private half of a new pair, which stays on the host, is in no argument that the compilation makes
up. It can only be in one where the text is the document's own.
-/

namespace TwoStage

open Text Decimal

/-! ### Paths as images see them -/

namespace Path

variable {names names' : List String}

/-- What an image sees of a path is the directory of the project and the names that lead on. -/
lemma toList_inContainer_ofNames (hne : names ≠ []) (h : ∀ n ∈ names, IsName n) :
    (ofNames names).inContainer.toList =
      containerRoot.toList ++ (names.map String.toList).flatMap ('/' :: ·) := by
  rw [inContainer, components_ofNames hne h, String.toList_append, String.toList_join]
  simp [List.flatMap_map, Component.text]

lemma inContainer_ofNames (hne : names ≠ []) (h : ∀ n ∈ names, IsName n) :
    (ofNames names).inContainer = containerRoot ++ "/" ++ (ofNames names).text := by
  apply String.toList_inj.1
  rw [toList_inContainer_ofNames hne h]
  obtain ⟨n, ns, rfl⟩ := List.exists_cons_of_ne_nil hne
  simp [text, toChars, ofNames, joinSegments_cons, String.toList_append]

/-- Different names are seen as different paths. -/
lemma inContainer_ofNames_inj (hne : names ≠ []) (h : ∀ n ∈ names, IsName n) (hne' : names' ≠ [])
    (h' : ∀ n ∈ names', IsName n)
    (heq : (ofNames names).inContainer = (ofNames names').inContainer) : names = names' := by
  have hchars := congrArg String.toList heq
  rw [toList_inContainer_ofNames hne h, toList_inContainer_ofNames hne' h',
    List.append_cancel_left_eq] at hchars
  have hsplit {ns : List String} (hns : ∀ n ∈ ns, IsName n) :
      splitAll '/' ((ns.map String.toList).flatMap ('/' :: ·)) = [] :: ns.map String.toList := by
    apply splitAll_append_flatMap [] (by simp)
    intro part hpart
    obtain ⟨n, hn, rfl⟩ := List.mem_map.1 hpart
    exact (hns n hn).noSlash
  have hparts := (hsplit h).symm.trans ((congrArg _ hchars).trans (hsplit h'))
  exact List.map_injective_iff.2 (fun _ _ => String.toList_inj.1) (List.cons.inj hparts).2

end Path

/-! ### Key files by their names -/

def authorizedNames : List String :=
  ["pubkey.pub", "privkey.pub", Credentials.generatedKeyName ++ ".pub"]

lemma keyFileNames_of_authorizedNames : ∀ n ∈ authorizedNames, n ∈ keyFileNames := by decide

lemma ne_generatedKeyName : ∀ n ∈ authorizedNames, n ≠ Credentials.generatedKeyName := by decide

/-- The files of a user, each under a name of its kind. -/
structure KeyedUser.Placed (stage : Stage) (u : KeyedUser) : Prop where
  name : isUserName u.name.toList = true
  authorized : ∀ f ∈ u.authorized, ∃ n ∈ authorizedNames,
    f.path = Path.ofNames (Credentials.keyDirNames stage u.name ++ [n])
  privateKey : ∀ f, u.privateKey? = some f →
    f.path = Path.ofNames (Credentials.keyDirNames stage u.name ++ ["privkey"])
  hostKey : ∀ f, u.hostKey? = some f →
    f.path = Path.ofNames (Credentials.keyDirNames stage u.name ++ [Credentials.generatedKeyName])

namespace Credentials

variable {ctx : Context} {generator : Generator} {stage : Stage} {u : User} {keyed : KeyedUser}
  {requests : List String}

/-- Neither commas nor colons stand in the names of users. -/
lemma notMem_of_isUserName {c : Char} (hc : c = ',' ∨ c = ':') {cs : List Char}
    (h : isUserName cs = true) : c ∉ cs := by
  have hfirst : (c.isAlpha || c == '_') = false := by rcases hc with rfl | rfl <;> decide
  have hother : (c.isAlphanum || c == '_' || c == '.' || c == '-') = false := by
    rcases hc with rfl | rfl <;> decide
  cases cs with
  | nil => simp
  | cons d cs =>
    simp only [isUserName, Bool.and_eq_true, List.all_eq_true] at h
    rw [List.mem_cons, not_or]
    constructor
    · rintro rfl
      exact absurd h.1 (by simp [hfirst])
    · intro hmem
      exact absurd (h.2 c hmem) (by simp [hother])

lemma placed_of_resolveUser (hname : isUserName u.name.toList = true)
    (h : resolveUser ctx generator stage u = .ok (keyed, requests)) : keyed.Placed stage := by
  have hchild {n : String} (hn : n ∈ keyFileNames) :=
    child_keyDir_eq stage (isName_of_isUserName hname) hn
  obtain ⟨given, half, fresh, hgiven, hhalf, hfresh, heq⟩ := resolveUser_eq_ok_iff.1 h
  obtain ⟨hhalf, hprivate⟩ := sublist_of_privateFiles hhalf
  obtain ⟨hfresh, hhost⟩ := sublist_of_freshFiles hfresh
  have hkeyed : keyed.name = u.name := name_of_resolveUser h
  have hpublic := ((sublist_of_publicFile hgiven).append hhalf).append hfresh
  constructor
  case name =>
    rw [hkeyed]
    exact hname
  case authorized =>
    intro f hf
    have hauthorized : f ∈ given ++ half ++ fresh := by
      rw [heq] at hf
      exact hf
    have hpath := hpublic.subset (by
      rw [← List.map_append, ← List.map_append]
      exact List.mem_map_of_mem hauthorized)
    have hdir : ∃ n ∈ authorizedNames, f.path = (keyDir stage u.name).child n := by
      simpa [authorizedNames] using hpath
    obtain ⟨n, hn, hf⟩ := hdir
    refine ⟨n, hn, ?_⟩
    rw [hf, hkeyed]
    exact hchild (keyFileNames_of_authorizedNames n hn)
  case privateKey =>
    intro f hf
    have hpath : f.path = (keyDir stage u.name).child "privkey" := by
      simpa using hprivate.subset (List.mem_map_of_mem (Option.mem_toList.2 hf))
    rw [hpath, hkeyed]
    exact hchild (by decide)
  case hostKey =>
    intro f hf
    have hpath : f.path = (keyDir stage u.name).child generatedKeyName := by
      simpa using hhost.subset (List.mem_map_of_mem (Option.mem_toList.2 hf))
    rw [hpath, hkeyed]
    exact hchild (by decide)

end Credentials

namespace KeyedUser.Placed

variable {stage : Stage} {u : KeyedUser} {f : KeyFile} {names : List String}

lemma isName (h : u.Placed stage) : Path.IsName u.name := Credentials.isName_of_isUserName h.name

lemma isName_of_mem (h : u.Placed stage) {n : String} (hn : n ∈ keyFileNames) :
    ∀ m ∈ Credentials.keyDirNames stage u.name ++ [n], Path.IsName m := by
  rw [List.forall_mem_append, List.forall_mem_singleton]
  exact ⟨Credentials.isName_of_mem_keyDirNames stage h.isName, isName_of_mem_keyFileNames n hn⟩

lemma notMem_of_mem (h : u.Placed stage) {c : Char} (hc : c = ',' ∨ c = ':') {n : String}
    (hn : n ∈ keyFileNames) :
    ∀ m ∈ Credentials.keyDirNames stage u.name ++ [n], c ∉ m.toList := by
  have hdirs : ∀ m ∈ [stage.label, generatedName, "ssh"], c ∉ m.toList := by
    rcases hc with rfl | rfl <;> cases stage <;> decide
  have hfiles : ∀ m ∈ keyFileNames, c ∉ m.toList := by rcases hc with rfl | rfl <;> decide
  simp only [List.forall_mem_cons] at hdirs
  simp only [Credentials.keyDirNames, List.cons_append, List.nil_append, List.forall_mem_cons]
  exact ⟨hdirs.1, hdirs.2.1, hdirs.2.2.1, Credentials.notMem_of_isUserName hc h.name, hfiles n hn,
    List.forall_mem_nil _⟩

/-- A path that ends in another name is not that of the private half of a new pair. -/
lemma inContainer_ne (h : u.Placed stage) (hf : u.hostKey? = some f) (hne : names ≠ [])
    (hnames : ∀ n ∈ names, Path.IsName n)
    (hlast : names.getLast? ≠ some Credentials.generatedKeyName) :
    f.path.inContainer ≠ (Path.ofNames names).inContainer := by
  intro heq
  rw [h.hostKey f hf] at heq
  have hsame := Path.inContainer_ofNames_inj (by simp) (h.isName_of_mem (by decide)) hne hnames heq
  rw [← hsame] at hlast
  simp at hlast

end KeyedUser.Placed

/-- A text without slashes has no path in it. -/
lemma Path.inContainer_notMem_split (p : Path) {value : String} (hvalue : '/' ∉ value.toList) :
    p.inContainer ∉ split ',' value := by
  apply notMem_split hvalue
  rw [inContainer, String.toList_append]
  exact List.mem_append_left _ (by decide)

/-- A path of names without commas or colons is seen without them. -/
lemma Path.notMem_inContainer {c : Char} (hc : c = ',' ∨ c = ':') {names : List String}
    (hne : names ≠ []) (h : ∀ n ∈ names, IsName n) (hnames : ∀ n ∈ names, c ∉ n.toList) :
    c ∉ (ofNames names).inContainer.toList := by
  have hroot : c ∉ '/' :: containerRoot.toList := by rcases hc with rfl | rfl <;> decide
  rw [List.mem_cons, not_or] at hroot
  rw [toList_inContainer_ofNames hne h, List.mem_append, not_or]
  refine ⟨hroot.2, ?_⟩
  intro hmem
  obtain ⟨part, hpart, hmem⟩ := List.mem_flatMap.1 hmem
  obtain ⟨n, hn, rfl⟩ := List.mem_map.1 hpart
  rcases List.mem_cons.1 hmem with hslash | hmem
  · exact hroot.1 hslash
  · exact hnames n hn hmem

namespace KeyedUser.Placed

variable {stage : Stage} {u : KeyedUser}

/-- The paths of the keys that let a user in, as an image sees them, have no commas. -/
lemma comma_notMem_authorizedPaths (h : u.Placed stage) :
    ∀ path ∈ BuildArguments.authorizedPaths u, ',' ∉ path.toList := by
  intro path hpath
  obtain ⟨f, hf, rfl⟩ := List.mem_map.1 hpath
  obtain ⟨n, hn, hnames⟩ := h.authorized f hf
  have hkey := keyFileNames_of_authorizedNames n hn
  rw [hnames]
  exact Path.notMem_inContainer (.inl rfl) (by simp) (h.isName_of_mem hkey)
    (h.notMem_of_mem (.inl rfl) hkey)

/-- Nor has that of the private half of a new pair a colon. -/
lemma colon_notMem_hostKey (h : u.Placed stage) {f : KeyFile} (hf : u.hostKey? = some f) :
    ':' ∉ f.path.inContainer.toList := by
  rw [h.hostKey f hf]
  exact Path.notMem_inContainer (.inr rfl) (by simp) (h.isName_of_mem (by decide))
    (h.notMem_of_mem (.inr rfl) (by decide))

end KeyedUser.Placed

/-- No path in the directory of the project is where a category of storage belongs. -/
lemma Path.inContainer_notMem_split_imageRoot (p : Path) :
    ∀ key ∈ storageCategories, p.inContainer ∉ split ',' (Storage.imageRoot ++ "/" ++ key) := by
  have hroot : ∀ key ∈ storageCategories, ∀ part ∈ split ',' (Storage.imageRoot ++ "/" ++ key),
      ¬ containerRoot.toList <+: part.toList := by
    decide
  intro key hkey hmem
  refine hroot key hkey _ hmem ?_
  rw [inContainer, String.toList_append]
  exact List.prefix_append _ _

/-! ### Lists of paths -/

namespace BuildArguments

/-- A list argument holds the texts, and there is none for no texts. -/
lemma split_listValue? {texts : List String} (h : ∀ t ∈ texts, ',' ∉ t.toList) :
    ((listValue? texts).map (split ',')).getD [] = texts := by
  cases texts with
  | nil => rfl
  | cons t ts =>
    have hkept : (t :: ts).flatMap (split ',') = t :: ts := by
      rw [List.flatMap_congr fun t ht => split_of_notMem (h t ht), List.flatMap_singleton']
    exact (split_commaSeparated (List.cons_ne_nil t ts)).trans hkept

lemma split_of_listValue?_eq_some {texts : List String} {value : String}
    (h : ∀ t ∈ texts, ',' ∉ t.toList) (hvalue : listValue? texts = some value) :
    split ',' value = texts := by
  have hsplit := split_listValue? h
  rw [hvalue] at hsplit
  exact hsplit

end BuildArguments

/-! ### The users of a stage -/

/-- The names of the users in the SSH section of a stage, in the order of the document. -/
def Document.userNames (d : Document) (stage : Stage) : List String :=
  (((d.section? stage).bind StageSection.ssh?).map fun ssh => ssh.users.keys).getD []

lemma Document.userNames_eq {d : Document} {stage : Stage} {x : StageSection} {ssh : SshSection}
    (hx : d.section? stage = some x) (hssh : x.ssh? = some ssh) :
    d.userNames stage = ssh.users.keys := by
  rw [userNames, hx, Option.bind_some, hssh, Option.map_some, Option.getD_some]

namespace Compilation

open Emission BuildArguments

def arguments (c : Compilation) (stage : Stage) : OrderedMap String String :=
  BuildArguments.of (c.view stage) c.users (c.mounts stage)

/-- The stage installs an SSH server with the given settings. -/
structure Installs (c : Compilation) (stage : Stage) (settings : Ssh) : Prop where
  inEffect : c.merged.ssh? = some ⟨stage, settings⟩
  enabled : settings.enabled = true

variable {ctx : Context} {generator : Generator} {d : Document} {c : Compilation}
  {vars : String → Option String} {text : String} {source? : Option Path} {tree : Yaml.Tree}
  {items : List Artifact} {stage : Stage} {settings : Ssh}

lemma installs_iff :
    c.Installs stage settings ↔ (c.view stage).ssh? = some settings ∧ settings.enabled = true := by
  have hview : (c.view stage).ssh? = StageView.sshOf c.merged stage := by cases stage <;> rfl
  have hinEffect : (c.view stage).ssh? = some settings ↔
      c.merged.ssh? = some ⟨stage, settings⟩ := by
    rw [hview, StageView.sshOf]
    simp only [Option.map_eq_some_iff, Option.filter_eq_some_iff, decide_eq_true_eq]
    constructor
    · rintro ⟨⟨owner, settings'⟩, ⟨hssh, rfl⟩, rfl⟩
      exact hssh
    · intro hssh
      exact ⟨_, ⟨hssh, rfl⟩, rfl⟩
  rw [hinEffect]
  exact ⟨fun h => ⟨h.inEffect, h.enabled⟩, fun h => ⟨h.1, h.2⟩⟩

/-- The users of a compilation are those that the document declares, in order. -/
lemma Prepared.map_name_users (h : Prepared ctx generator { d with source? } c)
    (hinstalls : c.Installs stage settings) : c.users.map KeyedUser.name = d.userNames stage := by
  obtain ⟨x, ssh, hx, hssh, hnames, -⟩ := h.exists_users hinstalls.inEffect hinstalls.enabled
  rw [hnames, Document.userNames_eq hx hssh]

/-- The files of every user stand where they belong. -/
lemma Prepared.exists_placed (h : Prepared ctx generator { d with source? } c)
    (hread : Document.ofText vars text = .ok d) {u : KeyedUser} (hu : u ∈ c.users) :
    ∃ stage, u.Placed stage := by
  obtain ⟨ssh, hssh, user, huser, requests, hresolve⟩ := h.exists_of_mem_users hu
  have hspec := h.spec_holds Settled.stable hread (Document.holds_settled_of_ofText hread)
  have hname := ((hspec.stage ssh.stage).users _ (h.installed hssh) user huser).name
  exact ⟨ssh.stage, Credentials.placed_of_resolveUser hname hresolve⟩

end Compilation

/-! ### What the arguments name -/

/-- The text is the path of an artifact as an image sees it. -/
def Artifacts.Shows (artifacts : Artifacts) (path : String) : Prop :=
  ∃ a ∈ artifacts.items, path = containerRoot ++ "/" ++ a.path.text

namespace Emission

open Compilation BuildArguments

/-- The build arguments of a stage name the artifacts that they are about. -/
structure Named (d : Document) (c : Compilation) (artifacts : Artifacts) (stage : Stage) :
    Prop where
  /-- The file of baked variables is named by a stage that bakes them, and by no other. -/
  bakes :
    ((c.arguments stage).get? bakedEnvironmentArgument).isSome = (c.view stage).bakeEnvironment
  baked : ∀ path, (c.arguments stage).get? bakedEnvironmentArgument = some path →
    artifacts.Shows path
  privateKey : ∀ i path, (c.arguments stage).get? (userName i "PRIVKEY_FILE") = some path →
    artifacts.Shows path
  publicKeys : ∀ i paths, (c.arguments stage).get? (userName i "PUBKEY_FILES") = some paths →
    ∀ path ∈ split ',' paths, artifacts.Shows path
  /-- The keys that let a user in are listed in order. There is no list for a user without any. -/
  authorized : ∀ settings, c.Installs stage settings → ∀ i u, c.users[i]? = some u →
    (((c.arguments stage).get? (userName i "PUBKEY_FILES")).map (split ',')).getD [] =
      u.authorized.map fun key => key.path.inContainer
  /-- Users are numbered from zero in the order in which they are declared. -/
  numbered : ∀ settings, c.Installs stage settings →
    (c.arguments stage).get? "SSH_USER_COUNT" = some (natText (d.userNames stage).length) ∧
      c.users.map KeyedUser.name = d.userNames stage ∧
      ∀ i, (c.arguments stage).get? (userName i "NAME") = (d.userNames stage)[i]?
  counted : ∀ i field value, (c.arguments stage).get? (userName i field) = some value →
    i < (d.userNames stage).length
  installs : ∀ name ∈ (c.arguments stage).keys, "SSH_".toList <+: name.toList →
    ∃ settings, c.Installs stage settings
  /-- Where the private half of a new pair stands is in no argument, unless it is in a text that the
  document itself writes into that argument. -/
  hostKey : ∀ u ∈ c.users, ∀ f, u.hostKey? = some f → ∀ name value,
    (c.arguments stage).get? name = some value → f.path.inContainer ∈ split ',' value →
      ∃ text, d.Writes stage name value text ∧ f.path.inContainer ∈ split ',' text

end Emission

namespace Artifacts

variable {items : List Artifact} {names : List String}

/-- An artifact that names lead to is shown. -/
lemma shows_of_mem {a : Artifact} (ha : a ∈ items) (hpath : a.path = Path.ofNames names)
    (hne : names ≠ []) (h : ∀ n ∈ names, Path.IsName n) :
    (Artifacts.mk items).Shows (Path.ofNames names).inContainer :=
  ⟨a, ha, by rw [hpath, Path.inContainer_ofNames hne h]⟩

end Artifacts

namespace Compilation.Prepared

open Emission BuildArguments

variable {ctx : Context} {generator : Generator} {d : Document} {c : Compilation}
  {vars : String → Option String} {text : String} {source? : Option Path} {tree : Yaml.Tree}
  {items : List Artifact} {stage : Stage}

lemma shows_authorized (h : Prepared ctx generator { d with source? } c)
    (hread : Document.ofText vars text = .ok d) (hfiles : files c tree = .ok items) {u : KeyedUser}
    (hu : u ∈ c.users) {path : String} (hpath : path ∈ authorizedPaths u) :
    (Artifacts.mk items).Shows path := by
  obtain ⟨owner, hplaced⟩ := h.exists_placed hread hu
  obtain ⟨f, hf, rfl⟩ := List.mem_map.1 hpath
  obtain ⟨n, hn, hnames⟩ := hplaced.authorized f hf
  have hkey : n ∈ keyFileNames := keyFileNames_of_authorizedNames n hn
  have hmem := (mem_files_of_mem_users hfiles hu).1 hf
  rw [hnames]
  exact Artifacts.shows_of_mem hmem hnames (by simp) (hplaced.isName_of_mem hkey)

lemma shows_privateKey (h : Prepared ctx generator { d with source? } c)
    (hread : Document.ofText vars text = .ok d) (hfiles : files c tree = .ok items) {u : KeyedUser}
    (hu : u ∈ c.users) {f : KeyFile} (hf : u.privateKey? = some f) :
    (Artifacts.mk items).Shows f.path.inContainer := by
  obtain ⟨owner, hplaced⟩ := h.exists_placed hread hu
  have hnames := hplaced.privateKey f hf
  have hmem := (mem_files_of_mem_users hfiles hu).2 (.inl hf)
  rw [hnames]
  exact Artifacts.shows_of_mem hmem hnames (by simp) (hplaced.isName_of_mem (by decide))

end Compilation.Prepared

namespace Emission

variable {c : Compilation} {tree : Yaml.Tree} {items : List Artifact} {stage : Stage}

/-- The names that lead to the baked variables of a stage. -/
def bakedEnvironmentNames (stage : Stage) : List String :=
  [stage.label, generatedName, BuildArguments.bakedEnvironmentName]

lemma isName_of_mem_bakedEnvironmentNames (stage : Stage) :
    ∀ n ∈ bakedEnvironmentNames stage, Path.IsName n := by
  cases stage <;> decide

lemma bakedEnvironment_inContainer (stage : Stage) :
    BuildArguments.generatedDir stage ++ "/" ++ BuildArguments.bakedEnvironmentName =
      (Path.ofNames (bakedEnvironmentNames stage)).inContainer := by
  cases stage <;> decide

/-- A stage that bakes its variables has a file of them. -/
lemma shows_bakedEnvironment (hfiles : files c tree = .ok items)
    (hbakes : (c.view stage).bakeEnvironment = true) :
    (Artifacts.mk items).Shows
      (BuildArguments.generatedDir stage ++ "/" ++ BuildArguments.bakedEnvironmentName) := by
  have hstage : (c.view stage).stage = stage := by cases stage <;> rfl
  have hmem : (⟨stage.generatedDir.child BuildArguments.bakedEnvironmentName,
      (c.view stage).environment.profileScript, .regular⟩ : Artifact) ∈
        stageFiles (c.view stage) := by
    simp [stageFiles, hbakes, hstage]
  have hname : Path.IsName BuildArguments.bakedEnvironmentName := by decide
  rw [bakedEnvironment_inContainer]
  exact Artifacts.shows_of_mem (stageFiles_subset hfiles stage hmem)
    (generatedDir_child_eq stage hname) (by simp [bakedEnvironmentNames])
    (isName_of_mem_bakedEnvironmentNames stage)

/-! ### New private keys -/

/-- A path that goes down by other names is not listed where that of the private half of a new pair
would be. -/
lemma notMem_split_inContainer {owner : Stage} {u : KeyedUser} (hplaced : u.Placed owner)
    {f : KeyFile} (hf : u.hostKey? = some f) {names : List String} (hne : names ≠ [])
    (hnames : ∀ n ∈ names, Path.IsName n) (hcomma : ∀ n ∈ names, ',' ∉ n.toList)
    (hlast : names.getLast? ≠ some Credentials.generatedKeyName) :
    f.path.inContainer ∉ split ',' (Path.ofNames names).inContainer := by
  rw [split_of_notMem (Path.notMem_inContainer (.inl rfl) hne hnames hcomma), List.mem_singleton]
  exact hplaced.inContainer_ne hf hne hnames hlast

lemma notMem_split_natText (p : Path) (n : Nat) : p.inContainer ∉ split ',' (natText n) :=
  p.inContainer_notMem_split (notMem_natText (by decide) n)

lemma notMem_split_boolText (p : Path) (b : Bool) :
    p.inContainer ∉ split ',' (Yaml.Tree.boolText b) := by
  apply p.inContainer_notMem_split
  cases b <;> decide

end Emission

namespace BuildArguments

open Emission Compilation

variable {view : StageView} {mounts : List Mount} {settings : Ssh} {users : List KeyedUser}
  {owner : Stage} {u : KeyedUser} {f : KeyFile} {name value : String}

/-- Of the fields before those about SSH, only the proxy and the source of packages may have the
path of a new private key. -/
lemma written_of_mem_frontFields (hplaced : u.Placed owner) (hf : u.hostKey? = some f)
    (hfield : (name, some value) ∈ frontFields view) (hmem : f.path.inContainer ∈ split ',' value) :
    name = "PROXY_URL" ∧ view.proxy.url? = some value ∨
      name = "APT_REPO_SOURCE" ∧ view.apt.repoSource? = some value := by
  have hlabel : (Path.ofNames [view.stage.label]).inContainer = stageDir view.stage := by
    cases view.stage <;> decide
  have hgenerated :
      (Path.ofNames [view.stage.label, generatedName]).inContainer = generatedDir view.stage := by
    cases view.stage <;> decide
  have hflag (b? : Option Bool) (hb : some value = b?.map Yaml.Tree.boolText) : False := by
    obtain ⟨b, -, rfl⟩ := Option.map_eq_some_iff.1 hb.symm
    exact notMem_split_boolText f.path b hmem
  simp only [frontFields, List.mem_cons, Prod.mk.injEq, List.not_mem_nil, or_false] at hfield
  -- in order: the two directories of the stage, and then flags among what the document wrote
  rcases hfield with ⟨-, hvalue⟩ | ⟨-, hvalue⟩ | ⟨rfl, hvalue⟩ | ⟨-, hvalue⟩ | ⟨-, hvalue⟩ |
    ⟨rfl, hvalue⟩ | ⟨-, hvalue⟩ | ⟨-, hvalue⟩ | ⟨-, hvalue⟩
  · obtain rfl := Option.some.inj hvalue
    rw [← hlabel] at hmem
    refine absurd hmem (notMem_split_inContainer hplaced hf (by simp) ?_ ?_ ?_)
    all_goals cases view.stage <;> decide
  · obtain rfl := Option.some.inj hvalue
    rw [← hgenerated] at hmem
    refine absurd hmem (notMem_split_inContainer hplaced hf (by simp) ?_ ?_ ?_)
    all_goals cases view.stage <;> decide
  · exact .inl ⟨rfl, hvalue.symm⟩
  · exact (hflag _ hvalue).elim
  · exact (hflag _ hvalue).elim
  · exact .inr ⟨rfl, hvalue.symm⟩
  · exact (hflag _ hvalue).elim
  · exact (hflag _ hvalue).elim
  · exact (hflag _ hvalue).elim

/-- Of those behind them, only the list of storage in the image may. -/
lemma written_of_mem_backFields (hplaced : u.Placed owner) (hf : u.hostKey? = some f)
    (hfield : (name, some value) ∈ backFields view mounts)
    (hmem : f.path.inContainer ∈ split ',' value) :
    name = "IMAGE_STORAGE_DIRS" ∧ listValue? (inImage mounts) = some value := by
  simp only [backFields, List.mem_cons, Prod.mk.injEq, List.not_mem_nil, or_false] at hfield
  rcases hfield with ⟨-, hvalue⟩ | ⟨rfl, hvalue⟩
  · split at hvalue
    · obtain rfl := Option.some.inj hvalue
      rw [bakedEnvironment_inContainer] at hmem
      refine absurd hmem (notMem_split_inContainer hplaced hf (by simp [bakedEnvironmentNames])
        (isName_of_mem_bakedEnvironmentNames _) ?_ ?_)
      all_goals cases view.stage <;> decide
    · simp at hvalue
  · exact ⟨rfl, hvalue.symm⟩

lemma notMem_of_mem_serverFields (hfield : (name, some value) ∈ serverFields settings users) :
    f.path.inContainer ∉ split ',' value := by
  simp only [serverFields, List.mem_cons, Prod.mk.injEq, Option.some.injEq, List.not_mem_nil,
    or_false] at hfield
  rcases hfield with ⟨-, rfl⟩ | ⟨-, rfl⟩
  all_goals exact notMem_split_natText f.path _

/-- Of what there is to say about a user only the password may. -/
lemma password_of_mem_userFields (hplaced : u.Placed owner) (hf : u.hostKey? = some f) {i : Nat}
    {owner' : Stage} {u' : KeyedUser} (hplaced' : u'.Placed owner')
    (hfield : (name, some value) ∈ userFields i u') (hmem : f.path.inContainer ∈ split ',' value) :
    name = userName i "PASSWORD" ∧ u'.password? = some value := by
  have hnumber (n? : Option Nat) (hn : some value = n?.map natText) : False := by
    obtain ⟨n, -, rfl⟩ := Option.map_eq_some_iff.1 hn.symm
    exact notMem_split_natText f.path n hmem
  have hkey {n : String} (hn : n ∈ keyFileNames) (hne : n ≠ Credentials.generatedKeyName) :
      f.path.inContainer ≠
        (Path.ofNames (Credentials.keyDirNames owner' u'.name ++ [n])).inContainer := by
    apply hplaced.inContainer_ne hf (by simp) (hplaced'.isName_of_mem hn)
    simpa using hne
  simp only [userFields, List.mem_cons, Prod.mk.injEq, List.not_mem_nil, or_false] at hfield
  -- in order: the name, the password, the two numbers, and the paths of the keys
  rcases hfield with ⟨-, hvalue⟩ | ⟨rfl, hvalue⟩ | ⟨-, hvalue⟩ | ⟨-, hvalue⟩ | ⟨-, hvalue⟩ |
    ⟨-, hvalue⟩
  · obtain rfl := Option.some.inj hvalue
    exact absurd hmem (f.path.inContainer_notMem_split hplaced'.isName.noSlash)
  · exact ⟨rfl, hvalue.symm⟩
  · exact (hnumber _ hvalue).elim
  · exact (hnumber _ hvalue).elim
  · have hcomma : ∀ path ∈ authorizedPaths u', ',' ∉ path.toList :=
      hplaced'.comma_notMem_authorizedPaths
    rw [split_of_listValue?_eq_some hcomma hvalue.symm] at hmem
    obtain ⟨g, hg, heq⟩ := List.mem_map.1 hmem
    obtain ⟨n, hn, hpath⟩ := hplaced'.authorized g hg
    rw [hpath] at heq
    exact absurd heq.symm (hkey (keyFileNames_of_authorizedNames n hn)
      (ne_generatedKeyName n hn))
  · obtain ⟨g, hg, rfl⟩ := Option.map_eq_some_iff.1 hvalue.symm
    rw [hplaced'.privateKey g hg] at hmem
    refine absurd hmem (notMem_split_inContainer hplaced hf (by simp)
      (hplaced'.isName_of_mem (by decide)) (hplaced'.notMem_of_mem (.inl rfl) (by decide)) ?_)
    simp [Credentials.generatedKeyName]

end BuildArguments

namespace Emission

open Compilation BuildArguments

variable {ctx : Context} {generator : Generator} {d : Document} {c : Compilation}
  {vars : String → Option String} {text : String} {source? : Option Path} {tree : Yaml.Tree}
  {artifacts : Artifacts}

/-- The build arguments of both stages name what is emitted, and nothing else. -/
theorem named_of_emit (hread : Document.ofText vars text = .ok d)
    (hprepare : Compilation.prepare ctx generator { d with source? } = .ok c)
    (hemit : emit c tree = .ok artifacts) (stage : Stage) : Named d c artifacts stage := by
  have h := prepared_of_prepare hprepare
  obtain ⟨items, hfiles, rfl⟩ := Outcome.map_eq_ok_iff.1 hemit
  obtain ⟨hnodup, hdown⟩ := h.paths_of_files hread hfiles
  rw [Artifacts.ofList_eq hnodup hdown]
  have hstage : (c.view stage).stage = stage := by cases stage <;> rfl
  have hlength {settings : Ssh} (hinstalls : c.Installs stage settings) :
      c.users.length = (d.userNames stage).length := by
    rw [← h.map_name_users hinstalls, List.length_map]
  have hbaked : (c.arguments stage).get? bakedEnvironmentArgument =
      if (c.view stage).bakeEnvironment then
        some (BuildArguments.generatedDir stage ++ "/" ++ bakedEnvironmentName)
      else none := by
    rw [arguments, get?_bakedEnvironment, hstage]
  constructor
  case bakes =>
    rw [hbaked]
    cases (c.view stage).bakeEnvironment <;> rfl
  case baked =>
    intro path hpath
    rw [hbaked] at hpath
    split at hpath
    next hbakes =>
      obtain rfl := Option.some.inj hpath
      exact shows_bakedEnvironment hfiles hbakes
    next => simp at hpath
  case privateKey =>
    intro i path hpath
    obtain ⟨u, hu, hvalue⟩ := exists_user_valueOf privateKey_mem_userFields hpath
    obtain ⟨f, hf, rfl⟩ := Option.map_eq_some_iff.1 hvalue
    exact h.shows_privateKey hread hfiles (List.mem_of_getElem? hu) hf
  case publicKeys =>
    intro i paths hpaths path hpath
    obtain ⟨u, hu, hvalue⟩ := exists_user_valueOf publicKeys_mem_userFields hpaths
    have hmem := List.mem_of_getElem? hu
    obtain ⟨owner, hplaced⟩ := h.exists_placed hread hmem
    rw [split_of_listValue?_eq_some hplaced.comma_notMem_authorizedPaths hvalue] at hpath
    exact h.shows_authorized hread hfiles hmem hpath
  case authorized =>
    intro settings hinstalls i u hu
    obtain ⟨hview, henabled⟩ := installs_iff.1 hinstalls
    obtain ⟨owner, hplaced⟩ := h.exists_placed hread (List.mem_of_getElem? hu)
    rw [arguments, get?_userName publicKeys_mem_userFields hview henabled, hu, Option.bind_some,
      split_listValue? hplaced.comma_notMem_authorizedPaths]
    rfl
  case numbered =>
    intro settings hinstalls
    obtain ⟨hview, henabled⟩ := installs_iff.1 hinstalls
    refine ⟨?_, h.map_name_users hinstalls, fun i => ?_⟩
    · rw [arguments, get?_userCount hview henabled, hlength hinstalls]
    · rw [arguments, get?_userName name_mem_userFields hview henabled, ← h.map_name_users hinstalls,
        List.getElem?_map]
      cases c.users[i]? <;> rfl
  case counted =>
    intro i field value hvalue
    obtain ⟨⟨settings, hview, henabled⟩, u, hu, -⟩ := exists_user_of_get? hvalue
    rw [← hlength (installs_iff.2 ⟨hview, henabled⟩)]
    exact (List.getElem?_eq_some_iff.1 hu).1
  case installs =>
    intro name hname hssh
    obtain ⟨settings, hinstalls⟩ := exists_ssh_of_mem_keys hname hssh
    exact ⟨settings, installs_iff.2 hinstalls⟩
  case hostKey =>
    intro u hu f hf name value hvalue hmem
    obtain ⟨owner, hplaced⟩ := h.exists_placed hread hu
    rcases mem_fieldsOf_cases (get?_of_eq_some_iff.1 hvalue) with
      hfield | ⟨settings, hview, henabled, hfield⟩
    · rcases List.mem_append.1 hfield with hfield | hfield
      · rcases written_of_mem_frontFields hplaced hf hfield hmem with ⟨rfl, hurl⟩ | ⟨rfl, hsource⟩
        · exact h.exists_writes_proxy hurl hmem (hplaced.colon_notMem_hostKey hf)
        · exact ⟨value, h.writes_packages hsource, hmem⟩
      · obtain ⟨rfl, hlist⟩ := written_of_mem_backFields hplaced hf hfield hmem
        exact h.exists_writes_storage hlist hmem f.path.inContainer_notMem_split_imageRoot
    · have hinstalls : c.Installs stage settings := installs_iff.2 ⟨hview, henabled⟩
      rcases List.mem_append.1 hfield with hfield | hfield
      · exact absurd hmem (notMem_of_mem_serverFields hfield)
      · obtain ⟨i, u', hu', hfield⟩ := mem_flatten_userFields_iff.1 hfield
        obtain ⟨owner', hplaced'⟩ := h.exists_placed hread (List.mem_of_getElem? hu')
        obtain ⟨rfl, hpassword⟩ := password_of_mem_userFields hplaced hf hplaced' hfield hmem
        exact ⟨value, h.writes_password hinstalls.inEffect henabled hu' hpassword, hmem⟩

/-- A stage bakes its variables and installs a user with a password, who gets a new pair. -/
theorem named_of_new_pair : ∃ d c artifacts,
    Document.ofText (fun _ => none)
      ("stage_1:\n image:\n  base: a\n bake_environment: true\n" ++
        " ssh:\n  users:\n   me:\n    password: p") =
        .ok d ∧
    Compilation.prepare .bare (.ofSecret [7]) { d with source? := none } = .ok c ∧
    emit c (.mapping []) = .ok artifacts ∧ Named d c artifacts .first ∧
    ((c.arguments .first).get? bakedEnvironmentArgument).isSome = true ∧
    ((c.arguments .first).get? (userName 0 "PUBKEY_FILES")).isSome = true ∧
    c.users.any (fun u => u.hostKey?.isSome) = true := by
  have hrun : ((Document.ofText (fun _ => none)
      ("stage_1:\n image:\n  base: a\n bake_environment: true\n" ++
        " ssh:\n  users:\n   me:\n    password: p")
      ).toOption.bind fun d =>
      (Compilation.prepare .bare (.ofSecret [7]) { d with source? := none }).toOption.bind fun c =>
        (emit c (.mapping [])).toOption.map fun _ =>
          ((c.arguments .first).get? bakedEnvironmentArgument).isSome &&
            ((c.arguments .first).get? (userName 0 "PUBKEY_FILES")).isSome &&
            c.users.any fun u => u.hostKey?.isSome) = some true := by
    rw [Document.ofText_eq_ofChars, String.toList_append, String.toList_ofList,
      String.toList_ofList]
    decide +kernel
  obtain ⟨d, hd, hrun⟩ := Outcome.toOption_bind_eq_some_iff.1 hrun
  obtain ⟨c, hc, hrun⟩ := Outcome.toOption_bind_eq_some_iff.1 hrun
  obtain ⟨artifacts, hartifacts, hrun⟩ := Outcome.toOption_map_eq_some_iff.1 hrun
  simp only [Bool.and_eq_true] at hrun
  obtain ⟨⟨hbaked, hkeys⟩, hhost⟩ := hrun
  exact ⟨d, c, artifacts, hd, hc, hartifacts, named_of_emit hd hc hartifacts .first, hbaked, hkeys,
    hhost⟩

/-- A document may write where the private half of a new pair stands, as the source of packages. -/
theorem exists_argument_with_host_key : ∃ d c tree artifacts u f,
    Document.ofText (fun _ => none)
      ("stage_1:\n image:\n  base: a\n apt:\n" ++
        "  repo_source: /stagecraft/stage-1/generated/ssh/me/generated_ed25519\n" ++
        " ssh:\n  users:\n   me:\n    password: p") = .ok d ∧
    Compilation.prepare .bare (.ofSecret [7]) d = .ok c ∧ Layout.render c = .ok tree ∧
    emit c tree = .ok artifacts ∧ u ∈ c.users ∧ u.hostKey? = some f ∧
    (c.arguments .first).get? "APT_REPO_SOURCE" = some f.path.inContainer := by
  have hrun : ((Document.ofText (fun _ => none)
      ("stage_1:\n image:\n  base: a\n apt:\n" ++
        "  repo_source: /stagecraft/stage-1/generated/ssh/me/generated_ed25519\n" ++
        " ssh:\n  users:\n   me:\n    password: p")).toOption.bind fun d =>
      (Compilation.prepare .bare (.ofSecret [7]) d).toOption.bind fun c =>
        (Layout.render c).toOption.bind fun tree => (emit c tree).toOption.bind fun _ =>
          c.users.head?.bind fun u => u.hostKey?.map fun f =>
            decide ((c.arguments .first).get? "APT_REPO_SOURCE" = some f.path.inContainer)) =
      some true := by
    rw [Document.ofText_eq_ofChars, String.toList_append, String.toList_append,
      String.toList_ofList, String.toList_ofList, String.toList_ofList]
    decide +kernel
  obtain ⟨d, hd, hrun⟩ := Outcome.toOption_bind_eq_some_iff.1 hrun
  obtain ⟨c, hc, hrun⟩ := Outcome.toOption_bind_eq_some_iff.1 hrun
  obtain ⟨tree, htree, hrun⟩ := Outcome.toOption_bind_eq_some_iff.1 hrun
  obtain ⟨artifacts, hartifacts, hrun⟩ := Outcome.toOption_bind_eq_some_iff.1 hrun
  obtain ⟨u, hu, hrun⟩ := Option.bind_eq_some_iff.1 hrun
  obtain ⟨f, hf, hrun⟩ := Option.map_eq_some_iff.1 hrun
  exact ⟨d, c, tree, artifacts, u, f, hd, hc, htree, hartifacts, List.mem_of_mem_head? hu, hf,
    of_decide_eq_true hrun⟩

end Emission

end TwoStage
