import Mathlib.Data.List.Nodup
import TwoStage.Layout
import TwoStage.Proofs.OrderedMap
import TwoStage.Proofs.Text.Split

/-!
# Build arguments by their names

Every build argument comes from a field, which may be empty. The fields of users are told apart by
the number in their names, all others by names of their own. So an argument is set exactly when its
field has a value, and none replaces another one.
-/

namespace TwoStage

open Text Decimal

lemma Decimal.natText_injective : Function.Injective natText := by
  intro m n h
  have hdigits := congrArg String.toList h
  simp only [natText, String.toList_ofList, digits] at hdigits
  have hnumber := congrArg (fun ds => Nat.ofDigitChars 10 ds 0) hdigits
  simpa using hnumber

lemma Decimal.notMem_natText {c : Char} (hc : c.isDigit = false) (n : Nat) :
    c ∉ (natText n).toList := by
  rw [natText, String.toList_ofList]
  intro hmem
  have hdigit := Nat.isDigit_of_mem_toDigits (by decide) (by decide) hmem
  exact absurd hdigit (by simp [hc])

namespace BuildArguments

/-! ### Arguments that are set -/

/-- An argument by its name, with what it is set to if it is. -/
abbrev Field := String × Option String

/-- The arguments of the fields that have a value. -/
def present (fields : List Field) : List Argument :=
  fields.flatMap fun field => argumentIf field.1 field.2

@[simp]
lemma argumentIf_some (name value : String) : argumentIf name (some value) = [(name, value)] := rfl

@[simp]
lemma argumentIf_none (name : String) : argumentIf name none = [] := rfl

lemma present_append (fields fields' : List Field) :
    present (fields ++ fields') = present fields ++ present fields' := List.flatMap_append

lemma present_flatten (fields : List (List Field)) :
    present fields.flatten = (fields.map present).flatten := by
  induction fields with
  | nil => rfl
  | cons field fields ih => rw [List.flatten_cons, present_append, ih, List.map_cons,
      List.flatten_cons]

lemma mem_present_iff {fields : List Field} {name value : String} :
    (name, value) ∈ present fields ↔ (name, some value) ∈ fields := by
  simp only [present, List.mem_flatMap]
  constructor
  · rintro ⟨⟨n, value?⟩, hmem, h⟩
    cases value? with
    | none => simp at h
    | some v =>
      obtain ⟨rfl, rfl⟩ := Prod.mk.inj (List.mem_singleton.1 h)
      exact hmem
  · intro hmem
    exact ⟨_, hmem, List.mem_singleton_self _⟩

/-- The arguments have some of the names of the fields. -/
lemma sublist_present (fields : List Field) :
    ((present fields).map Prod.fst).Sublist (fields.map Prod.fst) := by
  induction fields with
  | nil => exact .slnil
  | cons field fields ih =>
    obtain ⟨name, value?⟩ := field
    cases value? with
    | none => exact ih.cons name
    | some value => exact ih.cons_cons name

/-- What is found under a name is the value of its field. -/
lemma get?_ofList_present_eq_some_iff {fields : List Field} (h : (fields.map Prod.fst).Nodup)
    {name value : String} :
    (OrderedMap.ofList (present fields)).get? name = some value ↔ (name, some value) ∈ fields := by
  rw [OrderedMap.get?_eq_some_iff (OrderedMap.nodup_keys_ofList _),
    OrderedMap.entries_ofList (h.sublist (sublist_present fields)), mem_present_iff]

lemma get?_ofList_present {fields : List Field} (h : (fields.map Prod.fst).Nodup) {name : String}
    {value? : Option String} (hmem : (name, value?) ∈ fields) :
    (OrderedMap.ofList (present fields)).get? name = value? := by
  ext value
  rw [get?_ofList_present_eq_some_iff h]
  constructor
  · intro hvalue
    exact (Prod.mk.inj (List.inj_on_of_nodup_map h hmem hvalue rfl)).2
  · rintro rfl
    exact hmem

/-! ### The fields of a stage -/

/-- A list with commas between its items, unless it is empty. -/
def listValue? (texts : List String) : Option String :=
  if texts.isEmpty then none else some (commaSeparated texts)

lemma listValue?_eq_some_iff {texts : List String} {value : String} :
    listValue? texts = some value ↔ texts ≠ [] ∧ commaSeparated texts = value := by
  cases texts <;> simp [listValue?]

/-- Texts that are put into a list are split one by one. -/
lemma split_commaSeparated {texts : List String} (hne : texts ≠ []) :
    split ',' (commaSeparated texts) = texts.flatMap (split ',') := by
  obtain ⟨t, ts, rfl⟩ := List.exists_cons_of_ne_nil hne
  have hchars : (commaSeparated (t :: ts)).toList =
      t.toList ++ (ts.map String.toList).flatMap (',' :: ·) := by
    rw [commaSeparated, String.toList_intercalate]
    exact intercalate_eq _ _
  rw [split, hchars, splitAll_flatMap, List.map_append, List.map_flatMap, List.flatMap_map]
  rfl

/-- The name of an argument about the user of the given number. -/
def userName (i : Nat) (field : String) : String := "SSH_USER_" ++ natText i ++ "_" ++ field

def bakedEnvironmentArgument : String := "BAKED_ENV_FILE"

/-- The paths of a user's keys that let in, as an image sees them. -/
def authorizedPaths (u : KeyedUser) : List String :=
  u.authorized.map fun key => key.path.inContainer

/-- What there is to say about the user of the given number. -/
def userFields (i : Nat) (u : KeyedUser) : List Field :=
  [(userName i "NAME", some u.name),
    (userName i "PASSWORD", u.password?),
    (userName i "UID", u.uid?.map natText),
    (userName i "GID", u.gid?.map natText),
    (userName i "PUBKEY_FILES", listValue? (authorizedPaths u)),
    (userName i "PRIVKEY_FILE", u.privateKey?.map fun key => key.path.inContainer)]

/-- What there is to say about a stage itself, the proxy and the package sources. -/
def frontFields (view : StageView) : List Field :=
  [("STAGE_DIR", some (stageDir view.stage)),
    ("GENERATED_DIR", some (generatedDir view.stage)),
    ("PROXY_URL", view.proxy.url?),
    ("PROXY_ENABLE_GLOBALLY", view.proxy.enableGlobally?.map Yaml.Tree.boolText),
    ("PROXY_REMOVE_AFTER_BUILD", view.proxy.removeAfterBuild?.map Yaml.Tree.boolText),
    ("APT_REPO_SOURCE", view.apt.repoSource?),
    ("APT_KEEP_REPO_AFTER_BUILD", view.apt.keepRepoAfterBuild?.map Yaml.Tree.boolText),
    ("APT_USE_PROXY", view.apt.useProxy?.map Yaml.Tree.boolText),
    ("APT_KEEP_PROXY_AFTER_BUILD", view.apt.keepProxyAfterBuild?.map Yaml.Tree.boolText)]

def serverFields (settings : Ssh) (users : List KeyedUser) : List Field :=
  [("SSH_PORT", some (natText settings.port)), ("SSH_USER_COUNT", some (natText users.length))]

/-- What there is to say about SSH in a stage that installs it with the given settings. -/
def sshFields (settings : Ssh) (users : List KeyedUser) : List Field :=
  serverFields settings users ++ (users.mapIdx userFields).flatten

/-- What there is to say about baked variables and storage in the image. -/
def backFields (view : StageView) (mounts : List Mount) : List Field :=
  [(bakedEnvironmentArgument,
      if view.bakeEnvironment then some (generatedDir view.stage ++ "/" ++ bakedEnvironmentName)
      else none),
    ("IMAGE_STORAGE_DIRS", listValue? (inImage mounts))]

/-- What there is to say about a stage. -/
def fieldsOf (view : StageView) (users : List KeyedUser) (mounts : List Mount) : List Field :=
  frontFields view ++
    (view.ssh?.filter Ssh.enabled).toList.flatMap (fun settings => sshFields settings users) ++
    backFields view mounts

lemma user_eq (i : Nat) (u : KeyedUser) : user i u = present (userFields i u) := by
  simp [user, userFields, present, listIf, listValue?, authorizedPaths, userName]

lemma network_eq (view : StageView) :
    [("STAGE_DIR", stageDir view.stage), ("GENERATED_DIR", generatedDir view.stage)] ++
      network view.proxy view.apt = present (frontFields view) := by
  simp [network, frontFields, present, flagIf]

lemma present_sshFields (settings : Ssh) (users : List KeyedUser) :
    present (sshFields settings users) =
      [("SSH_PORT", natText settings.port), ("SSH_USER_COUNT", natText users.length)] ++
        (users.mapIdx user).flatten := by
  have hmap : (users.mapIdx userFields).map present = users.mapIdx user := by
    simp [List.mapIdx_eq_zipIdx_map, Function.comp_def, user_eq]
  rw [sshFields, present_append, present_flatten, hmap]
  rfl

lemma ssh_eq (settings? : Option Ssh) (users : List KeyedUser) :
    ssh settings? users =
      present ((settings?.filter Ssh.enabled).toList.flatMap fun settings =>
        sshFields settings users) := by
  unfold ssh
  cases settings? with
  | none => rfl
  | some settings =>
    by_cases henabled : settings.enabled
    · simp [Option.filter, henabled, present_sshFields]
    · simp [Option.filter, henabled, present]

/-- The arguments of a stage are what there is to say about it. -/
lemma of_eq (view : StageView) (users : List KeyedUser) (mounts : List Mount) :
    of view users mounts = OrderedMap.ofList (present (fieldsOf view users mounts)) := by
  rw [of, fieldsOf, present_append, present_append, network_eq, ssh_eq]
  simp [present, backFields, listIf, listValue?, bakedEnvironmentArgument]

/-! ### Names -/

lemma userName_inj {i j : Nat} {field field' : String} (h : userName i field = userName j field') :
    i = j ∧ field = field' := by
  have hcut (k : Nat) (f : String) :
      cutAt? (· == '_') (digits k ++ '_' :: f.toList) = some (digits k, f.toList) := by
    apply cutAt?_append rfl
    intro c hc
    have hdigit := Nat.isDigit_of_mem_toDigits (by decide) (by decide) hc
    simp only [beq_eq_false_iff_ne]
    rintro rfl
    exact absurd hdigit (by decide)
  have hchars := congrArg String.toList h
  simp only [userName, natText, String.toList_append, String.toList_ofList, List.append_assoc,
    List.append_cancel_left_eq] at hchars
  have heq := (hcut i field).symm.trans ((congrArg _ hchars).trans (hcut j field'))
  obtain ⟨hdigits, hfield⟩ := Prod.mk.inj (Option.some.inj heq)
  refine ⟨natText_injective ?_, String.toList_inj.1 hfield⟩
  rw [natText, natText, hdigits]

/-- The name goes on with a digit where the names of users' arguments have their number. -/
def isNumbered (name : String) : Bool :=
  "SSH_USER_".toList.isPrefixOf name.toList && (name.toList.drop 9).head?.any Char.isDigit

lemma isNumbered_userName (i : Nat) (field : String) : isNumbered (userName i field) = true := by
  obtain ⟨c, cs, hcs⟩ := List.exists_cons_of_ne_nil (Nat.toDigits_ne_nil (n := i) (b := 10))
  have hdigit : c.isDigit = true := by
    apply Nat.isDigit_of_mem_toDigits (b := 10) (n := i) (by decide) (by decide)
    rw [hcs]
    exact List.mem_cons_self
  have hchars : (userName i field).toList =
      "SSH_USER_".toList ++ (c :: cs ++ '_' :: field.toList) := by
    simp [userName, natText, digits, String.toList_append, hcs]
  rw [isNumbered, hchars]
  simp [hdigit]

def frontNames : List String :=
  ["STAGE_DIR", "GENERATED_DIR", "PROXY_URL", "PROXY_ENABLE_GLOBALLY", "PROXY_REMOVE_AFTER_BUILD",
    "APT_REPO_SOURCE", "APT_KEEP_REPO_AFTER_BUILD", "APT_USE_PROXY", "APT_KEEP_PROXY_AFTER_BUILD"]

def serverNames : List String := ["SSH_PORT", "SSH_USER_COUNT"]

def backNames : List String := [bakedEnvironmentArgument, "IMAGE_STORAGE_DIRS"]

def fixedNames : List String := frontNames ++ serverNames ++ backNames

lemma map_fst_frontFields (view : StageView) : (frontFields view).map Prod.fst = frontNames := rfl

lemma map_fst_serverFields (settings : Ssh) (users : List KeyedUser) :
    (serverFields settings users).map Prod.fst = serverNames := rfl

lemma map_fst_backFields (view : StageView) (mounts : List Mount) :
    (backFields view mounts).map Prod.fst = backNames := rfl

lemma isNumbered_of_mem_fixedNames : ∀ name ∈ fixedNames, isNumbered name = false := by decide

def userFieldNames : List String :=
  ["NAME", "PASSWORD", "UID", "GID", "PUBKEY_FILES", "PRIVKEY_FILE"]

lemma map_fst_userFields (i : Nat) (u : KeyedUser) :
    (userFields i u).map Prod.fst = userFieldNames.map (userName i) := rfl

lemma exists_of_mem_userFields {i : Nat} {u : KeyedUser} {field : Field}
    (h : field ∈ userFields i u) : ∃ f ∈ userFieldNames, field.1 = userName i f := by
  have hname := List.mem_map_of_mem (f := Prod.fst) h
  rw [map_fst_userFields] at hname
  obtain ⟨f, hf, heq⟩ := List.mem_map.1 hname
  exact ⟨f, hf, heq.symm⟩

lemma mem_flatten_userFields_iff {users : List KeyedUser} {field : Field} :
    field ∈ (users.mapIdx userFields).flatten ↔
      ∃ i u, users[i]? = some u ∧ field ∈ userFields i u := by
  simp only [List.mem_flatten, List.mem_mapIdx]
  constructor
  · rintro ⟨_, ⟨i, hi, rfl⟩, hmem⟩
    exact ⟨i, _, List.getElem?_eq_getElem hi, hmem⟩
  · rintro ⟨i, u, hu, hmem⟩
    obtain ⟨hi, rfl⟩ := List.getElem?_eq_some_iff.1 hu
    exact ⟨_, ⟨i, hi, rfl⟩, hmem⟩

lemma nodup_userFields (i : Nat) (u : KeyedUser) : ((userFields i u).map Prod.fst).Nodup := by
  rw [map_fst_userFields]
  apply List.Nodup.map
  · intro f f' h
    exact (userName_inj h).2
  · decide

lemma nodup_flatten_userFields (users : List KeyedUser) :
    ((users.mapIdx userFields).flatten.map Prod.fst).Nodup := by
  rw [List.map_flatten, List.nodup_flatten]
  constructor
  · intro names hnames
    obtain ⟨fields, hfields, rfl⟩ := List.mem_map.1 hnames
    obtain ⟨i, hi, rfl⟩ := List.mem_mapIdx.1 hfields
    exact nodup_userFields i _
  · rw [List.pairwise_map, List.pairwise_iff_getElem]
    intro i j hi hj hlt name hmem hmem'
    simp only [List.getElem_mapIdx] at hmem hmem'
    obtain ⟨field, hfield, rfl⟩ := List.mem_map.1 hmem
    obtain ⟨field', hfield', heq⟩ := List.mem_map.1 hmem'
    obtain ⟨f, -, hf⟩ := exists_of_mem_userFields hfield
    obtain ⟨f', -, hf'⟩ := exists_of_mem_userFields hfield'
    have hij := (userName_inj (hf.symm.trans (heq.symm.trans hf'))).1
    omega

/-- Fixed names stand before and behind those of the users. -/
lemma nodup_around (front back : List String) (users : List KeyedUser)
    (hnodup : (front ++ back).Nodup) (hfixed : ∀ name ∈ front ++ back, name ∈ fixedNames) :
    (front ++ (users.mapIdx userFields).flatten.map Prod.fst ++ back).Nodup := by
  have hapart : ∀ name ∈ front ++ back,
      name ∉ (users.mapIdx userFields).flatten.map Prod.fst := by
    intro name hname hmem
    obtain ⟨field, hfield, rfl⟩ := List.mem_map.1 hmem
    obtain ⟨i, u, -, hfield⟩ := mem_flatten_userFields_iff.1 hfield
    obtain ⟨f, -, hf⟩ := exists_of_mem_userFields hfield
    have hnumbered := isNumbered_userName i f
    rw [← hf, isNumbered_of_mem_fixedNames _ (hfixed _ hname)] at hnumbered
    exact absurd hnumbered (by decide)
  obtain ⟨hfront, hback, hne⟩ := List.nodup_append.1 hnodup
  apply List.nodup_append.2
    ⟨List.nodup_append.2 ⟨hfront, nodup_flatten_userFields users, ?_⟩, hback, ?_⟩
  · rintro name hname _ hmem rfl
    exact hapart name (List.mem_append_left _ hname) hmem
  · rintro name hmem _ hname rfl
    rcases List.mem_append.1 hmem with hmem | hmem
    · exact hne name hmem name hname rfl
    · exact hapart name (List.mem_append_right _ hname) hmem

/-- No two fields of a stage have one name. -/
lemma nodup_fieldsOf (view : StageView) (users : List KeyedUser) (mounts : List Mount) :
    ((fieldsOf view users mounts).map Prod.fst).Nodup := by
  rw [fieldsOf, List.map_append, List.map_append, map_fst_frontFields, map_fst_backFields]
  cases view.ssh?.filter Ssh.enabled with
  | none => exact nodup_around frontNames backNames [] (by decide) (by decide)
  | some settings =>
    have hnames :=
      nodup_around (frontNames ++ serverNames) backNames users (by decide) (by decide)
    simpa [sshFields, map_fst_serverFields] using hnames

variable {view : StageView} {users : List KeyedUser} {mounts : List Mount} {name value : String}

/-- An argument is set to a value if that is what its field has. -/
lemma get?_of_eq_some_iff :
    (of view users mounts).get? name = some value ↔
      (name, some value) ∈ fieldsOf view users mounts := by
  rw [of_eq, get?_ofList_present_eq_some_iff (nodup_fieldsOf view users mounts)]

lemma get?_of_mem {value? : Option String} (h : (name, value?) ∈ fieldsOf view users mounts) :
    (of view users mounts).get? name = value? := by
  rw [of_eq]
  exact get?_ofList_present (nodup_fieldsOf view users mounts) h

lemma mem_entries_of_iff :
    (name, value) ∈ (of view users mounts).entries ↔
      (name, some value) ∈ fieldsOf view users mounts := by
  have hkeys : (of view users mounts).keys.Nodup := OrderedMap.nodup_keys_ofList _
  rw [← OrderedMap.get?_eq_some_iff hkeys, get?_of_eq_some_iff]

/-! ### Fields about users -/

/-- Every user has fields in a stage that installs SSH. -/
lemma mem_fieldsOf_of_user {settings : Ssh} (hssh : view.ssh? = some settings)
    (henabled : settings.enabled = true) {i : Nat} {u : KeyedUser} (hu : users[i]? = some u)
    {field : Field} (h : field ∈ userFields i u) : field ∈ fieldsOf view users mounts := by
  have hmem := mem_flatten_userFields_iff.2 ⟨i, u, hu, h⟩
  simp [fieldsOf, hssh, Option.filter, henabled, sshFields, hmem]

/-- A field is one about SSH in a stage that installs it, or has one of the other names. -/
lemma mem_fieldsOf_cases {field : Field} (h : field ∈ fieldsOf view users mounts) :
    field ∈ frontFields view ++ backFields view mounts ∨
      ∃ settings, view.ssh? = some settings ∧ settings.enabled = true ∧
        field ∈ sshFields settings users := by
  simp only [fieldsOf, List.mem_append, List.mem_flatMap] at h
  rcases h with (h | ⟨settings, hsettings, h⟩) | h
  · exact .inl (List.mem_append_left _ h)
  · obtain ⟨hssh, henabled⟩ := Option.filter_eq_some_iff.1 (Option.mem_toList.1 hsettings)
    exact .inr ⟨settings, hssh, henabled, h⟩
  · exact .inl (List.mem_append_right _ h)

lemma userName_notMem_fixedNames (i : Nat) (f : String) : userName i f ∉ fixedNames := by
  intro hmem
  have hfixed := isNumbered_of_mem_fixedNames _ hmem
  rw [isNumbered_userName] at hfixed
  exact absurd hfixed (by decide)

/-- An argument with a number is about the user of that number. -/
lemma exists_user_of_get? {i : Nat} {f : String}
    (h : (of view users mounts).get? (userName i f) = some value) :
    (∃ settings, view.ssh? = some settings ∧ settings.enabled = true) ∧
      ∃ u, users[i]? = some u ∧ (userName i f, some value) ∈ userFields i u := by
  have hnot := userName_notMem_fixedNames i f
  simp only [fixedNames, List.mem_append, not_or] at hnot
  obtain ⟨⟨hfront, hserver⟩, hback⟩ := hnot
  rcases mem_fieldsOf_cases (get?_of_eq_some_iff.1 h) with hmem | ⟨settings, hssh, henabled, hmem⟩
  · rcases List.mem_append.1 hmem with hmem | hmem
    · exact absurd (map_fst_frontFields view ▸ List.mem_map_of_mem hmem) hfront
    · exact absurd (map_fst_backFields view mounts ▸ List.mem_map_of_mem hmem) hback
  · refine ⟨⟨settings, hssh, henabled⟩, ?_⟩
    rcases List.mem_append.1 hmem with hmem | hmem
    · exact absurd (map_fst_serverFields settings users ▸ List.mem_map_of_mem hmem) hserver
    · obtain ⟨j, u, hu, hfield⟩ := mem_flatten_userFields_iff.1 hmem
      obtain ⟨f', -, hf'⟩ := exists_of_mem_userFields hfield
      obtain ⟨rfl, -⟩ := userName_inj hf'
      exact ⟨u, hu, hfield⟩

variable {valueOf : KeyedUser → Option String} {i : Nat} {f : String}

/-- An argument about a user has the value that the user has for it. -/
lemma exists_user_valueOf (hfield : ∀ u, (userName i f, valueOf u) ∈ userFields i u)
    (h : (of view users mounts).get? (userName i f) = some value) :
    ∃ u, users[i]? = some u ∧ valueOf u = some value := by
  obtain ⟨-, u, hu, hmem⟩ := exists_user_of_get? h
  refine ⟨u, hu, ?_⟩
  exact (Prod.mk.inj (List.inj_on_of_nodup_map (nodup_userFields i u) (hfield u) hmem rfl)).2

lemma get?_userName (hfield : ∀ u, (userName i f, valueOf u) ∈ userFields i u) {settings : Ssh}
    (hssh : view.ssh? = some settings) (henabled : settings.enabled = true) :
    (of view users mounts).get? (userName i f) = users[i]?.bind valueOf := by
  cases hu : users[i]? with
  | none =>
    rw [Option.bind_none, Option.eq_none_iff_forall_ne_some]
    intro value h
    obtain ⟨u, hsome, -⟩ := exists_user_valueOf hfield h
    simp [hu] at hsome
  | some u => exact get?_of_mem (mem_fieldsOf_of_user hssh henabled hu (hfield u))

lemma name_mem_userFields (u : KeyedUser) : (userName i "NAME", some u.name) ∈ userFields i u := by
  simp [userFields]

lemma publicKeys_mem_userFields (u : KeyedUser) :
    (userName i "PUBKEY_FILES", listValue? (authorizedPaths u)) ∈ userFields i u := by
  simp [userFields]

lemma privateKey_mem_userFields (u : KeyedUser) :
    (userName i "PRIVKEY_FILE", u.privateKey?.map fun key => key.path.inContainer) ∈
      userFields i u := by
  simp [userFields]

/-! ### Other fields -/

lemma get?_bakedEnvironment :
    (of view users mounts).get? bakedEnvironmentArgument =
      if view.bakeEnvironment then some (generatedDir view.stage ++ "/" ++ bakedEnvironmentName)
      else none :=
  get?_of_mem (List.mem_append_right _ List.mem_cons_self)

lemma get?_userCount {settings : Ssh} (hssh : view.ssh? = some settings)
    (henabled : settings.enabled = true) :
    (of view users mounts).get? "SSH_USER_COUNT" = some (natText users.length) := by
  apply get?_of_mem
  simp [fieldsOf, hssh, Option.filter, henabled, sshFields, serverFields]

/-- Arguments about SSH are there only in a stage that installs it. -/
lemma exists_ssh_of_mem_keys (h : name ∈ (of view users mounts).keys)
    (hssh : "SSH_".toList <+: name.toList) :
    ∃ settings, view.ssh? = some settings ∧ settings.enabled = true := by
  have hothers : ∀ n ∈ frontNames ++ backNames, ¬ "SSH_".toList <+: n.toList := by decide
  obtain ⟨⟨n, value⟩, hmem, rfl⟩ := List.mem_map.1 h
  rcases mem_fieldsOf_cases (mem_entries_of_iff.1 hmem) with hmem | ⟨settings, hview, henabled, -⟩
  · refine absurd hssh (hothers n ?_)
    rw [← map_fst_frontFields view, ← map_fst_backFields view mounts, ← List.map_append]
    exact List.mem_map_of_mem hmem
  · exact ⟨settings, hview, henabled⟩

end BuildArguments

end TwoStage
