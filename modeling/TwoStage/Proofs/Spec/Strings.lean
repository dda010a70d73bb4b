import TwoStage.Merge
import TwoStage.Proofs.Document.Strings
import TwoStage.Proofs.Marker.Bland
import TwoStage.Proofs.Marker.Stable
import TwoStage.Proofs.Spec.Checking

/-!
# The texts of a checked document

A stable property of all strings of a document is one of all texts that its stages are made of after
checking: values are cut out of assignments, ports brought into their form, and a missing image
named after the project.
-/

namespace TwoStage

open Text Yaml

/-- The characters of a text have the property. -/
abbrev OnChars (R : List Char → Prop) (s : String) : Prop := R s.toList

/-- A stable property holds of digits. -/
lemma Stable.intText {R : List Char → Prop} (hR : Stable R) (n : Int) :
    OnChars R (Decimal.intText n) :=
  hR.bland (bland_intText n)

variable {R : List Char → Prop}

/-! ### Variables -/

/-- Every variable has a name that is one and a value with the property. -/
def Environment.Holds (P : String → Prop) (e : Environment) : Prop :=
  ∀ v ∈ e.entries, isVariableName v.1.toList = true ∧ P v.2

namespace EnvironmentSection

lemma isVariableName_of_checkName {path name : String} (h : checkName path name = .ok ()) :
    isVariableName name.toList = true := by
  unfold checkName at h
  split at h
  next hname => exact hname
  next => simp at h

/-- A text whose trimmed form is a variable name is bland. -/
lemma bland_of_isVariableName_trimBoth {cs : List Char} (h : isVariableName (trimBoth cs) = true) :
    Bland cs := by
  have hblank {c : Char} (hc : isBlank c = true) : c ≠ '$' ∧ c ≠ '\x7b' :=
    ⟨fun heq => absurd hc (by rw [heq]; decide), fun heq => absurd hc (by rw [heq]; decide)⟩
  obtain ⟨bs, hbs, hleft⟩ := exists_append_trimLeft cs
  obtain ⟨es, hes, hright⟩ := exists_trimRight_append (trimLeft cs)
  rw [hleft, hright, bland_append, bland_append]
  exact ⟨fun c hc => hblank (hbs c hc), Bland.of_isVariableName h, fun c hc => hblank (hes c hc)⟩

/-- The value of an assignment is what stands behind a bland text. -/
lemma exists_of_readAssignment {path entry : String} {a : String × String}
    (h : readAssignment path entry = .ok a) :
    isVariableName a.1.toList = true ∧
      ∃ front, Bland front ∧ entry.toList = front ++ a.2.toList := by
  unfold readAssignment at h
  split at h
  next => simp at h
  next name value hcut =>
    obtain ⟨⟨⟩, hname, h⟩ := Outcome.bind_eq_ok_iff.1 h
    obtain rfl := Outcome.pure_eq_ok_iff.1 h
    have hname := isVariableName_of_checkName hname
    rw [String.toList_ofList] at hname
    obtain ⟨c, hc, heq⟩ := eq_of_cutAt? hcut
    obtain rfl : c = '=' := by simpa using hc
    refine ⟨by simpa using hname, name ++ ['='], ?_, by simp [heq]⟩
    exact bland_append.2 ⟨bland_of_isVariableName_trimBoth hname, by decide⟩

lemma holds_of_readAssignments (hR : Stable R) {path : String} {i : Nat} {es : List String}
    {as : List (String × String)} (hes : ∀ s ∈ es, OnChars R s)
    (h : readAssignments path i es = .ok as) :
    ∀ a ∈ as, isVariableName a.1.toList = true ∧ OnChars R a.2 := by
  induction es generalizing i as with
  | nil =>
    obtain rfl := Except.ok.inj h
    simp
  | cons e es ih =>
    obtain ⟨a, ha, h⟩ := Outcome.bind_eq_ok_iff.1 h
    obtain ⟨as', has, h⟩ := Outcome.bind_eq_ok_iff.1 h
    obtain rfl := Outcome.pure_eq_ok_iff.1 h
    rw [List.forall_mem_cons] at hes ⊢
    obtain ⟨hname, front, hfront, heq⟩ := exists_of_readAssignment ha
    have he : R (front ++ a.2.toList) := heq ▸ hes.1
    exact ⟨⟨hname, hR.behind hfront he⟩, ih hes.2 has⟩

lemma holds_of_readValue (hR : Stable R) {path value : String} {t : Tree}
    (ht : t.Holds (OnChars R)) (h : readValue path t = .ok value) : OnChars R value := by
  cases t with
  | null =>
    obtain rfl := Except.ok.inj h
    exact hR.bland (.literal rfl)
  | text s =>
    obtain rfl := Except.ok.inj h
    exact ht _ (by simp)
  | number n =>
    obtain rfl := Except.ok.inj h
    exact hR.bland (bland_number n)
  | bool b =>
    obtain rfl := Except.ok.inj h
    exact hR.bland (bland_boolText b)
  | _ => simp [readValue, Tree.scalarText?] at h

/-- The variables of a section get the property of its texts. -/
lemma holds_of_environment (hR : Stable R) {path : String} {s : EnvironmentSection}
    {e : Environment} (hs : s.Holds (OnChars R)) (h : s.environment path = .ok e) :
    e.Holds (OnChars R) := by
  cases s with
  | list entries =>
    obtain ⟨as, has, rfl⟩ := Outcome.map_eq_ok_iff.1 h
    exact fun v hv => holds_of_readAssignments hR hs has v (OrderedMap.mem_of_mem_ofList hv)
  | mapping entries =>
    obtain ⟨as, has, rfl⟩ := Outcome.map_eq_ok_iff.1 h
    intro v hv
    obtain ⟨⟨name, t⟩, ht, hread⟩ :=
      Outcome.exists_of_mem_mapM has (OrderedMap.mem_of_mem_ofList hv)
    obtain ⟨⟨⟩, hname, hread⟩ := Outcome.bind_eq_ok_iff.1 hread
    obtain ⟨value, hvalue, hread⟩ := Outcome.bind_eq_ok_iff.1 hread
    obtain rfl := Outcome.pure_eq_ok_iff.1 hread
    exact ⟨isVariableName_of_checkName hname, holds_of_readValue hR (hs _ ht) hvalue⟩

end EnvironmentSection

/-- Exporting keeps the property of both environments. -/
lemma Environment.Holds.exportAll {P : String → Prop} {e f : Environment} (he : e.Holds P)
    (hf : f.Holds P) : (e.exportAll f).Holds P :=
  fun v hv => (OrderedMap.mem_of_mem_insertAll hv).elim (he v) (hf v)

/-! ### Ports -/

lemma Port.holds_of_normalizeFrom (hR : Stable R) {path : String} {i : Nat} {es ps : List String}
    (hes : ∀ s ∈ es, OnChars R s) (h : normalizeFrom path i es = .ok ps) :
    ∀ p ∈ ps, OnChars R p := by
  induction es generalizing i ps with
  | nil =>
    obtain rfl := Except.ok.inj h
    simp
  | cons e es ih =>
    obtain ⟨port, hport, h⟩ := Outcome.bind_eq_ok_iff.1 h
    obtain ⟨ports, hports, h⟩ := Outcome.bind_eq_ok_iff.1 h
    obtain rfl := Outcome.pure_eq_ok_iff.1 h
    rw [List.forall_mem_cons] at hes
    refine List.forall_mem_append.2 ⟨fun p hp => ?_, ih hes.2 hports⟩
    obtain rfl := Option.mem_toList.1 hp
    exact hR.port (hR.trimmed hes.1) (normalize_eq_some_iff.1 hport)

/-! ### Checked stages -/

/-- The name of the user is one, and the password has the property. -/
structure User.Holds (P : String → Prop) (u : User) : Prop where
  name : isUserName u.name.toList = true
  password : ∀ s ∈ u.password?, P s

/-- The texts of the stage have the property, and no two users have one name. -/
structure StageSpec.Holds (P : String → Prop) (s : StageSpec) : Prop where
  image : s.image.Holds P
  users : ∀ ssh ∈ s.ssh?, ∀ u ∈ ssh.users, u.Holds P
  distinct : ∀ ssh ∈ s.ssh?, (ssh.users.map User.name).Nodup
  proxy : s.proxy.Holds P
  apt : s.apt.Holds P
  environment : s.environment.Holds P
  ports : ∀ p ∈ s.ports, P p
  storage : ∀ e ∈ s.storage.entries, e.1 ∈ storageCategories ∧ e.2.Holds P
  mount : ∀ e ∈ s.mount.entries, e.2.Holds P
  scripts : s.scripts.Holds P

lemma User.holds_of_ofSection {P : String → Prop} {path name : String} {s : UserSection} {u : User}
    (hs : s.Holds P) (h : ofSection path name s = .ok u) : u.Holds P := by
  obtain ⟨hname, hdeclared, -⟩ := ofSection_eq_ok_iff.1 h
  refine ⟨hdeclared.name ▸ hname, ?_⟩
  rw [hdeclared.password]
  exact hs.password

lemma Ssh.holds_of_ofSection {P : String → Prop} {path : String} {s : SshSection} {ssh : Ssh}
    (hs : s.Holds P) (h : ofSection path s = .ok ssh) : ∀ u ∈ ssh.users, u.Holds P := by
  intro u hu
  obtain ⟨e, he, hread⟩ := Outcome.exists_of_mem_mapM (users_of_ofSection h) hu
  exact User.holds_of_ofSection (hs.users e he) hread

lemma Ssh.distinct_of_ofSection {P : String → Prop} {path : String} {s : SshSection} {ssh : Ssh}
    (hs : s.Holds P) (h : ofSection path s = .ok ssh) : (ssh.users.map User.name).Nodup := by
  rw [names_of_ofSection h]
  exact hs.distinct

lemma StageSpec.holds_of_ofSection (hR : Stable R) {stage : Stage} {s : StageSection}
    {spec : StageSpec} (hs : s.Holds (OnChars R)) (h : ofSection stage s = .ok spec) :
    spec.Holds (OnChars R) := by
  obtain ⟨-, henv, hcategories, hports, -, heq⟩ := ofSection_eq_ok_iff.1 h
  constructor
  case image =>
    rw [heq]
    cases hi : s.image? with
    | none => exact Image.holds_empty
    | some i => exact hs.image i hi
  case users =>
    intro ssh hmem
    obtain ⟨x, hx, hread⟩ := exists_ssh_of_ofSection h hmem
    exact Ssh.holds_of_ofSection (hs.ssh x hx) hread
  case distinct =>
    intro ssh hmem
    obtain ⟨x, hx, hread⟩ := exists_ssh_of_ofSection h hmem
    exact Ssh.distinct_of_ofSection (hs.ssh x hx) hread
  case proxy =>
    rw [heq]
    cases hx : s.proxy? with
    | none => exact Proxy.holds_empty
    | some x => exact hs.proxy x hx
  case apt =>
    rw [heq]
    cases hx : s.apt? with
    | none => exact Apt.holds_empty
    | some x => exact hs.apt x hx
  case environment => exact EnvironmentSection.holds_of_environment hR hs.environment henv
  case ports => exact Port.holds_of_normalizeFrom hR hs.ports hports
  case storage =>
    rw [heq]
    exact fun e he => ⟨mem_of_checkCategories hcategories e.1 (List.mem_map_of_mem he),
      hs.storage e he⟩
  case mount =>
    rw [heq]
    exact hs.mount
  case scripts =>
    rw [heq]
    cases hx : s.scripts? with
    | none => exact Scripts.holds_empty
    | some x => exact hs.scripts x hx

lemma StageSpec.holds_empty {P : String → Prop} : StageSpec.empty.Holds P where
  image := Image.holds_empty
  users := by simp [empty]
  distinct := by simp [empty]
  proxy := Proxy.holds_empty
  apt := Apt.holds_empty
  environment := by simp [empty, Environment.Holds, OrderedMap.empty]
  ports := by simp [empty]
  storage := by simp [empty, OrderedMap.empty]
  mount := by simp [empty, OrderedMap.empty]
  scripts := Scripts.holds_empty

lemma StageSpec.Holds.withOutput {P : String → Prop} {s : StageSpec} {image : String}
    (hs : s.Holds P) (himage : P image) : (s.withOutput image).Holds P :=
  { hs with
    image.base := hs.image.base
    image.output := fun t ht => by
      obtain rfl : s.image.output?.getD image = t := by simpa [StageSpec.withOutput] using ht
      cases ho : s.image.output? with
      | none => exact himage
      | some o => exact hs.image.output o ho }

/-! ### Checked documents -/

/-- The texts of both stages have the property, and the project's name is bland. -/
structure Spec.Holds (P : String → Prop) (s : Spec) : Prop where
  project : Bland s.project.name.toList
  stage : ∀ stage, (s.stage stage).Holds P

lemma Project.bland_defaultImage (configured : Option String) (dir : Path) (stage : Stage) :
    Bland ((Project.of configured dir).defaultImage stage).toList := by
  rw [defaultImage, String.toList_append, String.toList_append, bland_append, bland_append]
  exact ⟨⟨bland_projectName configured dir, .literal rfl⟩, bland_label stage⟩

lemma Spec.holds_of_ofDocument (hR : Stable R) {dir : Path} {d : Document} {s : Spec}
    (hd : d.Holds (OnChars R)) (h : ofDocument dir d = .ok s) : s.Holds (OnChars R) := by
  obtain ⟨section₁, first, second, hfirst, h₁, hsecond, -, rfl⟩ := ofDocument_eq_ok_iff.1 h
  have himage (stage : Stage) : OnChars R ((Project.of d.projectName? dir).defaultImage stage) :=
    hR.bland (Project.bland_defaultImage _ _ stage)
  refine ⟨bland_projectName _ _, fun stage => ?_⟩
  cases stage with
  | first =>
    exact (StageSpec.holds_of_ofSection hR (hd.first _ hfirst) h₁).withOutput (himage .first)
  | second =>
    have hspec : second.Holds (OnChars R) := by
      rcases hsecond with ⟨-, rfl⟩ | ⟨section₂, hmem, h₂⟩
      · exact StageSpec.holds_empty
      · exact StageSpec.holds_of_ofSection hR (hd.second _ hmem) h₂
    exact hspec.withOutput (himage .second)

/-! ### Views -/

structure StageView.Holds (P : String → Prop) (v : StageView) : Prop where
  image : v.image.Holds P
  proxy : v.proxy.Holds P
  apt : v.apt.Holds P
  environment : v.environment.Holds P
  ports : ∀ p ∈ v.ports, P p

lemma Proxy.Holds.overriddenBy {P : String → Prop} {s t : Proxy} (hs : s.Holds P)
    (ht : t.Holds P) : (s.overriddenBy t).Holds P where
  address a ha := by
    cases hx : t.address? with
    | none => exact hs.address a (by simpa [Proxy.overriddenBy, hx] using ha)
    | some b => exact ht.address a (by simpa [Proxy.overriddenBy, hx] using ha)

lemma Apt.Holds.overriddenBy {P : String → Prop} {s t : Apt} (hs : s.Holds P)
    (ht : t.Holds P) : (s.overriddenBy t).Holds P where
  repoSource a ha := by
    cases hx : t.repoSource? with
    | none => exact hs.repoSource a (by simpa [Apt.overriddenBy, hx] using ha)
    | some b => exact ht.repoSource a (by simpa [Apt.overriddenBy, hx] using ha)

/-- Joining bland parts gives a bland port. -/
lemma Port.bland_of_join {host container : Option (List Char)} {port : List Char}
    (hhost : ∀ cs ∈ host, Bland cs) (hcontainer : ∀ cs ∈ container, Bland cs)
    (h : join host container = some port) : Bland port := by
  have hpart {o : Option (List Char)} {cs : List Char} (ho : ∀ cs ∈ o, Bland cs)
      (hcs : o.bind part? = some cs) : Bland cs := by
    obtain ⟨ds, hds, hcs⟩ := Option.bind_eq_some_iff.1 hcs
    unfold part? at hcs
    split at hcs
    next => simp at hcs
    next =>
      obtain rfl := Option.some.inj hcs
      exact fun c hc => ho ds hds c ((trimBoth_isInfix ds).subset hc)
  unfold join at h
  split at h
  next => simp at h
  next hc _ => exact Option.some.inj h ▸ hpart hcontainer hc
  next hc hh =>
    obtain rfl := Option.some.inj h
    exact bland_append.2 ⟨hpart hhost hh, bland_cons.2 ⟨by decide, hpart hcontainer hc⟩⟩

/-- The port of a server is made of digits. -/
lemma Ssh.bland_of_portMapping {s : Ssh} {p : String} (h : s.portMapping = some p) :
    Bland p.toList := by
  unfold portMapping at h
  split at h
  next =>
    obtain ⟨cs, hjoin, rfl⟩ := Option.map_eq_some_iff.1 h
    rw [String.toList_ofList]
    refine Port.bland_of_join (fun cs hcs => ?_) (fun cs hcs => ?_) hjoin
    · obtain ⟨t, ht, rfl⟩ := Option.map_eq_some_iff.1 hcs
      obtain ⟨n, -, rfl⟩ := Option.map_eq_some_iff.1 ht
      exact bland_natText n
    · obtain rfl := Option.some.inj hcs
      exact bland_natText _
  next => simp at h

/-- A view is made of the stages' own texts and of digits. -/
lemma Spec.Holds.view (hR : Stable R) {s : Spec} (hs : s.Holds (OnChars R)) (stage : Stage) :
    (StageView.of s (Merged.ofSpec s) stage).Holds (OnChars R) := by
  have h₁ : s.first.Holds (OnChars R) := hs.stage .first
  have h₂ : s.second.Holds (OnChars R) := hs.stage .second
  have hport {o : Option Ssh} : ∀ p ∈ (o.bind Ssh.portMapping).toList, OnChars R p := by
    intro p hp
    obtain ⟨ssh, -, hmap⟩ := Option.bind_eq_some_iff.1 (Option.mem_toList.1 hp)
    exact hR.bland (Ssh.bland_of_portMapping hmap)
  cases stage with
  | first =>
    refine ⟨h₁.image, h₁.proxy, h₁.apt, h₁.environment, ?_⟩
    simp only [StageView.of]
    split
    · exact List.forall_mem_append.2 ⟨h₁.ports, hport⟩
    · exact h₁.ports
  | second =>
    refine ⟨h₂.image, h₁.proxy.overriddenBy h₂.proxy, h₁.apt.overriddenBy h₂.apt,
      h₁.environment.exportAll h₂.environment, ?_⟩
    refine List.forall_mem_append.2 ⟨List.forall_mem_append.2 ⟨h₁.ports, h₂.ports⟩, ?_⟩
    intro p hp
    obtain ⟨ssh, -, hmap⟩ := Option.bind_eq_some_iff.1 (Option.mem_toList.1 hp)
    exact hR.bland (Ssh.bland_of_portMapping hmap)

end TwoStage
