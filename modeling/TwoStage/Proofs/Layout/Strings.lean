import TwoStage.Layout
import TwoStage.Proofs.Compilation.Prepared
import TwoStage.Proofs.Mount.Strings

/-!
# The texts of a context

A stable property of all strings of a document is one of all texts that a context gives to the
template: the images, build arguments, variables and ports of both stages, and the entries of their
volumes. The only texts that come from elsewhere are the directories of the host.
-/

namespace TwoStage

open Text Decimal

variable {R : List Char → Prop}

/-! ### Build arguments -/

/-- The name is one, the password has the property, and the files stand where they belong. -/
structure KeyedUser.Holds (P : String → Prop) (u : KeyedUser) : Prop where
  name : isUserName u.name.toList = true
  password : ∀ s ∈ u.password?, P s
  files : ∃ stage, ∀ f ∈ u.files, f.IsIn (Credentials.keyDir stage u.name)

/-- The steps of a path are as bland as its segments. -/
lemma bland_of_mem_components {p : Path} (h : ∀ s ∈ p.segments, Bland s) {c : Component}
    (hc : c ∈ p.components) : Bland c.text.toList := by
  have hstep : ∀ c ∈ p.segments.filterMap Path.step?, Bland c.text.toList := by
    intro c hc
    obtain ⟨s, hs, hstep⟩ := List.mem_filterMap.1 hc
    unfold Path.step? at hstep
    split at hstep
    next => simp at hstep
    next => simp at hstep
    next =>
      obtain rfl := Option.some.inj hstep
      exact .literal rfl
    next =>
      obtain rfl := Option.some.inj hstep
      simpa [Component.text] using h s hs
  unfold Path.components at hc
  split at hc
  next =>
    rcases List.mem_cons.1 hc with rfl | hc
    · exact .literal rfl
    · exact hstep c hc
  next =>
    split at hc
    next =>
      rcases List.mem_cons.1 hc with rfl | hc
      · exact .literal rfl
      · exact hstep c hc
    next => exact hstep c hc

/-- The files of a user have bland paths. -/
lemma KeyedUser.Holds.bland_inContainer {P : String → Prop} {u : KeyedUser} (hu : u.Holds P)
    {f : KeyFile} (hf : f ∈ u.files) : Bland f.path.inContainer.toList := by
  obtain ⟨stage, hfiles⟩ := hu.files
  have hname := Credentials.isName_of_isUserName hu.name
  obtain ⟨n, hn, hpath⟩ := hfiles f hf
  have hbland : ∀ s ∈ (Credentials.keyDirNames stage u.name ++ [n]).map String.toList, Bland s := by
    have hn : Bland n.toList :=
      (by decide : ∀ n ∈ keyFileNames, Bland n.toList) n hn
    simp only [Credentials.keyDirNames, List.cons_append, List.nil_append, List.map_cons,
      List.map_nil, List.forall_mem_cons]
    exact ⟨bland_label stage, .literal rfl, .literal rfl, bland_of_isUserName hu.name, hn,
      List.forall_mem_nil _⟩
  rw [hpath, Credentials.child_keyDir_eq stage hname hn, Path.inContainer, String.toList_append,
    bland_append, String.toList_join]
  refine ⟨.literal rfl, fun d hd => ?_⟩
  obtain ⟨t, ht, hd⟩ := List.mem_flatMap.1 hd
  obtain ⟨c, hc, rfl⟩ := List.mem_map.1 ht
  have htext := bland_of_mem_components hbland hc
  rw [String.toList_append] at hd
  exact bland_append.2 ⟨(.literal rfl), htext⟩ d hd

namespace BuildArguments

def Holds (P : String → Prop) (arguments : List Argument) : Prop := ∀ a ∈ arguments, P a.2

variable {P : String → Prop}

lemma Holds.append {as bs : List Argument} (ha : Holds P as) (hb : Holds P bs) :
    Holds P (as ++ bs) :=
  List.forall_mem_append.2 ⟨ha, hb⟩

lemma holds_argumentIf {name : String} {value : Option String} (h : ∀ v ∈ value, P v) :
    Holds P (argumentIf name value) := by
  cases value with
  | none => simp [argumentIf, Holds]
  | some v => simpa [argumentIf, Holds] using h v rfl

lemma holds_flagIf (hR : Stable R) (name : String) (value : Option Bool) :
    Holds (OnChars R) (flagIf name value) := by
  refine holds_argumentIf fun v hv => ?_
  obtain ⟨b, -, rfl⟩ := Option.map_eq_some_iff.1 hv
  exact hR.bland (bland_boolText b)

lemma holds_commaSeparated (hR : Stable R) {texts : List String} (h : ∀ t ∈ texts, OnChars R t) :
    OnChars R (commaSeparated texts) := by
  show R _
  rw [commaSeparated, String.toList_intercalate]
  induction texts with
  | nil => exact hR.bland .nil
  | cons t texts ih =>
    rw [List.forall_mem_cons] at h
    cases texts with
    | nil => simpa using h.1
    | cons u texts =>
      rw [List.map_cons, List.map_cons, List.intercalate_cons_cons, ← List.map_cons,
        List.append_assoc]
      exact hR.seam (c := ',') (by decide) h.1 (ih h.2)

lemma holds_listIf (hR : Stable R) {name : String} {texts : List String}
    (h : ∀ t ∈ texts, OnChars R t) : Holds (OnChars R) (listIf name texts) := by
  refine holds_argumentIf fun v hv => ?_
  split at hv
  next => simp at hv
  next =>
    obtain rfl := Option.some.inj hv
    exact holds_commaSeparated hR h

/-- An address with a scheme in front and a port behind it. -/
lemma holds_url? (hR : Stable R) {proxy : Proxy} (h : proxy.Holds (OnChars R)) :
    ∀ v ∈ proxy.url?, OnChars R v := by
  intro v hv
  rw [Option.mem_def] at hv
  unfold Proxy.url? at hv
  split at hv
  next address port haddress _ =>
    obtain rfl := Option.some.inj hv
    show R _
    have hseam : R (address.toList ++ ':' :: (natText port).toList) :=
      hR.seam (by decide) (h.address address haddress) (hR.bland (bland_natText port))
    split
    · have hscheme : R "https:/".toList := hR.bland (.literal rfl)
      simpa using hR.seam (c := '/') (by decide) hscheme hseam
    · have hscheme : R "http:/".toList := hR.bland (.literal rfl)
      simpa using hR.seam (c := '/') (by decide) hscheme hseam
  next => simp at hv

lemma holds_network (hR : Stable R) {proxy : Proxy} {apt : Apt} (hproxy : proxy.Holds (OnChars R))
    (hapt : apt.Holds (OnChars R)) : Holds (OnChars R) (network proxy apt) :=
  ((((((holds_argumentIf (holds_url? hR hproxy)).append
    (holds_flagIf hR _ _)).append (holds_flagIf hR _ _)).append
    (holds_argumentIf hapt.repoSource)).append (holds_flagIf hR _ _)).append
    (holds_flagIf hR _ _)).append (holds_flagIf hR _ _)

lemma holds_user (hR : Stable R) (i : Nat) {u : KeyedUser} (hu : u.Holds (OnChars R)) :
    Holds (OnChars R) (user i u) := by
  have hnumber (name : String) (n? : Option Nat) :
      Holds (OnChars R) (argumentIf name (n?.map natText)) := by
    refine holds_argumentIf fun v hv => ?_
    obtain ⟨n, -, rfl⟩ := Option.map_eq_some_iff.1 hv
    exact hR.bland (bland_natText n)
  have hname : Holds (OnChars R) [("SSH_USER_" ++ natText i ++ "_" ++ "NAME", u.name)] := by
    simpa [Holds] using hR.bland (bland_of_isUserName hu.name)
  refine ((((hname.append (holds_argumentIf hu.password)).append (hnumber _ _)).append
    (hnumber _ _)).append (holds_listIf hR fun t ht => ?_)).append
    (holds_argumentIf fun t ht => ?_)
  · obtain ⟨key, hkey, rfl⟩ := List.mem_map.1 ht
    exact hR.bland (hu.bland_inContainer (by simp [KeyedUser.files, hkey]))
  · obtain ⟨key, hkey, rfl⟩ := Option.map_eq_some_iff.1 ht
    exact hR.bland (hu.bland_inContainer (by simp [KeyedUser.files, hkey]))

lemma holds_ssh (hR : Stable R) (settings : Option Ssh) {users : List KeyedUser}
    (husers : ∀ u ∈ users, u.Holds (OnChars R)) : Holds (OnChars R) (ssh settings users) := by
  unfold ssh
  split
  next => simp [Holds]
  next s =>
    split
    next =>
      refine Holds.append ?_ fun a ha => ?_
      · simp only [Holds, List.forall_mem_cons]
        exact ⟨hR.bland (bland_natText _), hR.bland (bland_natText _), List.forall_mem_nil _⟩
      · obtain ⟨as, has, ha⟩ := List.mem_flatten.1 ha
        obtain ⟨i, hi, rfl⟩ := List.mem_mapIdx.1 has
        exact holds_user hR i (husers _ (List.getElem_mem hi)) a ha
    next => simp [Holds]

/-- The directories of a stage in its image are bland. -/
lemma bland_stageDir (stage : Stage) : Bland (stageDir stage).toList := by
  simp only [stageDir, String.toList_append, bland_append]
  exact ⟨⟨.literal rfl, .literal rfl⟩, bland_label stage⟩

lemma bland_generatedDir (stage : Stage) : Bland (generatedDir stage).toList := by
  simp only [generatedDir, String.toList_append, bland_append]
  exact ⟨⟨bland_stageDir stage, .literal rfl⟩, .literal rfl⟩

lemma holds_of (hR : Stable R) {view : StageView} {users : List KeyedUser} {mounts : List Mount}
    (hview : view.Holds (OnChars R)) (husers : ∀ u ∈ users, u.Holds (OnChars R))
    (hmounts : ∀ m ∈ mounts, m.Holds (OnChars R)) :
    Holds (OnChars R) (of view users mounts).entries := by
  refine fun a ha => Holds.append (Holds.append (Holds.append (Holds.append ?_
    (holds_network hR hview.proxy hview.apt)) (holds_ssh hR _ husers)) ?_) ?_ a
    (OrderedMap.mem_of_mem_ofList ha)
  · simp only [Holds, List.forall_mem_cons]
    exact ⟨hR.bland (bland_stageDir _), hR.bland (bland_generatedDir _), List.forall_mem_nil _⟩
  · refine holds_argumentIf fun v hv => ?_
    split at hv
    next =>
      obtain rfl := Option.some.inj hv
      refine hR.bland ?_
      simp only [String.toList_append, bland_append]
      exact ⟨⟨bland_generatedDir _, .literal rfl⟩, .literal rfl⟩
    next => simp at hv
  · refine holds_listIf hR fun t ht => ?_
    obtain ⟨m, hm, rfl⟩ := List.mem_map.1 ht
    exact (hmounts m (List.mem_filter.1 hm).1).destination

end BuildArguments

/-! ### Stages -/

namespace Layout

def volumeName? (m : Mount) : Option String :=
  match m.target with
  | .volume _ name _ => some name
  | _                => none

/-- The entry of a mount whose source is a volume. -/
def volumeText? (m : Mount) : Option String :=
  match m.target with
  | .volume key _ _ => some (key ++ ":" ++ m.destination)
  | _               => none

/-- The texts in the context of a stage, but for the entries of host directories. -/
def stageTexts (c : Compilation) (stage : Stage) : List String :=
  let view := c.view stage
  let mounts := c.mounts stage
  view.image.base?.toList ++ view.image.output?.toList ++
  (BuildArguments.of view c.users mounts).entries.map Prod.snd ++
  view.environment.assignments ++
  view.ports ++
  mounts.filterMap volumeText? ++
  mounts.filterMap volumeName?

section

variable {c : Compilation} {stage : Stage}

lemma mem_stageTexts_of_argument {a : BuildArguments.Argument}
    (h : a ∈ (BuildArguments.of (c.view stage) c.users (c.mounts stage)).entries) :
    a.2 ∈ stageTexts c stage := by
  simp only [stageTexts, List.mem_append]
  exact .inl (.inl (.inl (.inl (.inr (List.mem_map_of_mem h)))))

lemma mem_stageTexts_of_volumeText? {m : Mount} {s : String} (hm : m ∈ c.mounts stage)
    (h : volumeText? m = some s) : s ∈ stageTexts c stage := by
  simp only [stageTexts, List.mem_append]
  exact .inl (.inr (List.mem_filterMap.2 ⟨m, hm, h⟩))

lemma mem_stageTexts_of_volumeName? {m : Mount} {s : String} (hm : m ∈ c.mounts stage)
    (h : volumeName? m = some s) : s ∈ stageTexts c stage := by
  simp only [stageTexts, List.mem_append]
  exact .inr (List.mem_filterMap.2 ⟨m, hm, h⟩)

end

variable {ctx : Context} {generator : Generator} {d : Document} {c : Compilation}
  {vars : String → Option String} {text : String} {source? : Option Path}

lemma holds_mounts (h : Compilation.Prepared ctx generator { d with source? } c) (hR : Stable R)
    (hread : Document.ofText vars text = .ok d) (htree : d.tree.Holds (OnChars R))
    (stage : Stage) : ∀ m ∈ c.mounts stage, m.Holds (OnChars R) := by
  have hspec := h.spec_holds hR hread htree
  exact (hspec.stage stage).mounts hR hspec.project (h.mounts stage)

lemma holds_assignments (hR : Stable R) {e : Environment} (he : e.Holds (OnChars R)) :
    ∀ s ∈ e.assignments, OnChars R s := by
  intro s hs
  obtain ⟨⟨name, value⟩, hv, rfl⟩ := List.mem_map.1 hs
  obtain ⟨hname, hvalue⟩ := he _ hv
  show R _
  simp only [String.toList_append, List.append_assoc]
  exact hR.seam (by decide) (hR.bland (Bland.of_isVariableName hname)) hvalue

/-- All texts in the context of a stage have the property. -/
lemma holds_stageTexts (h : Compilation.Prepared ctx generator { d with source? } c)
    (hR : Stable R) (hread : Document.ofText vars text = .ok d) (htree : d.tree.Holds (OnChars R))
    (stage : Stage) : ∀ s ∈ stageTexts c stage, OnChars R s := by
  have hview := h.view_holds hR hread htree stage
  have hmounts := holds_mounts h hR hread htree stage
  have husers : ∀ u ∈ c.users, u.Holds (OnChars R) := fun u hu =>
    have ⟨hname, hpassword, hfiles⟩ := h.user_holds hR hread htree hu
    ⟨hname, hpassword, hfiles⟩
  intro s hs
  simp only [stageTexts, List.mem_append, Option.mem_toList] at hs
  -- in order: the images, the arguments, the variables, the ports, and the volumes with their names
  rcases hs with (((((hs | hs) | hs) | hs) | hs) | hs) | hs
  · exact hview.image.base s hs
  · exact hview.image.output s hs
  · obtain ⟨a, ha, rfl⟩ := List.mem_map.1 hs
    exact BuildArguments.holds_of hR hview husers hmounts a ha
  · exact holds_assignments hR hview.environment s hs
  · exact hview.ports s hs
  · obtain ⟨m, hm, hentry⟩ := List.mem_filterMap.1 hs
    unfold volumeText? at hentry
    split at hentry
    next key name external htarget =>
      obtain rfl := Option.some.inj hentry
      have hm := hmounts m hm
      show R _
      simp only [String.toList_append, List.append_assoc]
      exact hR.seam (by decide) (hR.bland (hm.volume _ _ _ htarget).1) hm.destination
    next => simp at hentry
  · obtain ⟨m, hm, hname⟩ := List.mem_filterMap.1 hs
    unfold volumeName? at hname
    split at hname
    next key name external htarget =>
      obtain rfl := Option.some.inj hname
      exact ((hmounts m hm).volume _ _ _ htarget).2
    next => simp at hname

end Layout

end TwoStage
