import TwoStage.Proofs.Credentials.Resolving
import TwoStage.Proofs.Path

/-!
# The files of users

Every key file of a user stands in the user's own directory, under one of five names.
-/

namespace TwoStage

/-- The names of key files in a user's directory, in the order in which they are made. -/
def keyFileNames : List String :=
  ["pubkey.pub", "privkey.pub", Credentials.generatedKeyName ++ ".pub", "privkey",
    Credentials.generatedKeyName]

/-- The file stands in the directory under the name of a key file. -/
def KeyFile.IsIn (dir : Path) (f : KeyFile) : Prop := ∃ n ∈ keyFileNames, f.path = dir.child n

lemma isName_of_mem_keyFileNames : ∀ name ∈ keyFileNames, Path.IsName name := by decide

lemma Stage.isName_label (stage : Stage) : Path.IsName stage.label := by
  cases stage <;> decide

lemma Stage.isName_of_mem_generatedNames (stage : Stage) :
    ∀ n ∈ [stage.label, generatedName], Path.IsName n := by
  cases stage <;> decide

/-- The directory of a stage's files is below the one of the stage. -/
lemma Stage.generatedDir_eq (stage : Stage) :
    stage.generatedDir = Path.ofNames [stage.label, generatedName] := by
  have hlabel := stage.isName_label
  have hgenerated : Path.IsName generatedName := by decide
  rw [generatedDir, hlabel.ofString_eq, Path.child_ofNames (by simp) (by simp [hlabel]) hgenerated]
  rfl

namespace Credentials

variable {ctx : Context} {generator : Generator} {stage : Stage} {u : User} {dir : Path}

/-! ### Where files stand -/

/-- The name of a user is one step of a path. -/
lemma isName_of_isUserName {user : String} (h : isUserName user.toList = true) :
    Path.IsName user := by
  have hslash : ∀ c ∈ user.toList, c ≠ '/' := by
    generalize user.toList = cs at h
    cases cs with
    | nil => simp
    | cons c cs =>
      simp only [isUserName, Bool.and_eq_true, Bool.or_eq_true, beq_iff_eq, List.all_eq_true] at h
      refine List.forall_mem_cons.2 ⟨?_, fun d hd => ?_⟩
      · rintro rfl
        exact absurd h.1 (by decide)
      · rintro rfl
        exact absurd (h.2 '/' hd) (by decide)
  refine ⟨fun hmem => hslash '/' hmem rfl, ?_⟩
  unfold Path.step?
  split
  next heq => simp [heq, isUserName] at h
  next heq => exact absurd (heq ▸ h) (by decide)
  next heq => exact absurd (heq ▸ h) (by decide)
  next => rfl

/-- The names of the directory of a user's key files, from the project on. -/
def keyDirNames (stage : Stage) (user : String) : List String :=
  [stage.label, generatedName, "ssh", user]

lemma isName_of_mem_keyDirNames (stage : Stage) {user : String} (hu : Path.IsName user) :
    ∀ n ∈ keyDirNames stage user, Path.IsName n := by
  simp only [keyDirNames, List.forall_mem_cons]
  exact ⟨stage.isName_label, by decide, by decide, hu, List.forall_mem_nil _⟩

lemma keyDir_eq (stage : Stage) {user : String} (hu : Path.IsName user) :
    keyDir stage user = Path.ofNames (keyDirNames stage user) := by
  have hnames := isName_of_mem_keyDirNames stage hu
  simp only [keyDirNames, List.forall_mem_cons] at hnames
  obtain ⟨hlabel, hgenerated, hssh, -⟩ := hnames
  rw [keyDir, stage.generatedDir_eq,
    Path.child_ofNames (by simp) stage.isName_of_mem_generatedNames hssh,
    Path.child_ofNames (by simp) (by simp [hlabel, hgenerated, hssh]) hu]
  rfl

lemma child_keyDir_eq (stage : Stage) {user name : String} (hu : Path.IsName user)
    (hname : name ∈ keyFileNames) :
    (keyDir stage user).child name = Path.ofNames (keyDirNames stage user ++ [name]) := by
  rw [keyDir_eq stage hu]
  exact Path.child_ofNames (List.cons_ne_nil _ _) (isName_of_mem_keyDirNames stage hu)
    (isName_of_mem_keyFileNames name hname)

/-! ### What resolving gives -/

lemma sublist_of_publicFile {fs : List KeyFile} (h : publicFile ctx dir u = .ok fs) :
    (fs.map KeyFile.path).Sublist [dir.child "pubkey.pub"] := by
  obtain ⟨found, -, h⟩ := Outcome.bind_eq_ok_iff.1 h
  cases found with
  | none =>
    obtain rfl := Outcome.pure_eq_ok_iff.1 h
    exact List.nil_sublist _
  | some found =>
    obtain rfl := Outcome.pure_eq_ok_iff.1 h
    exact .refl _

lemma sublist_of_privateFiles {fs : List KeyFile} {key? : Option KeyFile}
    (h : privateFiles ctx dir u = .ok (fs, key?)) :
    (fs.map KeyFile.path).Sublist [dir.child "privkey.pub"] ∧
      (key?.toList.map KeyFile.path).Sublist [dir.child "privkey"] := by
  obtain ⟨found, -, h⟩ := Outcome.bind_eq_ok_iff.1 h
  cases found with
  | none =>
    obtain ⟨rfl, rfl⟩ := Prod.mk.inj (Outcome.pure_eq_ok_iff.1 h)
    exact ⟨List.nil_sublist _, List.nil_sublist _⟩
  | some found =>
    obtain ⟨half, -, h⟩ := Outcome.bind_eq_ok_iff.1 h
    obtain ⟨rfl, rfl⟩ := Prod.mk.inj (Outcome.pure_eq_ok_iff.1 h)
    cases half with
    | none => exact ⟨List.nil_sublist _, .refl _⟩
    | some key => exact ⟨.refl _, .refl _⟩

lemma sublist_of_freshFiles {fs : List KeyFile} {key? : Option KeyFile} {requests : List String}
    (h : freshFiles ctx generator stage dir u = .ok (fs, key?, requests)) :
    (fs.map KeyFile.path).Sublist [dir.child (generatedKeyName ++ ".pub")] ∧
      (key?.toList.map KeyFile.path).Sublist [dir.child generatedKeyName] := by
  rcases freshFiles_eq_ok_iff.1 h with ⟨-, heq⟩ | ⟨-, pair, origin, asked, -, heq⟩
  · cases heq
    exact ⟨List.nil_sublist _, List.nil_sublist _⟩
  · cases heq
    exact ⟨.refl _, .refl _⟩

lemma name_of_resolveUser {keyed : KeyedUser} {requests : List String}
    (h : resolveUser ctx generator stage u = .ok (keyed, requests)) : keyed.name = u.name := by
  obtain ⟨given, half, fresh, -, -, -, heq⟩ := resolveUser_eq_ok_iff.1 h
  rw [heq]

/-- The files of a user are some of the five. -/
lemma sublist_of_resolveUser {keyed : KeyedUser} {requests : List String}
    (h : resolveUser ctx generator stage u = .ok (keyed, requests)) :
    (keyed.files.map KeyFile.path).Sublist (keyFileNames.map (keyDir stage u.name).child) := by
  obtain ⟨given, half, fresh, hgiven, hhalf, hfresh, heq⟩ := resolveUser_eq_ok_iff.1 h
  obtain ⟨hhalf, hprivate⟩ := sublist_of_privateFiles hhalf
  obtain ⟨hfresh, hhost⟩ := sublist_of_freshFiles hfresh
  have hall := ((((sublist_of_publicFile hgiven).append hhalf).append hfresh).append
    hprivate).append hhost
  rw [KeyedUser.files, heq]
  simpa [keyFileNames] using hall

lemma isIn_of_resolveUser {keyed : KeyedUser} {requests : List String}
    (h : resolveUser ctx generator stage u = .ok (keyed, requests)) :
    ∀ f ∈ keyed.files, f.IsIn (keyDir stage u.name) := by
  intro f hf
  obtain ⟨n, hn, heq⟩ :=
    List.mem_map.1 ((sublist_of_resolveUser h).subset (List.mem_map_of_mem hf))
  exact ⟨n, hn, heq.symm⟩

/-- No key that lets in is put where private keys are. -/
lemma exists_path_of_mem_authorized {keyed : KeyedUser} {requests : List String}
    (h : resolveUser ctx generator stage u = .ok (keyed, requests)) {f : KeyFile}
    (hf : f ∈ keyed.authorized) :
    ∃ n ∈ keyFileNames, n ≠ "privkey" ∧ f.path = (keyDir stage u.name).child n := by
  obtain ⟨given, half, fresh, hgiven, hhalf, hfresh, heq⟩ := resolveUser_eq_ok_iff.1 h
  have hnamed {fs : List KeyFile} {n : String} (hn : n ∈ keyFileNames) (hne : n ≠ "privkey")
      (hfs : (fs.map KeyFile.path).Sublist [(keyDir stage u.name).child n]) (hf : f ∈ fs) :
      ∃ n ∈ keyFileNames, n ≠ "privkey" ∧ f.path = (keyDir stage u.name).child n :=
    ⟨n, hn, hne, List.mem_singleton.1 (hfs.subset (List.mem_map_of_mem hf))⟩
  rw [heq, List.mem_append, List.mem_append] at hf
  rcases hf with (hf | hf) | hf
  · exact hnamed (by decide) (by decide) (sublist_of_publicFile hgiven) hf
  · exact hnamed (by decide) (by decide) (sublist_of_privateFiles hhalf).1 hf
  · exact hnamed (by decide) (by decide) (sublist_of_freshFiles hfresh).1 hf

lemma exists_of_mem_users {ssh : InstalledSsh} {credentials : Credentials}
    (h : resolve ctx generator ssh = .ok credentials) {keyed : KeyedUser}
    (hk : keyed ∈ credentials.users) :
    ∃ u ∈ ssh.settings.users, ∃ requests,
      resolveUser ctx generator ssh.stage u = .ok (keyed, requests) := by
  obtain ⟨resolved, hresolved, rfl⟩ := resolve_eq_ok_iff.1 h
  obtain ⟨⟨keyed, requests⟩, hmem, rfl⟩ := List.mem_map.1 hk
  obtain ⟨u, hu, hread⟩ := Outcome.exists_of_mem_mapM (Outcome.mapM_eq_ok_iff.2 hresolved) hmem
  exact ⟨u, hu, requests, resolveUser_of_checkAndResolve hread⟩

/-- What resolving users keeps of them is there in their order. -/
lemma map_users_of_resolve {γ : Type} {ssh : InstalledSsh} {credentials : Credentials}
    {f : KeyedUser → γ} {g : User → γ}
    (hf : ∀ u keyed requests, resolveUser ctx generator ssh.stage u = .ok (keyed, requests) →
      f keyed = g u)
    (h : resolve ctx generator ssh = .ok credentials) :
    credentials.users.map f = ssh.settings.users.map g := by
  obtain ⟨resolved, hresolved, rfl⟩ := resolve_eq_ok_iff.1 h
  rw [List.map_map]
  exact Outcome.map_eq_of_mapM
    (fun u found hread => hf u found.1 found.2 (resolveUser_of_checkAndResolve hread))
    (Outcome.mapM_eq_ok_iff.2 hresolved)

/-- Resolving keeps the names of the users. -/
lemma names_of_resolve {ssh : InstalledSsh} {credentials : Credentials}
    (h : resolve ctx generator ssh = .ok credentials) :
    credentials.users.map KeyedUser.name = ssh.settings.users.map User.name :=
  map_users_of_resolve (fun _ _ _ hread => name_of_resolveUser hread) h

end Credentials

end TwoStage
