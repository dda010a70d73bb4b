import Mathlib.Data.List.Flatten
import Mathlib.Data.List.Nodup
import TwoStage.Proofs.Artifact.Openers
import TwoStage.Proofs.Artifact.Written
import TwoStage.Proofs.Files.Below

/-!
# Where artifacts go

Every artifact goes down by names from the directory of the project, and no two artifacts of a
compilation have one path: those of a stage have names of their own in its directory, and those of a
user in the user's. So none of them replaces another one, in the list or on disk.
-/

namespace TwoStage

open Text Yaml

namespace Emission

/-! ### The names of all artifacts -/

/-- The names that lead from the project to the files of the stages. -/
def stageNames : List (List String) :=
  Stage.all.flatMap fun stage => bakedNames.map fun n => [stage.label, generatedName, n]

/-- The names that lead from the project to the key files of users. -/
def keyNames (stage : Stage) (users : List String) : List (List String) :=
  users.flatMap fun user => keyFileNames.map fun n => Credentials.keyDirNames stage user ++ [n]

/-- The names that lead from the project to all the files that a compilation may have. -/
def projectNames (stage : Stage) (users : List String) : List (List String) :=
  [[composeName]] ++ stageNames ++ keyNames stage users ++ [[buildScriptName]]

lemma nodup_keyNames (stage : Stage) {users : List String} (h : users.Nodup) :
    (keyNames stage users).Nodup := by
  have hnames : keyFileNames.Nodup := by decide
  rw [keyNames, List.nodup_flatMap]
  refine ⟨fun user _ => hnames.map fun n n' heq => ?_, h.imp fun {user user'} hne => ?_⟩
  · simpa using heq
  · refine List.disjoint_left.2 fun names hmem hmem' => ?_
    obtain ⟨n, -, rfl⟩ := List.mem_map.1 hmem
    obtain ⟨n', -, heq⟩ := List.mem_map.1 hmem'
    simp only [Credentials.keyDirNames, List.cons_append, List.nil_append, List.cons.injEq] at heq
    exact hne heq.2.2.2.1.symm

/-- The files are told apart by how many names lead to them, and by the last of these. -/
lemma nodup_projectNames (stage : Stage) {users : List String} (h : users.Nodup) :
    (projectNames stage users).Nodup := by
  have hthree : ∀ names ∈ stageNames, names.length = 3 := by decide
  have hfive : ∀ names ∈ keyNames stage users, names.length = 5 := by
    intro names hnames
    obtain ⟨user, -, hnames⟩ := List.mem_flatMap.1 hnames
    obtain ⟨n, -, rfl⟩ := List.mem_map.1 hnames
    rfl
  have hstages : stageNames.Nodup := by decide
  have hsingle : composeName ≠ buildScriptName := by decide
  refine List.nodup_append.2 ⟨List.nodup_append.2 ⟨List.nodup_append.2
    ⟨List.nodup_singleton _, hstages, ?_⟩, nodup_keyNames stage h, ?_⟩, List.nodup_singleton _, ?_⟩
  · rintro names hone _ hmem rfl
    obtain rfl := List.mem_singleton.1 hone
    exact absurd (hthree _ hmem) (by simp)
  · rintro names hfew _ hmem rfl
    have hlength := hfive _ hmem
    rcases List.mem_append.1 hfew with hone | hfew
    · obtain rfl := List.mem_singleton.1 hone
      simp at hlength
    · simp [hthree _ hfew] at hlength
  · rintro names hmem _ hone rfl
    obtain rfl := List.mem_singleton.1 hone
    rcases List.mem_append.1 hmem with hmem | hmem
    · rcases List.mem_append.1 hmem with hcompose | hmem
      · exact hsingle (List.cons.inj (List.mem_singleton.1 hcompose)).1.symm
      · exact absurd (hthree _ hmem) (by simp)
    · exact absurd (hfive _ hmem) (by simp)

/-- The kinds of files: the compose file, the build script, those of a stage and those of a user. -/
lemma mem_projectNames_cases {stage : Stage} {users names : List String}
    (h : names ∈ projectNames stage users) :
    names = [composeName] ∨ names = [buildScriptName] ∨
      (∃ owner : Stage, ∃ n ∈ bakedNames, names = [owner.label, generatedName] ++ [n]) ∨
      ∃ user ∈ users, ∃ n ∈ keyFileNames, names = Credentials.keyDirNames stage user ++ [n] := by
  simp only [projectNames, List.mem_append, List.mem_singleton] at h
  rcases h with ((h | h) | h) | h
  · exact .inl h
  · obtain ⟨owner, -, h⟩ := List.mem_flatMap.1 h
    obtain ⟨n, hn, rfl⟩ := List.mem_map.1 h
    exact .inr (.inr (.inl ⟨owner, n, hn, rfl⟩))
  · obtain ⟨user, huser, h⟩ := List.mem_flatMap.1 h
    obtain ⟨n, hn, rfl⟩ := List.mem_map.1 h
    exact .inr (.inr (.inr ⟨user, huser, n, hn, rfl⟩))
  · exact .inr (.inl h)

lemma isName_of_mem_projectNames (stage : Stage) {users : List String}
    (h : ∀ user ∈ users, Path.IsName user) :
    ∀ names ∈ projectNames stage users, names ≠ [] ∧ ∀ n ∈ names, Path.IsName n := by
  intro names hnames
  rcases mem_projectNames_cases hnames with
    rfl | rfl | ⟨owner, n, hn, rfl⟩ | ⟨user, huser, n, hn, rfl⟩
  · decide
  · decide
  · refine ⟨by simp, List.forall_mem_append.2 ⟨owner.isName_of_mem_generatedNames, ?_⟩⟩
    simpa using isName_of_mem_bakedNames n hn
  · refine ⟨by simp, List.forall_mem_append.2 ⟨?_, ?_⟩⟩
    · exact Credentials.isName_of_mem_keyDirNames stage (h user huser)
    · simpa using isName_of_mem_keyFileNames n hn

def lastNames : List String := [composeName] ++ bakedNames ++ keyFileNames ++ [buildScriptName]

lemma exists_getLast?_of_mem_projectNames {stage : Stage} {users : List String}
    {names : List String} (h : names ∈ projectNames stage users) :
    ∃ n ∈ lastNames, names.getLast? = some n := by
  simp only [lastNames, List.mem_append, List.mem_singleton]
  rcases mem_projectNames_cases h with rfl | rfl | ⟨owner, n, hn, rfl⟩ | ⟨user, -, n, hn, rfl⟩
  · exact ⟨composeName, by simp, rfl⟩
  · exact ⟨buildScriptName, by simp, rfl⟩
  · exact ⟨n, by simp [hn], List.getLast?_concat⟩
  · exact ⟨n, by simp [hn], List.getLast?_concat⟩

/-! ### The paths of all artifacts -/

lemma path_of_composeFile {tree : Tree} {a : Artifact} (h : composeFile tree = .ok a) :
    a.path = Path.ofNames [composeName] := by
  obtain ⟨text, -, rfl⟩ := Outcome.map_eq_ok_iff.1 h
  have hname : Path.IsName composeName := by decide
  exact hname.ofString_eq

lemma generatedDir_child_eq (stage : Stage) {name : String} (h : Path.IsName name) :
    stage.generatedDir.child name = Path.ofNames [stage.label, generatedName, name] := by
  rw [stage.generatedDir_eq, Path.child_ofNames (by simp) stage.isName_of_mem_generatedNames h]
  rfl

lemma sublist_of_stageFiles (view : StageView) :
    ((stageFiles view).map Artifact.path).Sublist
      (bakedNames.map fun n => Path.ofNames [view.stage.label, generatedName, n]) := by
  have hdir : ∀ n ∈ bakedNames, view.stage.generatedDir.child n =
      Path.ofNames [view.stage.label, generatedName, n] := fun n hn =>
    generatedDir_child_eq view.stage (isName_of_mem_bakedNames n hn)
  rw [← List.map_congr_left hdir, stageFiles]
  dsimp only
  rw [List.map_append, List.map_append, bakedNames, List.map_append, List.map_map, List.map_map,
    List.append_assoc]
  refine List.Sublist.append (.refl _) ?_
  split
  · exact .refl _
  · exact (List.sublist_append_left _ [_]).trans (.refl _)

lemma sublist_of_buildFiles {c : Compilation} {tree : Tree} {items : List Artifact}
    (h : buildFiles c tree = .ok items) :
    (items.map Artifact.path).Sublist [Path.ofNames [buildScriptName]] := by
  rcases buildFiles_eq_ok_iff.1 h with ⟨-, rfl⟩ | ⟨-, script, -, rfl⟩
  · exact List.nil_sublist _
  · have hname : Path.IsName buildScriptName := by decide
    rw [← hname.ofString_eq]
    exact .refl _

/-- The files of a user, as artifacts. -/
lemma map_path_userFiles (u : KeyedUser) :
    (userFiles u).map Artifact.path = u.files.map KeyFile.path := by
  simp [userFiles, KeyedUser.files, keyFile, Function.comp_def]

end Emission

namespace Compilation

open Emission

variable {ctx : Context} {generator : Generator} {d : Document} {c : Compilation}
  {vars : String → Option String} {text : String} {source? : Option Path}

/-- The users of a compilation have names that differ, and files in their own directories. -/
lemma Prepared.exists_sublist_userFiles (h : Prepared ctx generator { d with source? } c)
    (hread : Document.ofText vars text = .ok d) :
    ∃ stage users, users.Nodup ∧ (∀ user ∈ users, Path.IsName user) ∧
      ((c.users.flatMap userFiles).map Artifact.path).Sublist
        ((keyNames stage users).map Path.ofNames) := by
  rcases resolveKeys_eq_ok_iff.1 h.credentials with ⟨-, heq⟩ | ⟨ssh, hssh, -, hresolve⟩
  · exact ⟨.first, [], List.nodup_nil, by simp, by simp [users, ← heq]⟩
  · have hnames := Credentials.names_of_resolve hresolve
    obtain ⟨hnodup, hisName⟩ := h.names_of_users hread hssh
    have huser : ∀ u ∈ c.users, ∃ user ∈ ssh.settings.users, u.name = user.name ∧
        (u.files.map KeyFile.path).Sublist
          (keyFileNames.map (Credentials.keyDir ssh.stage u.name).child) := by
      intro u hu
      obtain ⟨user, huser, requests, hresolve⟩ := Credentials.exists_of_mem_users hresolve hu
      have hname := Credentials.name_of_resolveUser hresolve
      exact ⟨user, huser, hname, hname ▸ Credentials.sublist_of_resolveUser hresolve⟩
    refine ⟨ssh.stage, c.users.map KeyedUser.name, ?_, ?_, ?_⟩
    · rw [users, hnames]
      exact hnodup
    · rw [List.forall_mem_map]
      intro u hu
      obtain ⟨user, hmem, hname, -⟩ := huser u hu
      exact hname ▸ hisName user hmem
    · rw [keyNames, List.map_flatMap, List.map_flatMap, List.flatMap_map]
      refine List.Sublist.flatMap_right _ fun u hu => ?_
      obtain ⟨user, hmem, hname, hsublist⟩ := huser u hu
      have hu : Path.IsName u.name := hname ▸ hisName user hmem
      rw [map_path_userFiles, List.map_map]
      rw [List.map_congr_left fun n hn => Credentials.child_keyDir_eq ssh.stage hu hn] at hsublist
      exact hsublist

/-- What is emitted has paths among those of the project's files. -/
lemma Prepared.exists_sublist_files (h : Prepared ctx generator { d with source? } c)
    (hread : Document.ofText vars text = .ok d) {tree : Tree} {items : List Artifact}
    (hfiles : files c tree = .ok items) :
    ∃ stage users, users.Nodup ∧ (∀ user ∈ users, Path.IsName user) ∧
      (items.map Artifact.path).Sublist ((projectNames stage users).map Path.ofNames) := by
  obtain ⟨compose, hcompose, build, hbuild, rfl⟩ := files_eq_ok_iff.1 hfiles
  obtain ⟨stage, users, hnodup, hnames, husers⟩ := h.exists_sublist_userFiles hread
  refine ⟨stage, users, hnodup, hnames, ?_⟩
  have hcomposePath : ([compose].map Artifact.path).Sublist
      ([[composeName]].map Path.ofNames) := by
    rw [List.map_singleton, path_of_composeFile hcompose]
    exact .refl _
  have hstages : ((Stage.all.flatMap fun stage => stageFiles (c.view stage)).map
      Artifact.path).Sublist (stageNames.map Path.ofNames) := by
    rw [stageNames, List.map_flatMap, List.map_flatMap]
    refine List.Sublist.flatMap_right _ fun stage _ => ?_
    have hstage : (c.view stage).stage = stage := by cases stage <;> rfl
    have hsublist := sublist_of_stageFiles (c.view stage)
    rw [hstage] at hsublist
    rwa [List.map_map]
  rw [projectNames]
  simp only [List.map_append]
  exact ((hcomposePath.append hstages).append husers).append (sublist_of_buildFiles hbuild)

/-- No two files have one path, and all of them go down from the project. -/
lemma Prepared.paths_of_files (h : Prepared ctx generator { d with source? } c)
    (hread : Document.ofText vars text = .ok d) {tree : Tree} {items : List Artifact}
    (hfiles : files c tree = .ok items) :
    (items.map Artifact.path).Nodup ∧ ∀ a ∈ items, a.path.GoesDown := by
  obtain ⟨stage, users, hnodup, hnames, hsublist⟩ := h.exists_sublist_files hread hfiles
  refine ⟨((nodup_projectNames stage hnodup).map Path.ofNames_injective).sublist hsublist, ?_⟩
  intro a ha
  obtain ⟨names, hmem, heq⟩ := List.mem_map.1 (hsublist.subset (List.mem_map_of_mem ha))
  obtain ⟨hne, hall⟩ := isName_of_mem_projectNames stage hnames names hmem
  exact heq ▸ .ofNames hne hall

/-- The path of each file ends in one of the names. -/
lemma Prepared.exists_getLast?_path (h : Prepared ctx generator { d with source? } c)
    (hread : Document.ofText vars text = .ok d) {tree : Tree} {items : List Artifact}
    (hfiles : files c tree = .ok items) :
    ∀ a ∈ items, ∃ n ∈ lastNames, a.path.segments.getLast? = some n.toList := by
  intro a ha
  obtain ⟨stage, users, hnodup, hnames, hsublist⟩ := h.exists_sublist_files hread hfiles
  obtain ⟨names, hmem, heq⟩ := List.mem_map.1 (hsublist.subset (List.mem_map_of_mem ha))
  obtain ⟨n, hn, hlast⟩ := exists_getLast?_of_mem_projectNames hmem
  refine ⟨n, hn, ?_⟩
  rw [← heq, Path.ofNames, List.getLast?_map, hlast]
  rfl

/-- The place of each file ends in one of the names. -/
lemma Prepared.exists_getLast?_place (h : Prepared ctx generator { d with source? } c)
    (hread : Document.ofText vars text = .ok d) {tree : Tree} {items : List Artifact}
    (hfiles : files c tree = .ok items) {root : Path} (hroot : root.IsPlain) (fs : Files) :
    ∀ a ∈ items, ∃ n ∈ lastNames, (a.place fs root).getLast? = some n.toList := by
  intro a ha
  obtain ⟨n, hn, hlast⟩ := h.exists_getLast?_path hread hfiles a ha
  refine ⟨n, hn, ?_⟩
  rw [Artifact.place, Artifact.destination,
    hroot.landing_join fs ((h.paths_of_files hread hfiles).2 a ha), List.getLast?_append, hlast]
  rfl

end Compilation

namespace Artifacts

variable {items : List Artifact} {root : Path} {fs : Files}

lemma pushItem_eq {a : Artifact} (h : ∀ b ∈ items, ¬ b.path.same a.path = true) :
    pushItem a items = items ++ [a] := by
  induction items with
  | nil => rfl
  | cons b items ih =>
    rw [List.forall_mem_cons] at h
    rw [pushItem, if_neg h.1, ih h.2, List.cons_append]

/-- Collecting files with paths of their own keeps all of them as they are. -/
lemma ofList_eq (hnodup : (items.map Artifact.path).Nodup) (hdown : ∀ a ∈ items, a.path.GoesDown) :
    ofList items = ⟨items⟩ := by
  suffices hfold : ∀ front : List Artifact, (front ++ items).Pairwise
      (fun a b => ¬ a.path.same b.path = true) → items.foldl push ⟨front⟩ = ⟨front ++ items⟩ by
    refine hfold [] ?_
    rw [List.nil_append]
    refine (List.pairwise_map.1 hnodup).imp_of_mem fun ha hb hne hsame => hne ?_
    exact ((hdown _ ha).same_iff (hdown _ hb)).1 hsame
  clear hnodup hdown
  induction items with
  | nil => simp
  | cons a items ih =>
    intro front hfront
    have hpush : push ⟨front⟩ a = ⟨front ++ [a]⟩ := by
      rw [push, pushItem_eq]
      intro b hb
      exact (List.pairwise_append.1 hfront).2.2 b hb a List.mem_cons_self
    rw [List.foldl_cons, hpush, ih _ (by simpa using hfront)]
    simp

/-- Files with paths of their own go to places of their own. -/
lemma apart_of_nodup (hroot : root.IsParted) (hnodup : (items.map Artifact.path).Nodup)
    (hdown : ∀ a ∈ items, a.path.GoesDown) : Apart fs root items := by
  refine (List.pairwise_map.1 hnodup).imp_of_mem fun {a b} ha hb hne heq => hne ?_
  rw [Artifact.place, Artifact.place, Artifact.destination, Artifact.destination,
    hroot.landing_join fs (hdown a ha), hroot.landing_join fs (hdown b hb),
    List.append_cancel_left_eq] at heq
  exact ((hdown a ha).eq_iff (hdown b hb)).2 heq

end Artifacts

end TwoStage
