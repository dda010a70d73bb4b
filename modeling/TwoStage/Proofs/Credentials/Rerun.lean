import Mathlib.Data.List.Find
import TwoStage.Proofs.Credentials.Files
import TwoStage.Proofs.Files.Below
import TwoStage.Proofs.Files.Growth

/-!
# Keys in a second run

When a tree has grown without touching a key that was read, a second run reads it again. A pair that
was new in the first run is found in the second one, if it has been stored and can be read back. So
the users get the same files, though not always from the same origin, and no pair is asked for.
-/

namespace TwoStage

open TwoStage.Path

variable {ctx : Context} {fs' : Files} {places : List Location}

/-- The path leads to the file that a key source names. -/
def KeySource.FileAt (ctx : Context) (p : Path) : KeySource → Prop
  | .file raw => raw ≠ Credentials.discoveryToken ∧ ctx.userPath? raw = some p
  | _         => False

lemma KeySource.not_fileAt_of_isAbsent {source : KeySource} (h : source.isAbsent = true)
    (p : Path) :
    ¬ source.FileAt ctx p := by
  cases source with
  | absent => exact not_false
  | file raw => simp [isAbsent] at h
  | text key => simp [isAbsent] at h

/-- The private text of every new pair can be read back, and gives the public text. -/
def Generator.IsReadable (generator : Generator) : Prop :=
  ∀ comment pair, generator comment = .ok pair →
    Key.storedHalf? pair.privateText = some pair.publicText

/-- The file without where its key was found. -/
def KeyFile.bare (f : KeyFile) : KeyFile := { f with origin := .text }

/-- The user without where the keys were found. -/
def KeyedUser.bare (u : KeyedUser) : KeyedUser :=
  { u with
    authorized := u.authorized.map KeyFile.bare
    privateKey? := u.privateKey?.map KeyFile.bare
    hostKey? := u.hostKey?.map KeyFile.bare }

/-! ### Candidates in one directory -/

namespace Files

variable {fs : Files} {dir : Path} {name other : String}

/-- What is needed to get to a name in a directory, apart from the name itself. -/
lemma exists_steps_child_eq (dir : Path) :
    ∃ absolute before, ∀ name, IsName name → (dir.child name).absolute = absolute ∧
      (dir.child name).steps = before ++ [.down name.toList] := by
  obtain ⟨absolute, front, hchild⟩ := exists_child_eq dir
  refine ⟨absolute, front.map Step.ofSegment, fun name h => ?_⟩
  rw [hchild name h, steps, List.map_append, List.map_singleton, ofSegment_eq_down h.step]
  exact ⟨rfl, rfl⟩

lemma getLast?_landing_child (fs : Files) (dir : Path) (h : IsName name) :
    (fs.landing (dir.child name)).getLast? = some name.toList := by
  obtain ⟨absolute, before, hsteps⟩ := exists_steps_child_eq dir
  rw [landing, (hsteps name h).2, List.foldl_append]
  exact List.getLast?_concat

/-- Once one name in a directory leads to a file, any other one leads to a file after the tree has
grown just if it did before. -/
lemma Grows.hasFile_child (h : fs.Grows fs' places) (hlinks : fs.LinkFree)
    (hother : IsName other) (hfile : fs.hasFile (dir.child other) = true) (hname : IsName name)
    (hplace : fs.landing (dir.child name) ∉ places) :
    fs'.hasFile (dir.child name) = fs.hasFile (dir.child name) := by
  obtain ⟨absolute, before, hsteps⟩ := exists_steps_child_eq dir
  obtain ⟨habsolute, hsteps'⟩ := hsteps name hname
  have hstart : fs.start (dir.child name) = fs.start (dir.child other) := by
    rw [Files.start, Files.start, habsolute, (hsteps other hother).1]
  -- the other name has shown that the directory can be entered
  obtain ⟨q, contents, mode, hfind⟩ := hasFile_eq_true_iff.1 hfile
  obtain ⟨-, hpass, -, -⟩ := (find_eq_ok_iff hlinks).1 hfind
  rw [(hsteps other hother).2, passable_append, ← hstart] at hpass
  obtain ⟨hbefore, hdirectory, -, -⟩ := hpass
  rw [Bool.eq_iff_iff]
  refine ⟨fun hafter => ?_, fun hfirst => h.hasFile hlinks hfirst hplace⟩
  obtain ⟨q', contents', mode', hfind'⟩ := hasFile_eq_true_iff.1 hafter
  obtain ⟨hcheck, hpass', rfl, hnode⟩ := (find_eq_ok_iff (h.linkFree hlinks)).1 hfind'
  rw [hsteps', passable_append] at hpass'
  refine hasFile_eq_true_iff.2
    ⟨_, contents', mode', (find_eq_ok_iff hlinks).2 ⟨hcheck, ?_, rfl, ?_⟩⟩
  · rw [hsteps', passable_append]
    exact ⟨hbefore, hdirectory, hpass'.2.2.1, trivial⟩
  · rw [h.landing] at hnode
    exact (h.file _ hplace contents' mode').1 hnode

end Files

namespace Credentials

variable {generator : Generator} (generator' : Generator) {stage : Stage} {user : String}
  {u : User} {dir path : Path}  {found : Found}

/-! ### Keys that are looked for -/

/-- The names of files that are looked for in the directory of the user's own keys. -/
def soughtNames : List String := discoveryNames.map (· ++ ".pub") ++ discoveryNames

lemma isName_of_mem_soughtNames : ∀ name ∈ soughtNames, IsName name := by decide

/-- No place has the name of a file that is looked for. -/
def Unsought (places : List Location) : Prop :=
  ∀ place ∈ places, ∀ name ∈ soughtNames, place.getLast? ≠ some name.toList

lemma Unsought.landing_notMem (h : Unsought places) (fs : Files) {name : String}
    (hname : name ∈ soughtNames) (dir : Path) : fs.landing (dir.child name) ∉ places := fun hmem =>
  h _ hmem name hname (Files.getLast?_landing_child fs dir (isName_of_mem_soughtNames name hname))

/-- A public half that was derived comes from a file. -/
lemma exists_hasFile_of_deriveFirst {paths : List Path}
    (h : deriveFirst ctx user paths = .ok (some found)) :
    ∃ p ∈ paths, ctx.files.hasFile p = true := by
  induction paths with
  | nil => simp [deriveFirst] at h
  | cons p paths ih =>
    by_cases hfile : ctx.files.hasFile p = true
    · exact ⟨p, List.mem_cons_self, hfile⟩
    · rw [deriveFirst, if_neg hfile] at h
      obtain ⟨q, hq, hfile⟩ := ih h
      exact ⟨q, List.mem_cons_of_mem _ hq, hfile⟩

lemma existingFile_eq_ok_iff {raw : String} {half : KeyHalf} :
    existingFile ctx user raw half = .ok path ↔
      ctx.userPath? raw = some path ∧ ctx.files.hasFile path = true := by
  unfold existingFile
  split
  next hnone => simp [hnone]
  next p hsome =>
    split
    next hfile =>
      rw [Except.ok.injEq, hsome, Option.some.injEq]
      exact ⟨fun heq => ⟨heq, heq ▸ hfile⟩, And.left⟩
    next hfile =>
      rw [hsome, Option.some.injEq]
      exact ⟨fun heq => by simp at heq, fun ⟨heq, hfile'⟩ => absurd (heq ▸ hfile') hfile⟩

section

variable (hgrows : ctx.files.Grows fs' places) (hlinks : ctx.files.LinkFree)

include hgrows hlinks

lemma readFile_eq {contents : String} (h : readFile ctx path = .ok contents)
    (hplace : ctx.files.landing path ∉ places) :
    readFile { ctx with files := fs' } path = .ok contents := by
  have hread := hgrows.readText hlinks (Outcome.mapError_eq_ok_iff.1 h) hplace
  exact Outcome.mapError_eq_ok_iff.2 hread

lemma readTidy_eq {origin : KeyOrigin} (h : readTidy ctx path origin = .ok found)
    (hplace : ctx.files.landing path ∉ places) :
    readTidy { ctx with files := fs' } path origin = .ok found := by
  obtain ⟨contents, hread, h⟩ := Outcome.bind_eq_ok_iff.1 h
  exact Outcome.bind_eq_ok_iff.2 ⟨contents, readFile_eq hgrows hlinks hread hplace, h⟩

lemma deriveFirst_eq {paths : List Path} {found? : Option Found}
    (h : deriveFirst ctx user paths = .ok found?)
    (hfiles : ∀ p ∈ paths, fs'.hasFile p = ctx.files.hasFile p)
    (hplaces : ∀ p ∈ paths, ctx.files.landing p ∉ places) :
    deriveFirst { ctx with files := fs' } user paths = .ok found? := by
  induction paths with
  | nil => exact h
  | cons p paths ih =>
    rw [List.forall_mem_cons] at hfiles hplaces
    unfold deriveFirst at h ⊢
    dsimp only at h ⊢
    rw [hfiles.1]
    split at h
    next hfile =>
      rw [if_pos hfile]
      obtain ⟨contents, hread, h⟩ := Outcome.bind_eq_ok_iff.1 h
      obtain ⟨half, hderive, h⟩ := Outcome.bind_eq_ok_iff.1 h
      refine Outcome.bind_eq_ok_iff.2 ⟨contents, readFile_eq hgrows hlinks hread hplaces.1, ?_⟩
      refine Outcome.bind_eq_ok_iff.2 ⟨half, hderive, ?_⟩
      -- a key whose public half is not known sends the search on to the next path
      cases half with
      | some key => exact h
      | none => exact ih h hfiles.2 hplaces.2
    next hfile =>
      rw [if_neg hfile]
      exact ih h hfiles.2 hplaces.2

lemma hasFile_eq (hunsought : Unsought places) {name other : String} (hother : other ∈ soughtNames)
    (hfile : ctx.files.hasFile (dir.child other) = true) (hname : name ∈ soughtNames) :
    fs'.hasFile (dir.child name) = ctx.files.hasFile (dir.child name) :=
  hgrows.hasFile_child hlinks (isName_of_mem_soughtNames other hother) hfile
    (isName_of_mem_soughtNames name hname) (hunsought.landing_notMem _ hname dir)

/-- Where one name that is looked for leads to a file, the same file is found again first. -/
lemma find?_eq (hunsought : Unsought places) {other : String} (hother : other ∈ soughtNames)
    (hfile : ctx.files.hasFile (dir.child other) = true) {names : List String}
    (hnames : names ⊆ soughtNames) :
    (names.map dir.child).find? fs'.hasFile = (names.map dir.child).find? ctx.files.hasFile := by
  rw [List.find?_map, List.find?_map]
  congr 1
  refine List.find?_congr fun n hn => ?_
  exact hasFile_eq hgrows hlinks hunsought hother hfile (hnames hn)

lemma discoverPrivate_eq (hunsought : Unsought places)
    (h : discoverPrivate ctx user = .ok found) :
    discoverPrivate { ctx with files := fs' } user = .ok found := by
  obtain ⟨dir, hdir, h⟩ := Outcome.bind_eq_ok_iff.1 h
  refine Outcome.bind_eq_ok_iff.2 ⟨dir, hdir, ?_⟩
  have hnames : discoveryNames ⊆ soughtNames := List.subset_append_right _ _
  split at h
  next path hfind =>
    obtain ⟨name, hname, rfl⟩ := List.mem_map.1 (List.mem_of_find?_eq_some hfind)
    have hfile := List.find?_some hfind
    have hfind' := find?_eq hgrows hlinks hunsought (hnames hname) hfile hnames
    dsimp only
    rw [hfind', hfind]
    exact readTidy_eq hgrows hlinks h (hunsought.landing_notMem _ (hnames hname) dir)
  next => simp at h

lemma discoverPublic_eq (hunsought : Unsought places) (h : discoverPublic ctx user = .ok found) :
    discoverPublic { ctx with files := fs' } user = .ok found := by
  obtain ⟨dir, hdir, h⟩ := Outcome.bind_eq_ok_iff.1 h
  refine Outcome.bind_eq_ok_iff.2 ⟨dir, hdir, ?_⟩
  have hpublic : discoveryNames.map (· ++ ".pub") ⊆ soughtNames := List.subset_append_left _ _
  have hprivate : discoveryNames ⊆ soughtNames := List.subset_append_right _ _
  have hcandidates : (discoveryNames.map fun name => dir.child (name ++ ".pub")) =
      (discoveryNames.map (· ++ ".pub")).map dir.child := (List.map_map ..).symm
  dsimp only at h ⊢
  rw [hcandidates] at h ⊢
  split at h
  next path hfind =>
    obtain ⟨name, hname, rfl⟩ := List.mem_map.1 (List.mem_of_find?_eq_some hfind)
    have hfile := List.find?_some hfind
    rw [find?_eq hgrows hlinks hunsought (hpublic hname) hfile hpublic, hfind]
    exact readTidy_eq hgrows hlinks h (hunsought.landing_notMem _ (hpublic hname) dir)
  next hnone =>
    obtain ⟨found?, hderive, h⟩ := Outcome.bind_eq_ok_iff.1 h
    cases found? with
    | none => simp at h
    | some found' =>
      -- no public key was there; the private key shows that the directory can be entered
      obtain ⟨p, hp, hfile⟩ := exists_hasFile_of_deriveFirst hderive
      obtain ⟨other, hother, rfl⟩ := List.mem_map.1 hp
      rw [find?_eq hgrows hlinks hunsought (hprivate hother) hfile hpublic, hnone]
      refine Outcome.bind_eq_ok_iff.2 ⟨some found', ?_, h⟩
      refine deriveFirst_eq hgrows hlinks hderive ?_ ?_
      · rw [List.forall_mem_map]
        exact fun name hname =>
          hasFile_eq hgrows hlinks hunsought (hprivate hother) hfile (hprivate hname)
      · rw [List.forall_mem_map]
        exact fun name hname => hunsought.landing_notMem _ (hprivate hname) dir

/-! ### Keys of users -/

/-- The key that a source gives is the same, if its file has not been written. -/
lemma readSource_eq (hunsought : Unsought places) {half : KeyHalf} {source : KeySource}
    {found? : Option Found} (h : readSource ctx user half source = .ok found?)
    (hsource : ∀ p, source.FileAt ctx p → ctx.files.landing p ∉ places) :
    readSource { ctx with files := fs' } user half source = .ok found? := by
  cases source with
  | absent => exact h
  | text key => exact h
  | file raw =>
    rcases readSource_file_eq_ok_iff.1 h with ⟨htoken, found, hfound, rfl⟩ |
      ⟨htoken, path, hexisting, found, hread, rfl⟩
    · refine readSource_file_eq_ok_iff.2 (.inl ⟨htoken, found, ?_, rfl⟩)
      cases half with
      | publicKey => exact discoverPublic_eq hgrows hlinks hunsought hfound
      | privateKey => exact discoverPrivate_eq hgrows hlinks hunsought hfound
    · obtain ⟨hpath, hfile⟩ := existingFile_eq_ok_iff.1 hexisting
      have hplace := hsource path ⟨htoken, hpath⟩
      have hexisting' : existingFile { ctx with files := fs' } user raw half = .ok path :=
        existingFile_eq_ok_iff.2 ⟨hpath, hgrows.hasFile hlinks hfile hplace⟩
      exact readSource_file_eq_ok_iff.2 (.inr
        ⟨htoken, path, hexisting', found, readTidy_eq hgrows hlinks hread hplace, rfl⟩)

lemma publicFile_eq (hunsought : Unsought places) {files : List KeyFile}
    (h : publicFile ctx dir u = .ok files)
    (hsource : ∀ p, u.publicKey.FileAt ctx p → ctx.files.landing p ∉ places) :
    publicFile { ctx with files := fs' } dir u = .ok files := by
  obtain ⟨found?, hread, h⟩ := Outcome.bind_eq_ok_iff.1 h
  exact Outcome.bind_eq_ok_iff.2
    ⟨found?, readSource_eq hgrows hlinks hunsought hread hsource, h⟩

lemma privateFiles_eq (hunsought : Unsought places) {files : List KeyFile × Option KeyFile}
    (h : privateFiles ctx dir u = .ok files)
    (hsource : ∀ p, u.privateKey.FileAt ctx p → ctx.files.landing p ∉ places) :
    privateFiles { ctx with files := fs' } dir u = .ok files := by
  obtain ⟨found?, hread, h⟩ := Outcome.bind_eq_ok_iff.1 h
  exact Outcome.bind_eq_ok_iff.2
    ⟨found?, readSource_eq hgrows hlinks hunsought hread hsource, h⟩

end

/-! ### Stored pairs -/

lemma stored?_eq_some_iff {pair : KeyPair} :
    stored? ctx path = some pair ↔ ctx.files.readText path = .ok pair.privateText ∧
      Key.storedHalf? pair.privateText = some pair.publicText := by
  unfold stored?
  split
  next text hread =>
    rw [hread, Option.map_eq_some_iff, Except.ok.injEq]
    constructor
    · rintro ⟨half, hhalf, rfl⟩
      exact ⟨rfl, hhalf⟩
    · rintro ⟨rfl, hhalf⟩
      exact ⟨_, hhalf, rfl⟩
  next e hread => simp [hread]

/-- A pair can be read back, whether it is new or an old one. -/
lemma storedHalf?_of_freshPair (hgenerator : generator.IsReadable) {comment : String}
    {pair : KeyPair} {origin : KeyOrigin} {requests : List String}
    (h : freshPair ctx generator path user comment = .ok (pair, origin, requests)) :
    Key.storedHalf? pair.privateText = some pair.publicText := by
  rcases freshPair_eq_ok_iff.1 h with ⟨stored, hstored, heq⟩ | ⟨-, new, hnew, heq⟩
  · cases heq
    exact (stored?_eq_some_iff.1 hstored).2
  · cases heq
    exact hgenerator comment pair hnew

/-- Where the private text of a pair has been stored, the pair is used again and none is asked
for. -/
lemma exists_freshFiles_eq (hgenerator : generator.IsReadable) {files : List KeyFile}
    {key? : Option KeyFile} {requests : List String}
    (h : freshFiles ctx generator stage dir u = .ok (files, key?, requests))
    (hstored : ∀ key ∈ key?, fs'.readText (storedPath ctx stage u.name) = .ok key.contents) :
    ∃ files' key'?,
      freshFiles { ctx with files := fs' } generator' stage dir u = .ok (files', key'?, []) ∧
      files'.map KeyFile.bare = files.map KeyFile.bare ∧
      key'?.map KeyFile.bare = key?.map KeyFile.bare := by
  rcases freshFiles_eq_ok_iff.1 h with ⟨hgiven, heq⟩ | ⟨hkeyless, pair, origin, asked, hpair, heq⟩
  · cases heq
    exact ⟨[], none, freshFiles_eq_ok_iff.2 (.inl ⟨hgiven, rfl⟩), rfl, rfl⟩
  · cases heq
    have hread : stored? { ctx with files := fs' } (storedPath ctx stage u.name) = some pair :=
      stored?_eq_some_iff.2 ⟨hstored _ rfl, storedHalf?_of_freshPair hgenerator hpair⟩
    refine ⟨_, _, freshFiles_eq_ok_iff.2
      (.inr ⟨hkeyless, pair, .reused (storedPath ctx stage u.name), [], ?_, rfl⟩), rfl, rfl⟩
    exact freshPair_eq_ok_iff.2 (.inl ⟨pair, hread, rfl⟩)

/-! ### Users in a second run -/

/-- The private text of a new pair stands where a second run looks for it. -/
lemma storedPath_eq (hroot : ctx.projectDir.IsPlain) (hname : IsName u.name) {files : List KeyFile}
    {key : KeyFile} {requests : List String}
    (h : freshFiles ctx generator stage (keyDir stage u.name) u = .ok (files, some key, requests)) :
    storedPath ctx stage u.name = ctx.projectDir.join key.path := by
  obtain ⟨-, hkey⟩ := sublist_of_freshFiles h
  have hpath : key.path = (keyDir stage u.name).child generatedKeyName := by simpa using hkey
  rw [storedPath, hpath, keyDir_eq stage hname]
  exact hroot.join_child (List.cons_ne_nil _ _) (isName_of_mem_keyDirNames stage hname)
    (isName_of_mem_keyFileNames _ (by decide))

/-- The files that the key sources of a user name are at none of the places. -/
def KeysApart (ctx : Context) (places : List Location) (u : User) : Prop :=
  ∀ half p, (u.source half).FileAt ctx p → ctx.files.landing p ∉ places

/-- The private half of a new pair is where the first run has put it. -/
def IsStored (ctx : Context) (fs' : Files) (u : KeyedUser) : Prop :=
  ∀ key ∈ u.hostKey?, fs'.readText (ctx.projectDir.join key.path) = .ok key.contents

section

variable (hgrows : ctx.files.Grows fs' places) (hlinks : ctx.files.LinkFree)
  (hunsought : Unsought places) (hroot : ctx.projectDir.IsPlain)
  (hgenerator : generator.IsReadable)

include hgrows hlinks hunsought hroot hgenerator

lemma exists_resolveUser_eq {keyed : KeyedUser} {requests : List String} (hname : IsName u.name)
    (h : resolveUser ctx generator stage u = .ok (keyed, requests))
    (hsources : KeysApart ctx places u) (hstored : IsStored ctx fs' keyed) :
    ∃ keyed', resolveUser { ctx with files := fs' } generator' stage u = .ok (keyed', []) ∧
      keyed'.bare = keyed.bare := by
  obtain ⟨given, half, fresh, hgiven, hhalf, hfresh, heq⟩ := resolveUser_eq_ok_iff.1 h
  have hstored' : ∀ key ∈ keyed.hostKey?,
      fs'.readText (storedPath ctx stage u.name) = .ok key.contents := by
    intro key hkey
    rw [storedPath_eq hroot hname (Option.mem_def.1 hkey ▸ hfresh)]
    exact hstored key hkey
  obtain ⟨fresh', hostKey'?, hfresh', hbare, hbareHost⟩ :=
    exists_freshFiles_eq generator' hgenerator hfresh hstored'
  have hgiven' := publicFile_eq hgrows hlinks hunsought hgiven (hsources .publicKey)
  have hhalf' := privateFiles_eq hgrows hlinks hunsought hhalf (hsources .privateKey)
  refine ⟨⟨u.name, u.password?, u.uid?, u.gid?, given ++ half ++ fresh', keyed.privateKey?,
    hostKey'?⟩, ?_, ?_⟩
  · exact resolveUser_eq_ok_iff.2 ⟨given, half, fresh', hgiven', hhalf', hfresh', rfl⟩
  · rw [heq]
    simp [KeyedUser.bare, hbare, hbareHost]

lemma exists_checkAndResolve_eq {found : KeyedUser × List String} (hname : IsName u.name)
    (h : checkAndResolve ctx generator stage u = .ok found) (hsources : KeysApart ctx places u)
    (hstored : IsStored ctx fs' found.1) :
    ∃ keyed', checkAndResolve { ctx with files := fs' } generator' stage u = .ok (keyed', []) ∧
      keyed'.bare = found.1.bare := by
  obtain ⟨hlogin, h⟩ := checkAndResolve_eq_ok_iff.1 h
  obtain ⟨keyed', hagain, hbare⟩ := exists_resolveUser_eq generator' hgrows hlinks
    hunsought hroot hgenerator hname h hsources hstored
  exact ⟨keyed', checkAndResolve_eq_ok_iff.2 ⟨hlogin, hagain⟩, hbare⟩

/-- All users get the same files in a second run, and no pair is asked for. -/
lemma exists_resolve_eq {ssh : InstalledSsh} {credentials : Credentials}
    (hnames : ∀ u ∈ ssh.settings.users, IsName u.name)
    (h : resolve ctx generator ssh = .ok credentials)
    (hsources : ∀ u ∈ ssh.settings.users, KeysApart ctx places u)
    (hstored : ∀ keyed ∈ credentials.users, IsStored ctx fs' keyed) :
    ∃ users, resolve { ctx with files := fs' } generator' ssh = .ok ⟨users, []⟩ ∧
      users.map KeyedUser.bare = credentials.users.map KeyedUser.bare := by
  obtain ⟨resolved, hresolved, rfl⟩ := resolve_eq_ok_iff.1 h
  suffices hagain : ∃ users : List KeyedUser, List.Forall₂ (fun u found =>
        checkAndResolve { ctx with files := fs' } generator' ssh.stage u = .ok found)
      ssh.settings.users (users.map fun keyed => (keyed, [])) ∧
      users.map KeyedUser.bare = (resolved.map Prod.fst).map KeyedUser.bare by
    obtain ⟨users, hresolved', hbare⟩ := hagain
    refine ⟨users, resolve_eq_ok_iff.2 ⟨_, hresolved', ?_⟩, hbare⟩
    simp [List.map_map, List.flatMap_map, Function.comp_def]
  -- as each user is resolved alone, the induction is on the users and their results
  dsimp only at hstored
  clear h
  generalize ssh.settings.users = us at hresolved hnames hsources ⊢
  induction hresolved with
  | nil => exact ⟨[], .nil, rfl⟩
  | cons hread _ ih =>
    rw [List.map_cons, List.forall_mem_cons] at hstored
    rw [List.forall_mem_cons] at hnames hsources
    obtain ⟨keyed', hkeyed, hbare⟩ := exists_checkAndResolve_eq generator' hgrows
      hlinks hunsought hroot hgenerator hnames.1 hread hsources.1 hstored.1
    obtain ⟨users, husers, hbares⟩ := ih hstored.2 hnames.2 hsources.2
    exact ⟨keyed' :: users, .cons hkeyed husers, by simp [hbare, hbares]⟩

end

end Credentials

end TwoStage
