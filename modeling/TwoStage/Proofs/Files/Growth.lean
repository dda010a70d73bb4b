import Mathlib.Data.List.TakeWhile
import TwoStage.Artifact.Disk
import TwoStage.Proofs.Files.Walk

/-!
# What writing leaves alone

Making directories and replacing files only ever adds: directories stay, files stay unless they are
the ones that are written, and what is new is a directory or a file that was written. So a path that
led to a file leads there still, if it does not lead to one of the written places.
-/

namespace TwoStage.Files

variable {fs fs' fs'' : Files} {place q : Location} {node : FileNode} {p : Path}
  {targets targets' : List Location}

/-! ### Putting a node -/

lemma lookup_putEntry (es : List (Location × FileNode)) :
    (putEntry place node es).lookup q = if q = place then some node else es.lookup q := by
  have hbeq {a b : Location} (h : a ≠ b) : (a == b) = false := beq_eq_false_iff_ne.2 h
  induction es with
  | nil =>
    rw [putEntry, List.lookup_cons, List.lookup_nil]
    split
    next h => rw [if_pos (eq_of_beq h)]
    next h => rw [if_neg (ne_of_beq_false h)]
  | cons e es ih =>
    obtain ⟨place', node'⟩ := e
    unfold putEntry
    split
    next heq =>
      subst heq
      by_cases hq : q = place'
      · simp [hq]
      · simp [List.lookup_cons, hbeq hq, hq]
    next hne =>
      rw [List.lookup_cons, List.lookup_cons, ih]
      by_cases hq : q = place'
      · simp [hq, hne]
      · simp [hbeq hq]

lemma node?_put (hplace : place ≠ []) :
    (fs.put place node).node? q = if q = place then some node else fs.node? q := by
  by_cases hq : q = []
  · simp [node?, hq, hplace.symm]
  · simp [node?, put, hq, lookup_putEntry]

/-! ### Growing -/

/-- Steps can be taken in a tree with more directories. -/
lemma Passable.mono {steps : List Step} (h : fs.Passable place steps)
    (hdirectory : ∀ place, fs.IsDirectory place → fs'.IsDirectory place) :
    fs'.Passable place steps := by
  induction steps generalizing place with
  | nil => trivial
  | cons step steps ih => exact ⟨hdirectory _ h.1, h.2.1, ih h.2.2⟩

/-- The first tree has grown into the second, with files written at some places. -/
structure Grows (fs fs' : Files) (targets : List Location) : Prop where
  here : fs'.here = fs.here
  link : ∀ place target, fs'.node? place = some (.link target) →
    fs.node? place = some (.link target)
  directory : ∀ place mode, fs.node? place = some (.directory mode) →
    fs'.node? place = some (.directory mode)
  file : ∀ place ∉ targets, ∀ contents mode,
    fs'.node? place = some (.file contents mode) ↔ fs.node? place = some (.file contents mode)

namespace Grows

lemma refl (fs : Files) : fs.Grows fs [] :=
  ⟨rfl, fun _ _ h => h, fun _ _ h => h, fun _ _ _ _ => .rfl⟩

lemma trans (h : fs.Grows fs' targets) (h' : fs'.Grows fs'' targets') :
    fs.Grows fs'' (targets ++ targets') where
  here := h'.here.trans h.here
  link place target hlink := h.link place target (h'.link place target hlink)
  directory place mode hdirectory := h'.directory place mode (h.directory place mode hdirectory)
  file place hplace contents mode := by
    rw [List.mem_append, not_or] at hplace
    exact (h'.file place hplace.2 contents mode).trans (h.file place hplace.1 contents mode)

lemma linkFree (h : fs.Grows fs' targets) (hlinks : fs.LinkFree) : fs'.LinkFree :=
  fun place target hlink => hlinks place target (h.link place target hlink)

lemma start (h : fs.Grows fs' targets) (p : Path) : fs'.start p = fs.start p := by
  rw [Files.start, Files.start, h.here]

lemma landing (h : fs.Grows fs' targets) (p : Path) : fs'.landing p = fs.landing p := by
  rw [Files.landing, Files.landing, h.start]

lemma isDirectory (h : fs.Grows fs' targets) (hplace : fs.IsDirectory place) :
    fs'.IsDirectory place :=
  hplace.imp fun mode => h.directory place mode

lemma passable (h : fs.Grows fs' targets) {steps : List Step} (hsteps : fs.Passable place steps) :
    fs'.Passable place steps := hsteps.mono fun _ => h.isDirectory

/-- A file stays where it was found, unless it is written. -/
lemma find_file (h : fs.Grows fs' targets) (hlinks : fs.LinkFree) {contents : ByteArray}
    {mode : Nat} (hfind : fs.find p = .ok (q, .file contents mode)) (hq : q ∉ targets) :
    fs'.find p = .ok (q, .file contents mode) := by
  obtain ⟨hcheck, hpass, rfl, hnode⟩ := (find_eq_ok_iff hlinks).1 hfind
  rw [find_eq_ok_iff (h.linkFree hlinks), h.start, h.landing]
  exact ⟨hcheck, h.passable hpass, rfl, (h.file _ hq contents mode).2 hnode⟩

end Grows

/-- A new directory where nothing was. -/
lemma grows_put_directory (hplace : place ≠ []) (hnone : fs.node? place = none) (mode : Nat) :
    fs.Grows (fs.put place (.directory mode)) [] where
  here := rfl
  link q target hlink := by
    rw [node?_put hplace] at hlink
    split at hlink
    · simp at hlink
    · exact hlink
  directory q mode' hdirectory := by
    rw [node?_put hplace, if_neg]
    · exact hdirectory
    · rintro rfl
      simp [hnone] at hdirectory
  file q _ contents mode' := by
    rw [node?_put hplace]
    split
    next heq => simp [heq, hnone]
    next => rfl

/-- A file where no directory was. -/
lemma grows_put_file (hplace : place ≠ []) (hnode : ¬ fs.IsDirectory place) (contents : ByteArray)
    (mode : Nat) : fs.Grows (fs.put place (.file contents mode)) [place] where
  here := rfl
  link q target hlink := by
    rw [node?_put hplace] at hlink
    split at hlink
    · simp at hlink
    · exact hlink
  directory q mode' hdirectory := by
    rw [node?_put hplace, if_neg]
    · exact hdirectory
    · rintro rfl
      exact hnode ⟨mode', hdirectory⟩
  file q hq contents' mode' := by
    rw [node?_put hplace, if_neg (by simpa using hq)]

/-! ### Slots -/

lemma directoryAt_eq_ok_iff_walk {steps : List Step} : fs.directoryAt place steps = .ok q ↔
    fs.walk true maxLinks place steps = .ok q ∧ fs.IsDirectory q := by
  constructor
  · intro h
    obtain ⟨place', hwalk, h⟩ := Outcome.bind_eq_ok_iff.1 h
    split at h
    next mode hnode =>
      obtain rfl := Outcome.pure_eq_ok_iff.1 h
      exact ⟨hwalk, mode, hnode⟩
    next => simp at h
    next => simp at h
  · rintro ⟨hwalk, mode, hnode⟩
    rw [directoryAt, hwalk]
    simp [bind, Except.bind, hnode, pure, Except.pure]

lemma directoryAt_eq_ok_iff (h : fs.LinkFree) {steps : List Step} :
    fs.directoryAt place steps = .ok q ↔
      fs.Passable place steps ∧ q = steps.foldl Step.move place ∧ fs.IsDirectory q := by
  rw [directoryAt_eq_ok_iff_walk, walk_eq_ok_iff h, and_assoc]

lemma exists_of_slot? {closed : Bool} (h : fs.slot? p = .ok (some (q, closed))) :
    checkPath p = .ok () ∧ ∃ before name above, p.parts = (before, .name name closed) ∧
      fs.directoryAt (fs.start p) before = .ok above ∧ checkName name = .ok () ∧
      q = above ++ [name] := by
  obtain ⟨⟨⟩, hcheck, hslot⟩ := Outcome.bind_eq_ok_iff.1 h
  cases hparts : p.parts with
  | mk before ending =>
    rw [hparts] at hslot
    obtain ⟨above, habove, hnamed⟩ := Outcome.bind_eq_ok_iff.1 hslot
    cases ending with
    | dots => simp [named?] at hnamed
    | name name closed' =>
      obtain ⟨⟨⟩, hname, heq⟩ := Outcome.map_eq_ok_iff.1 hnamed
      obtain ⟨rfl, rfl⟩ := Prod.mk.inj (Option.some.inj heq)
      exact ⟨hcheck, before, name, above, rfl, habove, hname, rfl⟩

/-- Behind a name at the end of a path there is nothing but slashes, and nothing at all if the name
is bare. -/
lemma exists_steps_eq_of_parts {before : List Step} {name : List Char} {closed : Bool}
    (h : p.parts = (before, .name name closed)) :
    ∃ empty : List (List Char), p.steps = before ++ .down name :: empty.map Step.ofSegment ∧
      (∀ s ∈ empty, s = []) ∧ (closed = false → empty = []) := by
  unfold Path.parts at h
  have hall := List.takeWhile_append_dropWhile (p := (· = [])) (l := p.segments.reverse)
  split at h
  next => simp at h
  next s front hdrop =>
    obtain ⟨rfl, hend⟩ := Prod.mk.inj h
    split at hend
    next name' hs =>
      obtain ⟨rfl, hclosed⟩ := PathEnd.name.inj hend
      -- the empty segments at the end are the slashes behind the name
      have hempty : ∀ s ∈ (p.segments.reverse.takeWhile (· = [])).reverse, s = [] := by
        intro s hs
        have hmem := List.mem_takeWhile_imp (List.mem_reverse.1 hs)
        exact of_decide_eq_true hmem
      have hsegments : p.segments =
          front.reverse ++ s :: (p.segments.reverse.takeWhile (· = [])).reverse := by
        rw [hdrop, ← List.reverse_eq_iff] at hall
        simpa using hall.symm
      generalize (p.segments.reverse.takeWhile (· = [])).reverse = empty at hempty hsegments
      refine ⟨empty, ?_, hempty, fun hbare => ?_⟩
      · rw [Path.steps, hsegments]
        simp [hs]
      · rcases List.eq_nil_or_concat empty with rfl | ⟨more, t, rfl⟩
        · rfl
        · have hlast : p.segments.getLast? = some [] := by
            rw [hsegments, hempty t (by simp), List.concat_eq_append, ← List.cons_append,
              ← List.append_assoc, List.getLast?_concat]
          simp [hlast, hbare] at hclosed
    next => simp at hend

/-- A path that ends in a bare name has that name as its last step. -/
lemma steps_eq_of_parts {before : List Step} {name : List Char}
    (h : p.parts = (before, .name name false)) : p.steps = before ++ [.down name] := by
  obtain ⟨empty, hsteps, -, hbare⟩ := exists_steps_eq_of_parts h
  rw [hsteps, hbare rfl]
  rfl

/-! ### Making directories -/

/-- A directory is made where its path names a place at which nothing is. -/
lemma exists_of_makeDirectory (h : fs.makeDirectory p = .ok fs') :
    ∃ place closed, fs.slot? p = .ok (some (place, closed)) ∧ fs.node? place = none ∧
      fs' = fs.put place (.directory directoryMode) := by
  obtain ⟨slot, hslot, h⟩ := Outcome.bind_eq_ok_iff.1 h
  cases slot with
  | none => simp at h
  | some slot =>
    obtain ⟨place, closed⟩ := slot
    dsimp only at h
    split at h
    next => simp at h
    next hnone => exact ⟨place, closed, hslot, hnone, (Outcome.pure_eq_ok_iff.1 h).symm⟩

lemma grows_makeDirectory (h : fs.makeDirectory p = .ok fs') : fs.Grows fs' [] := by
  obtain ⟨place, closed, hslot, hnone, rfl⟩ := exists_of_makeDirectory h
  obtain ⟨-, -, name, above, -, -, -, rfl⟩ := exists_of_slot? hslot
  exact grows_put_directory (by simp) hnone _

section

variable {R : Files → Files → Prop} (hrefl : ∀ fs, R fs fs)

include hrefl

lemma ensureDirectory_of_step (hstep : ∀ {fs fs'}, fs.makeDirectory p = .ok fs' → R fs fs')
    (fs : Files) : R fs (fs.ensureDirectory p).1 := by
  unfold ensureDirectory
  split
  next hmake => exact hstep hmake
  next => exact hrefl fs

/-- What holds between a tree and the one with a directory made holds between a tree and the one
with all of them made, if it goes on from tree to tree. -/
lemma makeDirectoriesAlong_of_step {ps : List Path}
    (htrans : ∀ {fs fs' fs''}, R fs fs' → R fs' fs'' → R fs fs'')
    (hstep : ∀ p ∈ ps, ∀ {fs fs'}, fs.makeDirectory p = .ok fs' → R fs fs') (fs : Files) :
    R fs (fs.makeDirectoriesAlong ps).1 := by
  induction ps generalizing fs with
  | nil => exact hrefl fs
  | cons p above ih =>
    rw [List.forall_mem_cons] at hstep
    have habove := ih hstep.2 fs
    unfold makeDirectoriesAlong
    split
    next => exact hrefl fs
    next =>
      split
      next =>
        split
        next made heq =>
          rw [heq] at habove
          exact htrans habove (ensureDirectory_of_step hrefl hstep.1 made)
        next made e heq =>
          rw [heq] at habove
          exact habove
      next => exact ensureDirectory_of_step hrefl hstep.1 fs

end

lemma grows_makeDirectories (fs : Files) (p : Path) : fs.Grows (fs.makeDirectories p).1 [] :=
  makeDirectoriesAlong_of_step (R := fun fs fs' => fs.Grows fs' []) .refl (fun h h' => h.trans h')
    (fun _ _ _ _ hmake => grows_makeDirectory hmake) fs

/-! ### Replacing files -/

/-- What replaces a file stands where its path names, and no directory was there. -/
lemma exists_of_replace {contents : ByteArray} {mode : Nat}
    (h : fs.replace p contents mode = .ok fs') :
    ∃ q, fs.slot? p = .ok (some (q, false)) ∧ ¬ fs.IsDirectory q ∧
      fs' = fs.put q (.file contents mode) := by
  obtain ⟨slot, hslot, h⟩ := Outcome.bind_eq_ok_iff.1 h
  split at h
  next q =>
    refine ⟨q, hslot, ?_⟩
    split at h
    next => simp at h
    next hdirectory =>
      exact ⟨fun ⟨mode, hmode⟩ => hdirectory mode hmode, (Outcome.pure_eq_ok_iff.1 h).symm⟩
  next => simp at h

/-- Replacing puts the file where its path leads by itself, and there it is found. -/
lemma replace_eq_ok (hlinks : fs.LinkFree) {contents : ByteArray} {mode : Nat}
    (h : fs.replace p contents mode = .ok fs') :
    fs.Grows fs' [fs.landing p] ∧ fs'.find p = .ok (fs.landing p, .file contents mode) := by
  obtain ⟨q, hslot, hnode, rfl⟩ := exists_of_replace h
  obtain ⟨hcheck, before, name, above, hparts, habove, hname, rfl⟩ := exists_of_slot? hslot
  obtain ⟨hpass, rfl, hdirectory⟩ := (directoryAt_eq_ok_iff hlinks).1 habove
  have hsteps := steps_eq_of_parts hparts
  have hlanding : fs.landing p = before.foldl Step.move (fs.start p) ++ [name] := by
    rw [landing, hsteps, List.foldl_append]
    rfl
  have hplace : fs.landing p ≠ [] := by simp [hlanding]
  rw [← hlanding] at hnode ⊢
  have hgrows := grows_put_file hplace hnode contents mode
  refine ⟨hgrows, (find_eq_ok_iff (hgrows.linkFree hlinks)).2 ⟨hcheck, ?_, ?_, ?_⟩⟩
  · rw [hgrows.start]
    refine hgrows.passable ?_
    rw [hsteps, passable_append]
    exact ⟨hpass, hdirectory, hname, trivial⟩
  · rw [hgrows.landing]
  · rw [node?_put hplace, if_pos rfl]

/-! ### What is read -/

lemma fromUTF8?_toUTF8 (s : String) : String.fromUTF8? s.toUTF8 = some s := by
  rw [String.fromUTF8?, dif_pos (show s.toUTF8.IsValidUTF8 from s.isValidUTF8)]
  rfl

lemma read_eq_ok_iff {contents : ByteArray} :
    fs.read p = .ok contents ↔ ∃ q mode, fs.find p = .ok (q, .file contents mode) := by
  rw [Files.read, Outcome.bind_eq_ok_iff]
  constructor
  · rintro ⟨⟨q, node⟩, hfind, hread⟩
    cases node with
    | file contents' mode =>
      obtain rfl := Outcome.pure_eq_ok_iff.1 hread
      exact ⟨q, mode, hfind⟩
    | directory mode => simp at hread
    | link target => simp at hread
  · rintro ⟨q, mode, hfind⟩
    exact ⟨_, hfind, rfl⟩

lemma hasFile_eq_true_iff :
    fs.hasFile p = true ↔ ∃ q contents mode, fs.find p = .ok (q, .file contents mode) := by
  unfold hasFile
  split
  next q contents mode hfind => simp [hfind]
  next hfind =>
    refine ⟨fun h => absurd h Bool.false_ne_true, ?_⟩
    rintro ⟨q, contents, mode, hfile⟩
    exact absurd hfile (hfind q contents mode)

lemma readText_of_toUTF8 {text : String} {mode : Nat}
    (h : fs.find p = .ok (q, .file text.toUTF8 mode)) : fs.readText p = .ok text := by
  refine Outcome.bind_eq_ok_iff.2 ⟨_, read_eq_ok_iff.2 ⟨q, mode, h⟩, ?_⟩
  simp only [fromUTF8?_toUTF8]
  rfl

namespace Grows

/-- A text stays where it was read, unless it is written. -/
lemma readText (h : fs.Grows fs' targets) (hlinks : fs.LinkFree) {text : String}
    (hread : fs.readText p = .ok text) (hplace : fs.landing p ∉ targets) :
    fs'.readText p = .ok text := by
  obtain ⟨contents, hcontents, htext⟩ := Outcome.bind_eq_ok_iff.1 hread
  obtain ⟨q, mode, hfind⟩ := read_eq_ok_iff.1 hcontents
  have hq : q = fs.landing p := ((find_eq_ok_iff hlinks).1 hfind).2.2.1
  have hfind' := h.find_file hlinks hfind (hq ▸ hplace)
  rw [Files.readText, read_eq_ok_iff.2 ⟨q, mode, hfind'⟩]
  exact htext

lemma hasFile (h : fs.Grows fs' targets) (hlinks : fs.LinkFree) (hfile : fs.hasFile p = true)
    (hplace : fs.landing p ∉ targets) : fs'.hasFile p = true := by
  obtain ⟨q, contents, mode, hfind⟩ := hasFile_eq_true_iff.1 hfile
  have hq : q = fs.landing p := ((find_eq_ok_iff hlinks).1 hfind).2.2.1
  exact hasFile_eq_true_iff.2 ⟨q, contents, mode, h.find_file hlinks hfind (hq ▸ hplace)⟩

end Grows

end TwoStage.Files
