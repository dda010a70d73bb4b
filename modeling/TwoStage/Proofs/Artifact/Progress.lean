import Mathlib.Logic.Relation
import TwoStage.Proofs.Artifact.Paths
import TwoStage.Proofs.Files.Passage

/-!
# Moments of writing

A file is written step by step. The directories above it are made, a temporary file is created next
to it, filled and given its permissions, and then renamed, which puts it in the place of the file as
a whole. Every step can fail, and then the temporary file is removed and nothing more is written. At
every moment the tree is as it was but for new directories, the temporary file and the files that
are written, if no link in the place of a directory above a file leads to a directory.
-/

namespace TwoStage

/-! ### Putting and unlinking -/

namespace Files

variable {fs : Files} {place q : Location} {node node' : FileNode}

/-- The permissions of a new temporary file. -/
def temporaryMode : Nat := 0o600

/-- Take away what is at a place, and nothing below it. -/
def unlink (fs : Files) (place : Location) : Files :=
  { fs with entries := fs.entries.filter fun e => e.1 ≠ place }

lemma lookup_filter_ne (es : List (Location × FileNode)) :
    (es.filter fun e => e.1 ≠ place).lookup q = if q = place then none else es.lookup q := by
  induction es with
  | nil => simp
  | cons e es ih =>
    by_cases he : e.1 = place
    · rw [List.filter_cons_of_neg (by simpa using he), ih, List.lookup_cons]
      by_cases hq : q = place
      · simp [hq]
      · have hne : (q == e.1) = false := beq_eq_false_iff_ne.2 (he ▸ hq)
        simp [hq, hne]
    · rw [List.filter_cons_of_pos (by simpa using he), List.lookup_cons, List.lookup_cons, ih]
      by_cases hq : q = place
      · have hne : (q == e.1) = false := beq_eq_false_iff_ne.2 (hq ▸ Ne.symm he)
        simp [hq, hq ▸ hne]
      · simp [hq]

lemma node?_unlink (hplace : place ≠ []) :
    (fs.unlink place).node? q = if q = place then none else fs.node? q := by
  by_cases hq : q = []
  · simp [node?, hq, hplace.symm]
  · simp only [node?, unlink, if_neg hq, lookup_filter_ne]

/-- Where nothing is, putting a node and taking it away again changes nothing. -/
lemma unlink_put (hplace : place ≠ []) (hnone : fs.node? place = none) :
    (fs.put place node).unlink place = fs := by
  rw [node?, if_neg hplace, List.lookup_eq_none_iff] at hnone
  obtain ⟨entries, here⟩ := fs
  simp only [put, unlink, mk.injEq, and_true]
  simp only at hnone
  induction entries with
  | nil => simp [putEntry]
  | cons e es ih =>
    rw [List.forall_mem_cons] at hnone
    have hne : e.1 ≠ place := fun heq => by simp [heq] at hnone
    rw [putEntry, if_neg hne, List.filter_cons_of_pos (by simpa using hne), ih hnone.2]

/-- Of two nodes that are put at one place the second stays. -/
lemma put_put : (fs.put place node).put place node' = fs.put place node' := by
  obtain ⟨entries, here⟩ := fs
  simp only [put, mk.injEq, and_true]
  induction entries with
  | nil => simp [putEntry]
  | cons e es ih =>
    by_cases he : e.1 = place
    · simp [putEntry, he]
    · simp [putEntry, he, ih]

lemma ne_nil_of_not_isDirectory (h : ¬ fs.IsDirectory place) : place ≠ [] := by
  rintro rfl
  exact h ⟨directoryMode, rfl⟩

lemma not_isDirectory_of_file {contents : ByteArray} {mode : Nat}
    (h : fs.node? place = some (.file contents mode)) : ¬ fs.IsDirectory place := by
  rintro ⟨mode', hmode⟩
  simp [h] at hmode

lemma not_isDirectory_of_none (h : fs.node? place = none) : ¬ fs.IsDirectory place := by
  rintro ⟨mode, hmode⟩
  simp [h] at hmode

/-- Taking away what is no directory leaves all directories. -/
lemma IsDirectory.unlink (h : fs.IsDirectory q) (hplace : ¬ fs.IsDirectory place) :
    (fs.unlink place).IsDirectory q := by
  obtain ⟨mode, hmode⟩ := h
  refine ⟨mode, ?_⟩
  rw [node?_unlink (ne_nil_of_not_isDirectory hplace), if_neg, hmode]
  rintro rfl
  exact hplace ⟨mode, hmode⟩

/-- Taking something away makes no directories. -/
lemma IsDirectory.of_unlink (hplace : place ≠ []) (h : (fs.unlink place).IsDirectory q) :
    fs.IsDirectory q := by
  obtain ⟨mode, hmode⟩ := h
  rw [node?_unlink hplace] at hmode
  split at hmode
  next => simp at hmode
  next => exact ⟨mode, hmode⟩

/-- Putting something where no directory is leaves all directories. -/
lemma IsDirectory.put (h : fs.IsDirectory q) (hplace : ¬ fs.IsDirectory place) (node : FileNode) :
    (fs.put place node).IsDirectory q := by
  obtain ⟨mode, hmode⟩ := h
  refine ⟨mode, ?_⟩
  rw [node?_put (ne_nil_of_not_isDirectory hplace), if_neg, hmode]
  rintro rfl
  exact hplace ⟨mode, hmode⟩

/-- What is put where nothing is leaves what paths name. -/
lemma slot?_put (hnone : fs.node? place = none) (node : FileNode) {p : Path}
    {slot : Location × Bool} (h : fs.slot? p = .ok (some slot)) :
    (fs.put place node).slot? p = .ok (some slot) := by
  have hhere : (fs.put place node).here = fs.here := rfl
  have hfree := not_isDirectory_of_none hnone
  refine slot?_transfer hhere (fun r hr => hr.put hfree node) (fun r target hr => ?_) h
  rw [node?_put (ne_nil_of_not_isDirectory hfree), if_neg, hr]
  rintro rfl
  simp [hnone] at hr

/-- Putting a file somewhere makes no directories. -/
lemma IsDirectory.of_put_file {contents : ByteArray} {mode : Nat} (hplace : place ≠ [])
    (h : (fs.put place (.file contents mode)).IsDirectory q) : fs.IsDirectory q := by
  obtain ⟨mode', hmode⟩ := h
  rw [node?_put hplace] at hmode
  split at hmode
  next => simp at hmode
  next => exact ⟨mode', hmode⟩

/-- At the place is what was there, or a new directory where nothing was. -/
def Kept (fs fs' : Files) (place : Location) : Prop :=
  fs'.node? place = fs.node? place ∨
    fs.node? place = none ∧ fs'.node? place = some (.directory directoryMode)

end Files

/-! ### Steps of writing -/

open Files

/-- What the names of temporary files start with. -/
def temporaryPrefix : List Char := ['.', 't', 'm', 'p']

def Artifact.directory (root : Path) (a : Artifact) : Path :=
  ((a.destination root).parent?).getD (Path.ofString ".")

/-- A moment of writing: the tree, the files that have been written and those that have not, and the
place of the temporary file that is to become the first of these. -/
structure Progress where
  files : Files
  written : List Artifact
  waiting : List Artifact
  temporary? : Option Location

namespace Progress

def start (fs : Files) (items : List Artifact) : Progress := ⟨fs, [], items, none⟩

/-- One step of writing the first file that waits. -/
inductive Advance (root : Path) : Progress → Progress → Prop
  | makeDirectory {fs made : Files} {written waiting : List Artifact} {a : Artifact} {p : Path}
      (hp : p ∈ (a.directory root).ancestors) (h : fs.makeDirectory p = .ok made) :
      Advance root ⟨fs, written, a :: waiting, none⟩ ⟨made, written, a :: waiting, none⟩
  | create {fs : Files} {written waiting : List Artifact} {a : Artifact} {above : Location}
      {last name : List Char}
      (hslot : fs.slot? (a.destination root) = .ok (some (above ++ [last], false)))
      (hname : temporaryPrefix <+: name) (hnew : fs.node? (above ++ [name]) = none) :
      Advance root ⟨fs, written, a :: waiting, none⟩
        ⟨fs.put (above ++ [name]) (.file .empty temporaryMode), written, a :: waiting,
          some (above ++ [name])⟩
  | fill {fs : Files} {written waiting : List Artifact} {a : Artifact} {place : Location}
      {contents : ByteArray} {mode : Nat} (contents' : ByteArray)
      (h : fs.node? place = some (.file contents mode)) :
      Advance root ⟨fs, written, a :: waiting, some place⟩
        ⟨fs.put place (.file contents' mode), written, a :: waiting, some place⟩
  | permit {fs : Files} {written waiting : List Artifact} {a : Artifact} {place : Location}
      {contents : ByteArray} {mode : Nat}
      (h : fs.node? place = some (.file contents mode)) :
      Advance root ⟨fs, written, a :: waiting, some place⟩
        ⟨fs.put place (.file contents a.mode.bits), written, a :: waiting, some place⟩
  | rename {fs : Files} {written waiting : List Artifact} {a : Artifact} {place q : Location}
      (h : fs.node? place = some (.file a.bytes a.mode.bits))
      (hslot : fs.slot? (a.destination root) = .ok (some (q, false)))
      (hfree : ¬ fs.IsDirectory q) :
      Advance root ⟨fs, written, a :: waiting, some place⟩
        ⟨(fs.unlink place).put q (.file a.bytes a.mode.bits), written ++ [a], waiting, none⟩

/-- Writing comes to the moment. -/
def Reaches (root : Path) (fs : Files) (items : List Artifact) : Progress → Prop :=
  Relation.ReflTransGen (Advance root) (start fs items)

/-- How writing ends: when all files are written, or when a step fails. -/
inductive Ends (root : Path) (fs : Files) (items : List Artifact) :
    Files × Outcome (List Path) → Prop
  | finished {fs' : Files} {written : List Artifact}
      (h : Reaches root fs items ⟨fs', written, [], none⟩) :
      Ends root fs items (fs', .ok (written.map (Artifact.destination root)))
  | failed {fs' : Files} {written waiting : List Artifact} {a : Artifact}
      {temporary? : Option Location}
      (h : Reaches root fs items ⟨fs', written, a :: waiting, temporary?⟩) :
      Ends root fs items
        (temporary?.elim fs' fs'.unlink, .error (.writeFailed (a.destination root)))

end Progress

/-! ### What every moment has -/

/-- The files have paths of their own that go down, and none has the name of a temporary file. -/
structure Artifacts.Filed (items : List Artifact) : Prop where
  nodup : (items.map Artifact.path).Nodup
  down : ∀ a ∈ items, a.path.GoesDown
  name : ∀ a ∈ items, ∀ n ∈ a.path.segments.getLast?, ¬ temporaryPrefix <+: n

/-- The places of the directories above the destinations. -/
def Artifacts.above (fs : Files) (root : Path) (items : List Artifact) : List Location :=
  items.flatMap fun a => fs.above (a.destination root)

/-- No link in the place of a directory above a destination leads to a directory, neither to one
that is there nor to one that writing makes. -/
def Artifacts.NoLinkAbove (fs : Files) (root : Path) (items : List Artifact) : Prop :=
  ∀ place ∈ above fs root items, (fs.withDirectories (above fs root items)).Clear place

/-- The file stands as a whole in its place, and its path leads there. -/
structure Artifact.Stands (fs : Files) (root : Path) (a : Artifact) : Prop where
  check : checkPath (a.destination root) = .ok ()
  passable : fs.Passable (fs.start (a.destination root)) (a.destination root).steps
  node : fs.node? (a.place fs root) = some (.file a.bytes a.mode.bits)

/-- A file stands as long as it is there and no directory goes. -/
lemma Artifact.Stands.mono {fs fs' : Files} {root : Path} {a : Artifact} (h : a.Stands fs root)
    (hhere : fs'.here = fs.here) (hdirectory : ∀ q, fs.IsDirectory q → fs'.IsDirectory q)
    (hnode : fs'.node? (a.place fs root) = fs.node? (a.place fs root)) : a.Stands fs' root where
  check := h.check
  passable := by
    rw [start, hhere]
    exact h.passable.mono hdirectory
  node := by
    rw [place, landing, start, hhere]
    exact hnode.trans h.node

namespace Progress

variable {root : Path} {fs t : Files} {items written waiting : List Artifact} {a : Artifact}
  {s s' : Progress} {held? : Option Location} {place : Location}

/-- What holds at every moment of writing. -/
structure Sound (root : Path) (fs : Files) (items : List Artifact) (s : Progress) : Prop where
  all : s.written ++ s.waiting = items
  here : s.files.here = fs.here
  stands : ∀ a ∈ s.written, a.Stands s.files root
  temporary : ∀ place ∈ s.temporary?, fs.node? place = none ∧
    place ∉ items.map (Artifact.place fs root) ∧
    ∃ contents mode, s.files.node? place = some (.file contents mode)
  kept : ∀ place, place ∉ s.written.map (Artifact.place fs root) → s.temporary? ≠ some place →
    fs.Kept s.files place
  made : ∀ place, fs.node? place = none → s.files.IsDirectory place →
    place ∈ Artifacts.above fs root items

lemma place_eq (h : t.here = fs.here) (a : Artifact) : a.place t root = a.place fs root := by
  rw [Artifact.place, Artifact.place, landing, landing, Files.start, Files.start, h]

lemma above_eq (h : t.here = fs.here) (p : Path) : t.above p = fs.above p := by
  rw [Files.above, Files.above, Files.start, Files.start, h]

/-- A path that goes down ends in a name, wherever it is seen from. -/
lemma exists_name_of_goesDown (hroot : root.IsParted) (hdown : a.path.GoesDown) :
    ∃ n ∈ (a.destination root).segments, Path.isIdle n = false := by
  obtain ⟨front, -, hjoin⟩ := hroot.exists_join_eq
  obtain ⟨n, names, hnames⟩ := List.exists_cons_of_ne_nil hdown.ne_nil
  have hn : n ∈ a.path.segments := by simp [hnames]
  refine ⟨n, by simp [Artifact.destination, hjoin _ hdown, hn], ?_⟩
  have hstep := hdown.names n hn
  rw [Path.isIdle, Bool.or_eq_false_iff, decide_eq_false_iff_not, decide_eq_false_iff_not]
  constructor <;> rintro rfl <;> simp [Path.step?] at hstep

lemma sound_start (root : Path) (fs : Files) (items : List Artifact) :
    Sound root fs items (start fs items) where
  all := rfl
  here := rfl
  stands := by simp [start]
  temporary := by simp [start]
  kept _ _ _ := .inl rfl
  made place hnone hdirectory := absurd hdirectory (not_isDirectory_of_none hnone)

namespace Sound

lemma mem_items (h : Sound root fs items ⟨t, written, a :: waiting, held?⟩) : a ∈ items := by
  rw [← h.all]
  simp

lemma mem_items_of_mem_written (h : Sound root fs items s) {b : Artifact} (hb : b ∈ s.written) :
    b ∈ items := by
  rw [← h.all]
  exact List.mem_append_left _ hb

/-- What is written stays where it is. -/
lemma node?_of_mem (h : Sound root fs items s) {b : Artifact} (hb : b ∈ s.written) :
    s.files.node? (b.place fs root) = some (.file b.bytes b.mode.bits) := by
  rw [← place_eq h.here]
  exact (h.stands b hb).node

/-- Links have not been made, and where a directory is there would be one. -/
lemma clear (h : Sound root fs items s) (hclear : Artifacts.NoLinkAbove fs root items) :
    ∀ place ∈ Artifacts.above fs root items, s.files.Clear place := by
  -- what is not a written file nor the temporary one has been kept
  have hkept {q : Location}
      (hfile : ∀ contents mode, s.files.node? q ≠ some (.file contents mode)) :
      fs.Kept s.files q := by
    refine h.kept q (fun hmem => ?_) fun htemporary => ?_
    · obtain ⟨b, hb, rfl⟩ := List.mem_map.1 hmem
      exact hfile _ _ (h.node?_of_mem hb)
    · obtain ⟨-, -, contents, mode, hnode⟩ := h.temporary q htemporary
      exact hfile _ _ hnode
  refine fun place hplace => Clear.of_transfer (fun q hq => ?_) (fun q target hq => ?_)
    (hclear place hplace)
  · obtain ⟨mode, hmode⟩ := hq
    rw [IsDirectory, node?_withDirectories]
    rcases hkept (q := q) (by simp [hmode]) with hsame | ⟨hnone, -⟩
    · rw [← hsame, hmode, if_neg (by simp)]
      exact ⟨mode, rfl⟩
    · rw [if_pos ⟨hnone, h.made q hnone ⟨mode, hmode⟩⟩]
      exact ⟨_, rfl⟩
  · rw [node?_withDirectories]
    rcases hkept (q := q) (by simp [hq]) with hsame | ⟨-, hdirectory⟩
    · rw [← hsame, hq, if_neg (by simp)]
    · simp [hq] at hdirectory

/-- The places above the destination of a file that waits are free of links to directories. -/
lemma clear_above (h : Sound root fs items ⟨t, written, a :: waiting, held?⟩)
    (hclear : Artifacts.NoLinkAbove fs root items) :
    ∀ place ∈ t.above (a.destination root), t.Clear place := fun place hplace =>
  h.clear hclear place (List.mem_flatMap.2 ⟨a, h.mem_items, above_eq h.here _ ▸ hplace⟩)

/-- Where nothing is nothing was. -/
lemma eq_none (h : Sound root fs items s) (hnone : s.files.node? place = none) :
    fs.node? place = none := by
  have hkept : fs.Kept s.files place := by
    refine h.kept place (fun hmem => ?_) fun htemporary => ?_
    · obtain ⟨b, hb, rfl⟩ := List.mem_map.1 hmem
      simp [h.node?_of_mem hb] at hnone
    · obtain ⟨-, -, contents, mode, hnode⟩ := h.temporary place htemporary
      simp [hnode] at hnone
  rcases hkept with hsame | ⟨hempty, -⟩
  · rw [← hsame, hnone]
  · exact hempty

/-- What is put elsewhere changes nothing about the files that are written. -/
lemma stands_put (h : Sound root fs items ⟨t, written, waiting, held?⟩)
    (hfree : ¬ t.IsDirectory place) (hplace : ∀ b ∈ written, b.place fs root ≠ place)
    (node : FileNode) : ∀ b ∈ written, b.Stands (t.put place node) root := fun b hb =>
  (h.stands b hb).mono rfl (fun _ hr => hr.put hfree node) (by
    rw [node?_put (ne_nil_of_not_isDirectory hfree), place_eq h.here, if_neg (hplace b hb)])

lemma place_ne_of_none (h : Sound root fs items ⟨t, written, waiting, held?⟩)
    (hnone : t.node? place = none) : ∀ b ∈ written, b.place fs root ≠ place := by
  rintro b hb rfl
  have hnode := h.node?_of_mem hb
  simp [hnone] at hnode

/-- The temporary file is none of those that are written. -/
lemma place_ne_of_temporary (h : Sound root fs items ⟨t, written, waiting, some place⟩) :
    ∀ b ∈ items, b.place fs root ≠ place := fun _ hb heq =>
  (h.temporary place rfl).2.1 (heq ▸ List.mem_map_of_mem hb)

/-! ### What every step keeps -/

lemma makeDirectory {made : Files} {p : Path} (hroot : root.IsParted)
    (hfiled : Artifacts.Filed items) (hclear : Artifacts.NoLinkAbove fs root items)
    (h : Sound root fs items ⟨t, written, a :: waiting, none⟩)
    (hp : p ∈ (a.directory root).ancestors) (hmake : t.makeDirectory p = .ok made) :
    Sound root fs items ⟨made, written, a :: waiting, none⟩ := by
  have hname := exists_name_of_goesDown hroot (hfiled.down a h.mem_items)
  have htrail : trail (t.start p) p.steps ⊆ t.above (a.destination root) :=
    trail_subset_above hname hp
  -- a directory is made where nothing stands, so that no file is touched
  obtain ⟨hnone, rfl⟩ := eq_put_of_makeDirectory
    (fun mid hmid => h.clear_above hclear mid (htrail hmid)) hmake
  have habove : t.landing p ∈ Artifacts.above fs root items :=
    List.mem_flatMap.2 ⟨a, h.mem_items, above_eq h.here _ ▸ htrail (foldl_move_mem_trail _ _)⟩
  generalize t.landing p = q at hnone habove
  have hfree := not_isDirectory_of_none hnone
  have hq := ne_nil_of_not_isDirectory hfree
  exact {
    all := h.all
    here := h.here
    stands := h.stands_put hfree (h.place_ne_of_none hnone) _
    temporary := by simp
    kept := fun r hr _ => by
      rw [Kept, node?_put hq]
      split
      next heq => exact .inr ⟨h.eq_none (heq ▸ hnone), rfl⟩
      next => exact h.kept r hr (by simp)
    made := fun r hempty hr => by
      obtain ⟨mode, hmode⟩ := hr
      rw [node?_put hq] at hmode
      split at hmode
      next heq => exact heq ▸ habove
      next => exact h.made r hempty ⟨mode, hmode⟩ }

/-- A file in the place of the temporary one. -/
lemma put_temporary (h : Sound root fs items ⟨t, written, waiting, held?⟩)
    (hheld : ∀ q ∈ held?, q = place) (hempty : fs.node? place = none)
    (hapart : place ∉ items.map (Artifact.place fs root)) (hfree : ¬ t.IsDirectory place)
    (contents : ByteArray) (mode : Nat) :
    Sound root fs items ⟨t.put place (.file contents mode), written, waiting, some place⟩ := by
  have hplace := ne_nil_of_not_isDirectory hfree
  have hitems : ∀ b ∈ written, b.place fs root ≠ place := fun b hb heq =>
    hapart (heq ▸ List.mem_map_of_mem (h.mem_items_of_mem_written hb))
  exact {
    all := h.all
    here := h.here
    stands := h.stands_put hfree hitems _
    temporary := fun r hr => by
      obtain rfl := Option.some.inj hr
      exact ⟨hempty, hapart, contents, mode, by rw [node?_put hplace, if_pos rfl]⟩
    kept := fun r hr hne => by
      have hne : r ≠ place := fun heq => hne (by rw [heq])
      rw [Kept, node?_put hplace, if_neg hne]
      exact h.kept r hr fun hheld' => hne (hheld r hheld')
    made := fun r hnone hr => h.made r hnone (hr.of_put_file hplace) }

lemma create {above : Location} {name : List Char} (hroot : root.IsParted)
    (hfiled : Artifacts.Filed items)
    (h : Sound root fs items ⟨t, written, waiting, none⟩)
    (hname : temporaryPrefix <+: name) (hnew : t.node? (above ++ [name]) = none) :
    Sound root fs items
      ⟨t.put (above ++ [name]) (.file .empty temporaryMode), written, waiting,
        some (above ++ [name])⟩ := by
  refine h.put_temporary (by simp) (h.eq_none hnew) (fun hmem => ?_)
    (not_isDirectory_of_none hnew) _ _
  obtain ⟨b, hb, heq⟩ := List.mem_map.1 hmem
  have hlast := congrArg List.getLast? heq
  rw [Artifact.place, Artifact.destination, hroot.landing_join fs (hfiled.down b hb),
    List.getLast?_append_of_ne_nil _ (hfiled.down b hb).ne_nil, List.getLast?_concat] at hlast
  exact hfiled.name b hb name hlast hname

/-- What the temporary file holds and who may read it changes. -/
lemma refill {contents contents' : ByteArray} {mode mode' : Nat}
    (h : Sound root fs items ⟨t, written, waiting, some place⟩)
    (hnode : t.node? place = some (.file contents mode)) :
    Sound root fs items ⟨t.put place (.file contents' mode'), written, waiting, some place⟩ := by
  obtain ⟨hempty, hapart, -⟩ := h.temporary place rfl
  exact h.put_temporary (by simp) hempty hapart (not_isDirectory_of_file hnode) _ _

/-- Without the temporary file the tree is as if there had been none. -/
lemma unlink (h : Sound root fs items ⟨t, written, waiting, some place⟩) :
    Sound root fs items ⟨t.unlink place, written, waiting, none⟩ := by
  obtain ⟨hempty, hapart, contents, mode, hnode⟩ := h.temporary place rfl
  have hfree := not_isDirectory_of_file hnode
  have hplace := ne_nil_of_not_isDirectory hfree
  exact {
    all := h.all
    here := h.here
    stands := fun b hb => (h.stands b hb).mono rfl (fun _ hr => hr.unlink hfree) (by
      have hne := h.place_ne_of_temporary b (h.mem_items_of_mem_written hb)
      rw [node?_unlink hplace, place_eq h.here, if_neg hne])
    temporary := by simp
    kept := fun r hr _ => by
      rw [Kept, node?_unlink hplace]
      split
      next heq => exact .inl (by rw [heq, hempty])
      next hne => exact h.kept r hr fun heq => hne (Option.some.inj heq).symm
    made := fun r hnone hr => h.made r hnone (hr.of_unlink hplace) }

/-- The first of the files that wait is put in its place. -/
lemma deliver (hroot : root.IsParted) (hfiled : Artifacts.Filed items)
    (h : Sound root fs items ⟨t, written, a :: waiting, none⟩)
    (hcheck : checkPath (a.destination root) = .ok ())
    (hpass : t.Passable (t.start (a.destination root)) (a.destination root).steps)
    (hfree : ¬ t.IsDirectory (a.place fs root)) :
    Sound root fs items
      ⟨t.put (a.place fs root) (.file a.bytes a.mode.bits), written ++ [a], waiting, none⟩ := by
  have hplace := ne_nil_of_not_isDirectory hfree
  -- the files have places of their own, so those that have been written stay
  have hapart : ∀ b ∈ written, b.place fs root ≠ a.place fs root := by
    have hall : Artifacts.Apart fs root items :=
      Artifacts.apart_of_nodup hroot hfiled.nodup hfiled.down
    rw [← h.all] at hall
    exact fun b hb => (List.pairwise_append.1 hall).2.2 b hb a List.mem_cons_self
  exact {
    all := by
      rw [← h.all]
      simp
    here := h.here
    stands := by
      refine List.forall_mem_append.2 ⟨h.stands_put hfree hapart _, ?_⟩
      rw [List.forall_mem_singleton]
      exact {
        check := hcheck
        passable := hpass.mono fun _ hr => hr.put hfree _
        node := by
          have hhere :
              (t.put (a.place fs root) (.file a.bytes a.mode.bits)).here = fs.here := h.here
          rw [place_eq hhere, node?_put hplace, if_pos rfl] }
    temporary := by simp
    kept := fun r hr _ => by
      rw [List.map_append, List.mem_append, not_or, List.map_singleton, List.mem_singleton] at hr
      rw [Kept, node?_put hplace, if_neg hr.2]
      exact h.kept r hr.1 (by simp)
    made := fun r hnone hr => h.made r hnone (hr.of_put_file hplace) }

/-- Renaming takes the temporary file away and puts what it holds in the place of the file. -/
lemma rename {q : Location} (hroot : root.IsParted) (hfiled : Artifacts.Filed items)
    (hclear : Artifacts.NoLinkAbove fs root items)
    (h : Sound root fs items ⟨t, written, a :: waiting, some place⟩)
    (hslot : t.slot? (a.destination root) = .ok (some (q, false))) (hfree : ¬ t.IsDirectory q) :
    Sound root fs items
      ⟨(t.unlink place).put q (.file a.bytes a.mode.bits), written ++ [a], waiting, none⟩ := by
  obtain ⟨hcheck, hpass, heq⟩ := passable_of_slot? (h.clear_above hclear) hslot
  obtain rfl : q = a.place fs root := heq.trans (place_eq h.here a)
  obtain ⟨-, -, contents, mode, hnode⟩ := h.temporary place rfl
  have htemporary := not_isDirectory_of_file hnode
  exact h.unlink.deliver hroot hfiled hcheck (hpass.mono fun _ hr => hr.unlink htemporary)
    fun hr => hfree (hr.of_unlink (ne_nil_of_not_isDirectory htemporary))

end Sound

/-- Every step of writing keeps what holds at every moment. -/
lemma Sound.advance (hroot : root.IsParted) (hfiled : Artifacts.Filed items)
    (hclear : Artifacts.NoLinkAbove fs root items) (h : Sound root fs items s)
    (hstep : Advance root s s') : Sound root fs items s' := by
  cases hstep with
  | makeDirectory hp hmake => exact h.makeDirectory hroot hfiled hclear hp hmake
  | create _ hname hnew => exact h.create hroot hfiled hname hnew
  | fill _ hnode => exact h.refill hnode
  | permit hnode => exact h.refill hnode
  | rename _ hslot hfree => exact h.rename hroot hfiled hclear hslot hfree

/-- What holds at every moment of writing. -/
lemma Reaches.sound (hroot : root.IsParted) (hfiled : Artifacts.Filed items)
    (hclear : Artifacts.NoLinkAbove fs root items) (h : Reaches root fs items s) :
    Sound root fs items s := by
  induction h with
  | refl => exact sound_start root fs items
  | tail _ hstep ih => exact ih.advance hroot hfiled hclear hstep

end Progress

end TwoStage
