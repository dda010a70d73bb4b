import TwoStage.Mount
import TwoStage.Proofs.Outcome

/-!
# Walking in trees without links

In a tree without links a walk ends where its steps lead by themselves, if it ends: what is there
only decides whether the walk gets that far. The real path of an absolute path is therefore the path
with its dots folded, whether it exists or not.
-/

namespace TwoStage

/-! ### Steps by themselves -/

namespace Step

/-- Where a step leads, whatever is there. -/
def move : Location → Step → Location
  | place, .stay      => place
  | place, .up        => place.dropLast
  | place, .down name => place ++ [name]

/-- The name that is stepped down to is not too long. -/
def IsShort : Step → Prop
  | .down name => Files.checkName name = .ok ()
  | _          => True

end Step

namespace Files

variable {fs : Files} {place q : Location} {steps : List Step} {p : Path}

/-- There is no link anywhere. -/
def LinkFree (fs : Files) : Prop := ∀ place target, fs.node? place ≠ some (.link target)

/-- What is at a place other than the root has an entry. -/
lemma mem_entries_of_node? {node : FileNode} (h : fs.node? place = some node)
    (hplace : place ≠ []) : (place, node) ∈ fs.entries := by
  rw [node?, if_neg hplace] at h
  obtain ⟨before, after, heq, -⟩ := List.lookup_eq_some_iff.1 h
  simp [heq]

lemma mem_entries_of_link {target : Path} (h : fs.node? place = some (.link target)) :
    (place, .link target) ∈ fs.entries := by
  refine mem_entries_of_node? h ?_
  rintro rfl
  simp [node?] at h

lemma linkFree_of_forall (h : ∀ e ∈ fs.entries, ∀ target, e.2 ≠ .link target) : fs.LinkFree :=
  fun _ target hnode => h _ (mem_entries_of_link hnode) target rfl

/-- There is a directory at the place. -/
def IsDirectory (fs : Files) (place : Location) : Prop :=
  ∃ mode, fs.node? place = some (.directory mode)

/-- Every step starts from a directory, and no name is too long. -/
def Passable (fs : Files) : Location → List Step → Prop
  | _,     []           => True
  | place, step :: rest =>
    fs.IsDirectory place ∧ step.IsShort ∧ fs.Passable (step.move place) rest

lemma passable_append {steps' : List Step} :
    fs.Passable place (steps ++ steps') ↔
      fs.Passable place steps ∧ fs.Passable (steps.foldl Step.move place) steps' := by
  induction steps generalizing place with
  | nil => simp [Passable]
  | cons step steps ih => simp only [List.cons_append, Passable, List.foldl_cons, ih, and_assoc]

/-! ### Walks -/

lemma walkWith_eq_ok_iff (h : fs.LinkFree) {followLast : Bool}
    {jump : Location → List Step → Except FileError Location} :
    fs.walkWith followLast jump place steps = .ok q ↔
      fs.Passable place steps ∧ q = steps.foldl Step.move place := by
  induction steps generalizing place with
  | nil => simp [walkWith, Passable, eq_comm]
  | cons step steps ih =>
    unfold walkWith
    rw [Passable, List.foldl_cons]
    split
    next hnode => simp [IsDirectory, hnode]
    next hnode => simp [IsDirectory, hnode]
    next hnode => simp [IsDirectory, hnode]
    next mode hnode =>
      have hdirectory : fs.IsDirectory place := ⟨mode, hnode⟩
      cases step with
      | stay => simp [ih, hdirectory, Step.IsShort, Step.move]
      | up => simp [ih, hdirectory, Step.IsShort, Step.move]
      | down name =>
        dsimp only
        split
        next e _ hname => simp [Step.IsShort, hname]
        next target hname hnext => exact absurd hnext (h _ _)
        next hname _ => simp [ih, hdirectory, Step.IsShort, Step.move, hname]

lemma walk_eq_ok_iff (h : fs.LinkFree) {followLast : Bool} {links : Nat} :
    fs.walk followLast links place steps = .ok q ↔
      fs.Passable place steps ∧ q = steps.foldl Step.move place := by
  cases links <;> exact walkWith_eq_ok_iff h

/-- Where a path leads by itself. -/
def landing (fs : Files) (p : Path) : Location := p.steps.foldl Step.move (fs.start p)

/-- What a path leads to, in terms of the steps to it. -/
lemma find_eq_ok_iff (h : fs.LinkFree) {node : FileNode} :
    fs.find p = .ok (q, node) ↔ checkPath p = .ok () ∧ fs.Passable (fs.start p) p.steps ∧
      q = fs.landing p ∧ fs.node? q = some node := by
  constructor
  · intro hfind
    obtain ⟨place, hlocate, hfind⟩ := Outcome.bind_eq_ok_iff.1 hfind
    obtain ⟨⟨⟩, hcheck, hlocate⟩ := Outcome.bind_eq_ok_iff.1 hlocate
    obtain ⟨hpass, rfl⟩ := (walk_eq_ok_iff h).1 hlocate
    split at hfind
    next node' hnode =>
      obtain ⟨rfl, rfl⟩ := Prod.mk.inj (Outcome.pure_eq_ok_iff.1 hfind)
      exact ⟨hcheck, hpass, rfl, hnode⟩
    next => simp at hfind
  · rintro ⟨hcheck, hpass, rfl, hnode⟩
    have hlocate : fs.locate true p = .ok (fs.landing p) := by
      rw [locate, hcheck]
      exact (walk_eq_ok_iff h).2 ⟨hpass, rfl⟩
    refine Outcome.bind_eq_ok_iff.2 ⟨_, hlocate, ?_⟩
    simp only [hnode]
    rfl

/-! ### Real paths -/

/-- A segment is the same step in the folding of dots as on a walk. -/
lemma step?_eq_cases (s : List Char) :
    Path.step? s = none ∧ Step.ofSegment s = .stay ∨
      Path.step? s = some .parent ∧ Step.ofSegment s = .up ∨
      Path.step? s = some (.name s) ∧ Step.ofSegment s = .down s := by
  unfold Path.step?
  split
  next => exact .inl ⟨rfl, rfl⟩
  next => exact .inl ⟨rfl, rfl⟩
  next => exact .inr (.inl ⟨rfl, rfl⟩)
  next hempty hdot hdots =>
    refine .inr (.inr ⟨rfl, ?_⟩)
    unfold Step.ofSegment
    split
    next => exact absurd rfl hempty
    next => exact absurd rfl hdot
    next => exact absurd rfl hdots
    next => rfl

lemma ofSegment_eq_down {s : List Char} (h : Path.step? s = some (.name s)) :
    Step.ofSegment s = .down s := by
  rcases step?_eq_cases s with ⟨hstep, -⟩ | ⟨hstep, -⟩ | ⟨-, hmove⟩
  · simp [h] at hstep
  · simp [h] at hstep
  · exact hmove

lemma foldl_foldStep_eq (segments : List (List Char)) (place : Location) :
    (segments.filterMap Path.step?).foldl Path.foldStep (place.reverse.map .name ++ [.root]) =
      ((segments.map Step.ofSegment).foldl Step.move place).reverse.map .name ++ [.root] := by
  induction segments generalizing place with
  | nil => rfl
  | cons s segments ih =>
    rw [List.map_cons, List.foldl_cons, ← ih]
    rcases step?_eq_cases s with ⟨hstep, hmove⟩ | ⟨hstep, hmove⟩ | ⟨hstep, hmove⟩
    · rw [List.filterMap_cons_none hstep, hmove, Step.move]
    · rw [List.filterMap_cons_some hstep, List.foldl_cons, hmove, Step.move]
      congr 1
      -- the parent of the root is the root, any other place loses its last name
      rcases List.eq_nil_or_concat place with rfl | ⟨above, name, rfl⟩
      · rfl
      · simp [Path.foldStep]
    · rw [List.filterMap_cons_some hstep, List.foldl_cons, hmove, Step.move]
      congr 1
      simp [Path.foldStep]

/-- A path from the root with its dots folded is where it leads by itself. -/
lemma ofLocation_landing (hp : p.absolute = true) :
    Path.ofLocation (fs.landing p) = p.normalize := by
  have hfold := foldl_foldStep_eq p.segments []
  rw [Path.normalize, Path.components, if_pos hp, List.foldl_cons]
  change _ = Path.ofComponents ((p.segments.filterMap Path.step?).foldl Path.foldStep
    (([] : Location).reverse.map .name ++ [.root])).reverse
  rw [hfold, landing, start, if_pos hp, Path.steps]
  generalize (p.segments.map Step.ofSegment).foldl Step.move [] = place
  have hsegments : (Component.root :: place.map .name).filterMap Path.segmentOf? = place := by
    rw [List.filterMap_cons_none rfl, List.filterMap_map]
    exact List.filterMap_some
  simp [Path.ofComponents, Path.ofLocation, hsegments]

lemma realPath_eq (h : fs.LinkFree) (hp : p.absolute = true) : fs.realPath p = p.normalize := by
  unfold realPath
  split
  next q hq =>
    obtain ⟨⟨place, node⟩, hfind, rfl⟩ := Outcome.map_eq_ok_iff.1 hq
    obtain ⟨-, -, rfl, -⟩ := (find_eq_ok_iff h).1 hfind
    exact ofLocation_landing hp
  next => rfl

end Files

end TwoStage
