import TwoStage.Proofs.Files.Walk

/-!
# Courses

Folding the dots of a path leaves a course: so many steps up, and then down by names. Each step of
the path changes the course in such a way that it leads where the steps so far lead, whatever they
start from, and that it can be walked if they can. A course from the root never goes up.
-/

namespace TwoStage

open Files

/-- So many steps up, then down by names. -/
structure Course where
  ups : Nat
  names : List (List Char)

namespace Course

/-- The course that goes nowhere. -/
def stay : Course := ⟨0, []⟩

def steps (c : Course) : List Step := List.replicate c.ups .up ++ c.names.map .down

/-- The path that takes a course, from the root or not. -/
def path (absolute : Bool) (c : Course) : Path :=
  ⟨absolute, List.replicate c.ups ['.', '.'] ++ c.names⟩

/-- The course after one more step. A step up undoes the latest name, and stays at the root. -/
def extend (absolute : Bool) (c : Course) : Step → Course
  | .stay      => c
  | .down name => ⟨c.ups, c.names ++ [name]⟩
  | .up        =>
    if c.names = [] then if absolute then c else ⟨c.ups + 1, []⟩
    else ⟨c.ups, c.names.dropLast⟩

def run (absolute : Bool) (c : Course) (steps : List Step) : Course :=
  steps.foldl (extend absolute) c

/-- The course as the folding of dots keeps it, the latest step first. -/
def folded (absolute : Bool) (c : Course) : List Component :=
  c.names.reverse.map .name ++ if absolute then [.root] else List.replicate c.ups .parent

variable {absolute : Bool} {c : Course} {fs : Files} {start : Location} {step : Step}
  {steps : List Step}

/-! ### Running -/

/-- The course can be taken from a place: at the root it does not go up. -/
def Fits (absolute : Bool) (start : Location) (c : Course) : Prop :=
  absolute = true → start = [] ∧ c.ups = 0

lemma Fits.extend (h : c.Fits absolute start) (step : Step) :
    (c.extend absolute step).Fits absolute start := by
  intro habsolute
  obtain ⟨hstart, hups⟩ := h habsolute
  refine ⟨hstart, ?_⟩
  cases step with
  | stay => exact hups
  | down name => exact hups
  | up =>
    rw [Course.extend]
    split
    · simpa [habsolute] using hups
    · exact hups

lemma Fits.run (h : c.Fits absolute start) (steps : List Step) :
    (c.run absolute steps).Fits absolute start := by
  induction steps generalizing c with
  | nil => exact h
  | cons step steps ih => exact ih (h.extend step)

lemma mem_names_extend {name : List Char} (h : name ∈ (c.extend absolute step).names) :
    name ∈ c.names ∨ step = .down name := by
  cases step with
  | stay => exact .inl h
  | down name' => simpa [extend, eq_comm] using h
  | up =>
    rw [extend] at h
    split at h
    · split at h
      · exact .inl h
      · simp at h
    · exact .inl (List.dropLast_subset _ h)

/-- The names of a course are among its steps. -/
lemma mem_names_run {name : List Char} (h : name ∈ (c.run absolute steps).names) :
    name ∈ c.names ∨ .down name ∈ steps := by
  induction steps generalizing c with
  | nil => exact .inl h
  | cons step steps ih =>
    rcases ih h with h | h
    · exact (mem_names_extend h).imp_right fun heq => by simp [heq]
    · exact .inr (List.mem_cons_of_mem _ h)

/-- A course is what its steps run to. -/
lemma run_steps (h : c.Fits absolute start) : stay.run absolute c.steps = c := by
  -- names are appended wherever one is; steps up are only counted where the course starts
  have hnames (d : Course) (names : List (List Char)) :
      d.run absolute (names.map .down) = ⟨d.ups, d.names ++ names⟩ := by
    induction names generalizing d with
    | nil => simp [run]
    | cons name names ih =>
      rw [List.map_cons, run, List.foldl_cons]
      exact (ih _).trans (by simp [extend])
  have hups (n : Nat) (hn : absolute = true → n = 0) :
      stay.run absolute (List.replicate n .up) = ⟨n, []⟩ := by
    induction n with
    | zero => rfl
    | succ n ih =>
      cases absolute with
      | true => simp at hn
      | false =>
        rw [List.replicate_succ', run, List.foldl_append]
        change (stay.run false (List.replicate n .up)).extend false .up = _
        rw [ih (by simp)]
        rfl
  rw [steps, run, List.foldl_append]
  change (stay.run absolute (List.replicate c.ups .up)).run absolute (c.names.map .down) = c
  rw [hups c.ups fun habsolute => (h habsolute).2, hnames]
  rfl

/-! ### Where a course leads -/

/-- After one more step a course leads where the step leads from its end. -/
lemma foldl_move_extend (h : c.Fits absolute start) (step : Step) :
    (c.extend absolute step).steps.foldl Step.move start =
      step.move (c.steps.foldl Step.move start) := by
  obtain ⟨ups, names⟩ := c
  cases step with
  | stay => rfl
  | down name => simp [extend, steps, Step.move]
  | up =>
    rcases List.eq_nil_or_concat names with rfl | ⟨above, name, rfl⟩
    · cases absolute with
      | true =>
        obtain ⟨rfl, rfl⟩ := h rfl
        rfl
      | false => simp [extend, steps, List.replicate_succ', Step.move]
    · simp [extend, steps, Step.move]

/-- A course leads where the steps lead from which it is run. -/
lemma foldl_move_run (h : c.Fits absolute start) (steps : List Step) :
    (c.run absolute steps).steps.foldl Step.move start =
      steps.foldl Step.move (c.steps.foldl Step.move start) := by
  induction steps generalizing c with
  | nil => rfl
  | cons step steps ih =>
    rw [List.foldl_cons, ← foldl_move_extend h]
    exact ih (h.extend step)

/-- After one more step that can be walked a course can be walked. -/
lemma passable_extend (hc : fs.Passable start c.steps)
    (hplace : fs.IsDirectory (c.steps.foldl Step.move start)) (hstep : step.IsShort) :
    fs.Passable start (c.extend absolute step).steps := by
  obtain ⟨ups, names⟩ := c
  cases step with
  | stay => exact hc
  | down name =>
    have hsteps : (extend absolute ⟨ups, names⟩ (.down name)).steps =
        steps ⟨ups, names⟩ ++ [.down name] := by
      simp [extend, steps]
    rw [hsteps, passable_append]
    exact ⟨hc, hplace, hstep, trivial⟩
  | up =>
    -- a step up takes back the last name; without one it is lost at the root, and counted elsewhere
    rcases List.eq_nil_or_concat names with rfl | ⟨above, name, rfl⟩
    · cases absolute with
      | true => exact hc
      | false =>
        have hsteps : (extend false ⟨ups, []⟩ .up).steps = steps ⟨ups, []⟩ ++ [.up] := by
          simp [extend, steps, List.replicate_succ']
        rw [hsteps, passable_append]
        exact ⟨hc, hplace, trivial, trivial⟩
    · have hsteps : steps ⟨ups, above.concat name⟩ = steps ⟨ups, above⟩ ++ [.down name] := by
        simp [steps]
      rw [hsteps, passable_append] at hc
      have hshorter : extend absolute ⟨ups, above.concat name⟩ .up = ⟨ups, above⟩ := by
        simp [extend]
      rw [hshorter]
      exact hc.1

/-- A course can be walked if the steps can from which it is run. -/
lemma passable_run (h : c.Fits absolute start) (hc : fs.Passable start c.steps)
    (hsteps : fs.Passable (c.steps.foldl Step.move start) steps) :
    fs.Passable start (c.run absolute steps).steps := by
  induction steps generalizing c with
  | nil => exact hc
  | cons step steps ih =>
    obtain ⟨hplace, hstep, hrest⟩ := hsteps
    refine ih (h.extend step) (passable_extend hc hplace hstep) ?_
    rwa [foldl_move_extend h]

/-! ### Folding -/

lemma foldStep_folded {s : List Char} {component : Component} (hs : Path.step? s = some component)
    (c : Course) :
    Path.foldStep (c.folded absolute) component =
      (c.extend absolute (Step.ofSegment s)).folded absolute := by
  obtain ⟨ups, names⟩ := c
  rcases step?_eq_cases s with ⟨hstep, -⟩ | ⟨hstep, hmove⟩ | ⟨hstep, hmove⟩
  · simp [hs] at hstep
  · obtain rfl := Option.some.inj (hs.symm.trans hstep)
    rw [hmove]
    rcases List.eq_nil_or_concat names with rfl | ⟨above, name, rfl⟩
    · cases absolute with
      | true => rfl
      | false => cases ups <;> simp [folded, extend, List.replicate_succ, Path.foldStep]
    · simp [folded, extend, Path.foldStep]
  · obtain rfl := Option.some.inj (hs.symm.trans hstep)
    rw [hmove]
    simp [folded, extend, Path.foldStep]

/-- Folding the steps of segments runs a course. -/
lemma foldl_foldStep_folded (segments : List (List Char)) (c : Course) :
    (segments.filterMap Path.step?).foldl Path.foldStep (c.folded absolute) =
      (c.run absolute (segments.map Step.ofSegment)).folded absolute := by
  induction segments generalizing c with
  | nil => rfl
  | cons s segments ih =>
    rw [List.map_cons, run, List.foldl_cons]
    cases hs : Path.step? s with
    | none =>
      have hmove : Step.ofSegment s = .stay := by
        rcases step?_eq_cases s with ⟨-, hmove⟩ | ⟨hstep, -⟩ | ⟨hstep, -⟩
        · exact hmove
        · simp [hs] at hstep
        · simp [hs] at hstep
      rw [List.filterMap_cons_none hs, hmove]
      exact ih c
    | some component =>
      rw [List.filterMap_cons_some hs, List.foldl_cons, foldStep_folded hs]
      exact ih _

/-- The folded steps in their order. -/
lemma reverse_folded (c : Course) :
    (c.folded absolute).reverse =
      (if absolute then [.root] else List.replicate c.ups .parent) ++ c.names.map .name := by
  rw [folded, List.reverse_append, ← List.map_reverse, List.reverse_reverse]
  cases absolute <;> simp

lemma ofComponents_folded (h : c.Fits absolute start) :
    Path.ofComponents (c.folded absolute).reverse = c.path absolute := by
  obtain ⟨ups, names⟩ := c
  have hnames : (names.map Component.name).filterMap Path.segmentOf? = names := by
    rw [List.filterMap_map]
    exact List.filterMap_some
  rw [reverse_folded, Path.ofComponents, List.filterMap_append, hnames]
  cases absolute with
  | true =>
    obtain ⟨-, rfl⟩ := h rfl
    rfl
  | false =>
    have hups (n : Nat) : (List.replicate n Component.parent).filterMap Path.segmentOf? =
        List.replicate n ['.', '.'] := by
      induction n with
      | zero => rfl
      | succ n ih => simp [List.replicate_succ, Path.segmentOf?, ih]
    have hhead : (List.replicate ups Component.parent ++ names.map Component.name).head? ≠
        some .root := by
      cases ups <;> cases names <;> simp [List.replicate_succ]
    rw [if_neg Bool.false_ne_true, decide_eq_false hhead, hups]
    rfl

end Course

/-! ### The course of a path -/

namespace Path

def course (p : Path) : Course := Course.stay.run p.absolute p.steps

/-- Where a path starts that is seen from a place. -/
def startFrom (start : Location) (p : Path) : Location := if p.absolute then [] else start

/-- Where a path leads from a place, whatever is there. -/
def landingFrom (start : Location) (p : Path) : Location :=
  p.steps.foldl Step.move (p.startFrom start)

variable {p : Path}

lemma fits_stay (p : Path) (start : Location) :
    Course.stay.Fits p.absolute (p.startFrom start) :=
  fun habsolute => ⟨if_pos habsolute, rfl⟩

lemma fits_course (p : Path) (start : Location) : p.course.Fits p.absolute (p.startFrom start) :=
  (p.fits_stay start).run p.steps

/-- The names of a course are segments of the path, and steps to names. -/
lemma mem_course {s : List Char} (h : s ∈ p.course.names) :
    s ∈ p.segments ∧ step? s = some (.name s) := by
  rcases Course.mem_names_run h with h | h
  · simp [Course.stay] at h
  · obtain ⟨t, htmem, ht⟩ := List.mem_map.1 h
    rcases step?_eq_cases t with ⟨-, hmove⟩ | ⟨-, hmove⟩ | ⟨hstep, hmove⟩
    · simp [hmove] at ht
    · simp [hmove] at ht
    · obtain rfl := Step.down.inj (hmove.symm.trans ht)
      exact ⟨htmem, hstep⟩

/-- Folding the dots of a path gives the path that takes its course. -/
lemma normalize_eq (p : Path) : p.normalize = p.course.path p.absolute := by
  rw [← Course.ofComponents_folded (fits_course p []), normalize]
  congr 2
  have hfold : (p.segments.filterMap step?).foldl foldStep (Course.stay.folded p.absolute) = _ :=
    Course.foldl_foldStep_folded p.segments .stay
  rw [course, steps, ← hfold, components]
  cases habsolute : p.absolute with
  | true => rfl
  | false =>
    rw [if_neg Bool.false_ne_true]
    split <;> rfl

/-- The steps of the folded path are those of the course. -/
lemma steps_normalize (p : Path) : p.normalize.steps = p.course.steps := by
  have hnames : p.course.names.map Step.ofSegment = p.course.names.map .down :=
    List.map_congr_left fun s hs => ofSegment_eq_down (mem_course hs).2
  rw [normalize_eq, steps, Course.path, List.map_append, hnames, List.map_replicate]
  rfl

lemma absolute_normalize (p : Path) : p.normalize.absolute = p.absolute := by
  rw [normalize_eq, Course.path]

lemma startFrom_normalize (start : Location) (p : Path) :
    p.normalize.startFrom start = p.startFrom start := by
  rw [startFrom, absolute_normalize, startFrom]

/-- The folded path leads where the path leads. -/
lemma landingFrom_normalize (start : Location) (p : Path) :
    p.normalize.landingFrom start = p.landingFrom start := by
  rw [landingFrom, steps_normalize, startFrom_normalize, course]
  exact Course.foldl_move_run (p.fits_stay start) p.steps

/-- The steps of the folded path: to the root or so many to parents, and then to names. -/
lemma components_normalize (p : Path) :
    p.normalize.components =
      (if p.absolute then [.root] else List.replicate p.course.ups .parent) ++
        p.course.names.map .name := by
  have hnames : p.course.names.filterMap step? = p.course.names.map .name := by
    rw [← List.filterMap_eq_map]
    exact List.filterMap_congr fun s hs => (mem_course hs).2
  have hups (n : Nat) : (List.replicate n ['.', '.']).filterMap step? =
      List.replicate n .parent := by
    induction n with
    | zero => rfl
    | succ n ih => simp [List.replicate_succ, step?, ih]
  have hsegments : p.normalize.segments.filterMap step? =
      List.replicate p.course.ups .parent ++ p.course.names.map .name := by
    rw [normalize_eq, Course.path, List.filterMap_append, hups, hnames]
  rw [components, hsegments, absolute_normalize]
  cases habsolute : p.absolute with
  | true =>
    rw [((fits_course p []) habsolute).2]
    rfl
  | false =>
    -- a dot in front would be a component, but folding leaves none
    have hhead : p.normalize.segments.head? ≠ some ['.'] := by
      rw [normalize_eq, Course.path]
      cases p.course.ups with
      | zero =>
        intro hhead
        have hdot := mem_course (p := p) (List.mem_of_mem_head? hhead)
        simp [step?] at hdot
      | succ n => simp [List.replicate_succ]
    simp [hhead]

/-- Folding again changes nothing. -/
lemma normalize_normalize (p : Path) : p.normalize.normalize = p.normalize := by
  have hcourse : p.normalize.course = p.course := by
    rw [course, steps_normalize, absolute_normalize, Course.run_steps (fits_course p [])]
  rw [normalize_eq p.normalize, hcourse, absolute_normalize, normalize_eq]

end Path

namespace Files

/-- A walk along a path that succeeds without links succeeds along the folded path, and ends at the
same place. -/
lemma walk_normalize {fs : Files} (h : fs.LinkFree) {p : Path} {start q : Location}
    {followLast : Bool} {links : Nat}
    (hwalk : fs.walk followLast links (p.startFrom start) p.steps = .ok q) :
    fs.walk followLast links (p.normalize.startFrom start) p.normalize.steps = .ok q := by
  obtain ⟨hpass, rfl⟩ := (walk_eq_ok_iff h).1 hwalk
  have hfits := p.fits_stay start
  rw [walk_eq_ok_iff h, Path.startFrom_normalize, Path.steps_normalize]
  exact ⟨Course.passable_run hfits trivial hpass, (Course.foldl_move_run hfits p.steps).symm⟩

end Files

end TwoStage
