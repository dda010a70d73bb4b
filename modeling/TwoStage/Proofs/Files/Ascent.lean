import Mathlib.Data.List.Chain
import TwoStage.Proofs.Files.Below
import TwoStage.Proofs.Files.Growth

/-!
# Paths above a path

Dropping the last step of a path goes to the place from which that step was taken. That is the
directory above if the step is one down to a name, but one below if the step is one to the parent.
So the paths above a path pass from place to place by one level at a time, up to the root, and do
not go down as long as no step leads up.
-/

namespace TwoStage

open TwoStage.Path

/-! ### Dropping steps -/

namespace Path

variable {p q : Path}

/-- Dropping idle segments leaves none at the end, but drops no others. -/
lemma exists_dropIdle_append (ss : List (List Char)) :
    ∃ idle, ss = dropIdle ss ++ idle ∧ ∀ s ∈ idle, isIdle s = true := by
  refine ⟨(ss.reverse.takeWhile isIdle).reverse, ?_, fun s hs => ?_⟩
  · rw [dropIdle, ← List.reverse_append, List.takeWhile_append_dropWhile, List.reverse_reverse]
  · exact List.mem_takeWhile_imp (List.mem_reverse.1 hs)

lemma exists_of_dropIdle {ss before : List (List Char)} {s : List Char}
    (h : (dropIdle ss).reverse = s :: before) :
    ∃ idle after, ss = dropIdle before.reverse ++ (idle ++ s :: after) ∧
      (∀ t ∈ idle, isIdle t = true) ∧ ∀ t ∈ after, isIdle t = true := by
  obtain ⟨after, hss, hafter⟩ := exists_dropIdle_append ss
  obtain ⟨idle, hbefore, hidle⟩ := exists_dropIdle_append before.reverse
  refine ⟨idle, after, ?_, hidle, hafter⟩
  rw [List.reverse_eq_cons_iff.1 h, hbefore] at hss
  simpa using hss

/-- A path without its last step keeps the segments in front of it but those that take no part, and
so do those behind it. -/
lemma exists_of_parent? (h : p.parent? = some q) :
    q.absolute = p.absolute ∧ ∃ idle s after, p.segments = q.segments ++ (idle ++ s :: after) ∧
        (∀ t ∈ idle, isIdle t = true) ∧ ∀ t ∈ after, isIdle t = true := by
  obtain ⟨absolute, segments⟩ := p
  -- a dot in front of a relative path stays until nothing else is left
  by_cases hdot : absolute = false ∧ segments.head? = some ['.']
  · obtain ⟨rfl, hhead⟩ := hdot
    obtain ⟨rest, rfl⟩ := List.head?_eq_some_iff.1 hhead
    simp only [parent?, hhead, Bool.not_false, decide_true, Bool.and_self, if_pos, List.drop_one,
      List.tail_cons, List.cons_ne_nil, if_false] at h
    split at h
    next s before hlast =>
      obtain rfl := Option.some.inj h
      obtain ⟨idle, after, hrest, hidle, hafter⟩ := exists_of_dropIdle hlast
      exact ⟨rfl, idle, s, after, by simpa using hrest, hidle, hafter⟩
    next hlast =>
      obtain rfl := Option.some.inj h
      obtain ⟨after, hrest, hafter⟩ := exists_dropIdle_append rest
      rw [List.reverse_eq_nil_iff.1 hlast, List.nil_append] at hrest
      exact ⟨rfl, [], ['.'], rest, rfl, List.forall_mem_nil _, hrest ▸ hafter⟩
  · have hfirst : (!absolute && decide (segments.head? = some ['.'])) = false := by
      simpa using hdot
    simp only [parent?, hfirst, Bool.false_eq_true, if_false, List.nil_append, if_true] at h
    split at h
    next s before hlast =>
      obtain rfl := Option.some.inj h
      obtain ⟨idle, after, hrest, hidle, hafter⟩ := exists_of_dropIdle hlast
      exact ⟨rfl, idle, s, after, hrest, hidle, hafter⟩
    next => simp at h

lemma isIdle_of_parent?_eq_none (h : p.parent? = none) : ∀ s ∈ p.segments, isIdle s = true := by
  obtain ⟨absolute, segments⟩ := p
  by_cases hdot : absolute = false ∧ segments.head? = some ['.']
  · simp only [parent?, hdot.1, hdot.2, Bool.not_false, decide_true, Bool.and_self, if_pos,
      List.cons_ne_nil, if_false] at h
    split at h <;> simp at h
  · have hfirst : (!absolute && decide (segments.head? = some ['.'])) = false := by
      simpa using hdot
    simp only [parent?, hfirst, Bool.false_eq_true, if_false, List.nil_append, if_true] at h
    split at h
    next => simp at h
    next hlast =>
      obtain ⟨idle, hrest, hidle⟩ := exists_dropIdle_append segments
      rw [List.reverse_eq_nil_iff.1 hlast, List.nil_append] at hrest
      exact hrest ▸ hidle

lemma ofSegment_of_isIdle {s : List Char} (h : isIdle s = true) : Step.ofSegment s = .stay := by
  obtain rfl | rfl : s = [] ∨ s = ['.'] := by simpa [isIdle] using h
  · rfl
  · rfl

lemma foldl_move_of_isIdle {ss : List (List Char)} (h : ∀ s ∈ ss, isIdle s = true)
    (place : Location) : (ss.map Step.ofSegment).foldl Step.move place = place := by
  induction ss with
  | nil => rfl
  | cons s ss ih =>
    rw [List.forall_mem_cons] at h
    rw [List.map_cons, List.foldl_cons, ofSegment_of_isIdle h.1]
    exact ih h.2

lemma joinSegments_concat (front : List (List Char)) (s : List Char) :
    joinSegments (front ++ [s]) = front.flatMap (· ++ ['/']) ++ s := by
  induction front with
  | nil => rfl
  | cons t front ih =>
    obtain ⟨u, us, hus⟩ := List.exists_cons_of_ne_nil (l := front ++ [s]) (by simp)
    rw [List.cons_append, hus, joinSegments, ← hus, ih]
    simp

lemma IsParted.of_parent? (hp : p.IsParted) (h : p.parent? = some q) : q.IsParted := by
  obtain ⟨-, idle, s, after, hsegments, -, -⟩ := exists_of_parent? h
  exact fun t ht => hp t (hsegments ▸ List.mem_append_left _ ht)

end Path

/-! ### Places above a path -/

namespace Files

variable {fs : Files} {p q : Path}

/-- A path leads to one step from where it leads without its last step. -/
lemma landing_of_parent? (fs : Files) (h : p.parent? = some q) :
    ∃ step ∈ p.steps, fs.landing p = step.move (fs.landing q) := by
  obtain ⟨habsolute, idle, s, after, hsegments, hidle, hafter⟩ := exists_of_parent? h
  refine ⟨Step.ofSegment s, List.mem_map_of_mem (by simp [hsegments]), ?_⟩
  have hstart : fs.start q = fs.start p := by rw [start, start, habsolute]
  rw [landing, landing, steps, steps, hsegments, hstart]
  simp only [List.map_append, List.map_cons, List.foldl_append, List.foldl_cons,
    foldl_move_of_isIdle hidle, foldl_move_of_isIdle hafter]

/-- The steps of the path can be taken, and lead to a directory. -/
structure Enters (fs : Files) (p : Path) : Prop where
  passable : fs.Passable (fs.start p) p.steps
  directory : fs.IsDirectory (fs.landing p)

lemma Enters.of_parent? (hp : fs.Enters p) (h : p.parent? = some q) : fs.Enters q := by
  obtain ⟨habsolute, idle, s, after, hsegments, -, -⟩ := exists_of_parent? h
  have hpass := hp.passable
  have hstart : fs.start q = fs.start p := by rw [start, start, habsolute]
  rw [steps, hsegments, List.map_append, passable_append, ← hstart] at hpass
  obtain ⟨hfirst, hrest⟩ := hpass
  refine ⟨hfirst, ?_⟩
  -- there is a step behind the path, and it starts from a directory
  cases idle with
  | nil => exact hrest.1
  | cons t idle => exact hrest.1

/-- A name behind a path that leads to a directory leads to what has the name there. -/
lemma Enters.find_child_eq_ok_iff (hlinks : fs.LinkFree) (hp : fs.Enters p) (hparted : p.IsParted)
    {name : String} (hname : IsName name) {place : Location} {node : FileNode} :
    fs.find (p.child name) = .ok (place, node) ↔ checkPath (p.child name) = .ok () ∧
      checkName name.toList = .ok () ∧ place = fs.landing p ++ [name.toList] ∧
        fs.node? place = some node := by
  obtain ⟨front, hsegments, hchild⟩ := hparted.exists_child_eq
  have hstart : fs.start (p.child name) = fs.start p := by rw [start, start, hchild name hname]
  have hsteps : (p.child name).steps = front.map Step.ofSegment ++ [.down name.toList] := by
    rw [steps, hchild name hname, List.map_append, List.map_singleton, ofSegment_eq_down hname.step]
  obtain ⟨hpass, hplace⟩ : fs.Passable (fs.start p) (front.map Step.ofSegment) ∧
      fs.landing p = (front.map Step.ofSegment).foldl Step.move (fs.start p) := by
    have hpass := hp.passable
    rw [landing]
    rcases hsegments with hsegments | hsegments
    · rw [steps, hsegments] at hpass ⊢
      exact ⟨hpass, rfl⟩
    · rw [steps, hsegments, List.map_append] at hpass ⊢
      exact ⟨(passable_append.1 hpass).1, List.foldl_append⟩
  have hlanding : fs.landing (p.child name) = fs.landing p ++ [name.toList] := by
    rw [landing, hsteps, hstart, List.foldl_append, ← hplace]
    rfl
  have hdirectory := hp.directory
  rw [find_eq_ok_iff hlinks, hsteps, hstart, passable_append, ← hplace, hlanding]
  simp only [Passable, Step.IsShort, hpass, hdirectory, true_and, and_true]

/-! ### Lengths of paths -/

lemma checkPath_eq_ok_iff : checkPath p = .ok () ↔ '\x00' ∉ p.toChars ∧
    (p.absolute = true ∨ p.segments ≠ []) ∧ p.text.utf8ByteSize ≤ maxPathSize := by
  unfold checkPath checkBytes
  by_cases hzero : '\x00' ∈ p.toChars
  · simp [hzero, bind, Except.bind]
  · by_cases hempty : p.absolute = false ∧ p.segments = []
    · simp [hzero, hempty, bind, Except.bind, throw, throwThe, MonadExceptOf.throw]
    · have hnonempty : p.absolute = true ∨ p.segments ≠ [] := by
        rw [not_and_or, Bool.not_eq_false] at hempty
        exact hempty
      by_cases hsize : maxPathSize < p.text.utf8ByteSize
      · simp [hzero, hempty, hsize, bind, Except.bind, throw, throwThe, MonadExceptOf.throw]
      · simp [hzero, hempty, hsize, hnonempty, bind, Except.bind, pure, Except.pure,
          Nat.le_of_not_lt hsize]

/-- A name behind a path can be looked up if it can behind the path and a further step. -/
lemma checkPath_child_of_parent? (hp : p.IsParted) (h : p.parent? = some q) {name : String}
    (hname : IsName name) (hcheck : checkPath (p.child name) = .ok ()) :
    checkPath (q.child name) = .ok () := by
  obtain ⟨habsolute, idle, s, after, hsegments, -, -⟩ := exists_of_parent? h
  obtain ⟨front, hfront, hchild⟩ := hp.exists_child_eq
  obtain ⟨front', hfront', hchild'⟩ := (hp.of_parent? h).exists_child_eq
  -- less stands in front of the name than before, so the path is shorter
  obtain ⟨more, rfl⟩ : front' <+: front := by
    have hbefore : q.segments <+: front := by
      rcases hfront with heq | heq
      · exact ⟨_, hsegments.symm.trans heq⟩
      · refine (List.prefix_concat_iff.1 ⟨_, hsegments.symm.trans heq⟩).resolve_left fun hall => ?_
        simp [hall, heq] at hsegments
    rcases hfront' with heq | heq
    · exact heq ▸ hbefore
    · exact (heq ▸ List.prefix_append front' [[]]).trans hbefore
  have hchars : (p.child name).toChars = (if p.absolute then ['/'] else []) ++
      (front'.flatMap (· ++ ['/']) ++ more.flatMap (· ++ ['/']) ++ name.toList) := by
    rw [hchild name hname, toChars, joinSegments_concat, List.flatMap_append]
  have hchars' : (q.child name).toChars = (if p.absolute then ['/'] else []) ++
      (front'.flatMap (· ++ ['/']) ++ name.toList) := by
    rw [hchild' name hname, toChars, joinSegments_concat, habsolute]
  rw [checkPath_eq_ok_iff, text, hchars] at hcheck
  rw [checkPath_eq_ok_iff, text, hchars']
  obtain ⟨hzero, -, hsize⟩ := hcheck
  refine ⟨fun hmem => hzero ?_, .inr ?_, ?_⟩
  · simp only [List.mem_append] at hmem ⊢
    tauto
  · rw [hchild' name hname]
    simp
  · simp only [String.ofList_append, String.utf8ByteSize_append] at hsize ⊢
    omega

end Files

/-! ### The way up -/

/-- What dropping the last step of a path keeps holds of all paths above a path. -/
lemma Path.forall_mem_ancestorsFrom {P : Path → Prop} (n : Nat) {p : Path} (hp : P p)
    (hstep : ∀ p q, P p → p.parent? = some q → P q) : ∀ q ∈ ancestorsFrom n p, P q := by
  induction n generalizing p with
  | zero => simpa [ancestorsFrom] using hp
  | succ n ih =>
    unfold ancestorsFrom
    split
    next q hparent => exact List.forall_mem_cons.2 ⟨hp, ih (hstep p q hp hparent)⟩
    next => simpa using hp

lemma Path.forall_mem_ancestors {P : Path → Prop} {p : Path} (hp : P p)
    (hstep : ∀ p q, P p → p.parent? = some q → P q) : ∀ q ∈ p.ancestors, P q :=
  forall_mem_ancestorsFrom _ hp hstep

lemma Path.exists_ancestorsFrom_eq (n : Nat) (p : Path) :
    ∃ above, ancestorsFrom n p = p :: above := by
  cases n with
  | zero => exact ⟨[], rfl⟩
  | succ n =>
    unfold ancestorsFrom
    split
    next q _ => exact ⟨_, rfl⟩
    next => exact ⟨[], rfl⟩

namespace Files

variable {fs : Files} {p : Path} {steps : List Step} {L : List Location} {place top : Location}

/-- Places one step apart, of which each is where a step from the next one leads. -/
def Backwards (steps : List Step) : List Location → Prop :=
  List.IsChain fun a b => ∃ step ∈ steps, a = step.move b

/-- The paths above a path lead from place to place by the steps of the path, backwards. -/
lemma backwards_ancestorsFrom (n : Nat) (h : p.steps ⊆ steps) :
    Backwards steps ((ancestorsFrom n p).map fs.landing) := by
  induction n generalizing p with
  | zero => exact List.isChain_singleton _
  | succ n ih =>
    unfold ancestorsFrom
    split
    next q hparent =>
      have hq : q.steps ⊆ steps := by
        obtain ⟨-, idle, s, after, hsegments, -, -⟩ := exists_of_parent? hparent
        refine fun step hstep => h ?_
        rw [Path.steps, hsegments, List.map_append]
        exact List.mem_append_left _ hstep
      obtain ⟨above, habove⟩ := exists_ancestorsFrom_eq n q
      obtain ⟨step, hstep, hmove⟩ := landing_of_parent? fs hparent
      have hrest := ih hq
      rw [habove] at hrest ⊢
      exact List.isChain_cons_cons.2 ⟨⟨step, h hstep, hmove⟩, hrest⟩
    next => exact List.isChain_singleton _

lemma backwards_ancestors (fs : Files) (p : Path) :
    Backwards p.steps (p.ancestors.map fs.landing) :=
  backwards_ancestorsFrom _ (List.Subset.refl _)

lemma head?_landing_ancestors (fs : Files) (p : Path) :
    (p.ancestors.map fs.landing).head? = some (fs.landing p) := by
  obtain ⟨above, habove⟩ := exists_ancestorsFrom_eq p.segments.length p
  rw [ancestors, habove]
  rfl

/-- The paths above a path from the root go up to the root. -/
lemma nil_mem_landing_ancestors (fs : Files) (hp : p.absolute = true) :
    [] ∈ p.ancestors.map fs.landing := by
  have hidle {q : Path} (hq : q.absolute = true) (hall : ∀ s ∈ q.segments, isIdle s = true) :
      fs.landing q = [] := by
    rw [landing, start, if_pos hq, Path.steps]
    exact foldl_move_of_isIdle hall []
  rw [ancestors]
  -- each parent has fewer segments, and the last one has idle segments only
  generalize hn : p.segments.length = n
  replace hn := hn.le
  induction n generalizing p with
  | zero =>
    have hnil := List.length_eq_zero_iff.1 (Nat.le_zero.1 hn)
    simp [ancestorsFrom, hidle hp (by simp [hnil])]
  | succ n ih =>
    unfold ancestorsFrom
    split
    next q hparent =>
      obtain ⟨habsolute, idle, s, after, hsegments, -, -⟩ := exists_of_parent? hparent
      have hlength : q.segments.length ≤ n := by
        rw [hsegments] at hn
        simp only [List.length_append, List.length_cons] at hn
        omega
      exact List.mem_cons_of_mem _ (ih (habsolute.trans hp) hlength)
    next hparent =>
      simp [hidle hp (isIdle_of_parent?_eq_none hparent)]

/-- A place above the first one that the way up has not come by is above all that it has. -/
lemma Backwards.prefix_of_notMem (h : Backwards steps L) (hhead : L.head? = some place)
    (htop : top <+: place) (hmem : top ∉ L) : ∀ q ∈ L, top <+: q := by
  induction L generalizing place with
  | nil => simp
  | cons a L ih =>
    obtain rfl : a = place := Option.some.inj hhead
    rw [List.mem_cons, not_or] at hmem
    refine List.forall_mem_cons.2 ⟨htop, ?_⟩
    cases L with
    | nil => simp
    | cons b L =>
      obtain ⟨⟨step, -, rfl⟩, hrest⟩ := List.isChain_cons_cons.1 h
      refine ih hrest rfl ?_ hmem.2
      cases step with
      | stay => exact htop
      | up => exact htop.trans (List.dropLast_prefix b)
      | down name => exact (List.prefix_concat_iff.1 htop).resolve_left hmem.1

/-- Without steps to parents, the way up does not go down. -/
lemma Backwards.prefix_of_up_notMem (h : Backwards steps L) (hhead : L.head? = some place)
    (hup : .up ∉ steps) : ∀ q ∈ L, q <+: place := by
  induction L generalizing place with
  | nil => simp
  | cons a L ih =>
    obtain rfl : a = place := Option.some.inj hhead
    refine List.forall_mem_cons.2 ⟨List.prefix_rfl, ?_⟩
    cases L with
    | nil => simp
    | cons b L =>
      obtain ⟨⟨step, hstep, rfl⟩, hrest⟩ := List.isChain_cons_cons.1 h
      have habove : b <+: step.move b := by
        cases step with
        | stay => exact List.prefix_rfl
        | up => exact absurd hstep hup
        | down name => exact List.prefix_append _ _
      exact fun q hq => (ih hrest rfl q hq).trans habove

end Files

end TwoStage
