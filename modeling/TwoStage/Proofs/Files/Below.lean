import TwoStage.Proofs.Files.Walk
import TwoStage.Proofs.Path

/-!
# Paths below a directory

A path that goes down by names, seen from an absolute path without dots, leads below where that
leads. What is put behind one of them stands behind all of its segments.
-/

namespace TwoStage

/-! ### Paths that go down -/

/-- The path goes down by names from where it is seen. -/
structure Path.GoesDown (p : Path) : Prop where
  relative : p.absolute = false
  ne_nil : p.segments ≠ []
  names : ∀ s ∈ p.segments, step? s = some (.name s)

namespace Path.GoesDown

variable {p q root : Path}

lemma ofNames {names : List String} (hne : names ≠ []) (h : ∀ n ∈ names, IsName n) :
    (ofNames names).GoesDown := by
  refine ⟨rfl, by simpa [Path.ofNames] using hne, fun s hs => ?_⟩
  obtain ⟨n, hn, rfl⟩ := List.mem_map.1 hs
  exact (h n hn).step

lemma components_eq (h : p.GoesDown) : p.components = p.segments.map .name := by
  have hsteps : p.segments.filterMap step? = p.segments.map .name := by
    rw [← List.filterMap_eq_map]
    exact List.filterMap_congr h.names
  have hhead : p.segments.head? ≠ some ['.'] := fun hhead => by
    simpa [step?] using h.names _ (List.mem_of_mem_head? hhead)
  rw [components, h.relative, if_neg Bool.false_ne_true, if_neg hhead, hsteps]

lemma eq_iff (hp : p.GoesDown) (hq : q.GoesDown) : p = q ↔ p.segments = q.segments := by
  obtain ⟨absolute, segments⟩ := p
  obtain ⟨absolute', segments'⟩ := q
  obtain rfl : absolute = false := hp.relative
  obtain rfl : absolute' = false := hq.relative
  simp

/-- Paths that go down are the same only if they are equal. -/
lemma same_iff (hp : p.GoesDown) (hq : q.GoesDown) : p.same q = true ↔ p = q := by
  rw [same, hp.components_eq, hq.components_eq, beq_iff_eq,
    List.map_inj_right fun _ _ h => Component.name.inj h, hp.eq_iff hq]

lemma foldl_move (h : ∀ s ∈ p.segments, step? s = some (.name s)) (place : Location) :
    p.steps.foldl Step.move place = place ++ p.segments := by
  obtain ⟨absolute, segments⟩ := p
  dsimp only [steps] at h ⊢
  induction segments generalizing place with
  | nil => simp
  | cons s segments ih =>
    rw [List.forall_mem_cons] at h
    rw [List.map_cons, List.foldl_cons, Files.ofSegment_eq_down h.1]
    exact (ih (place ++ [s]) h.2).trans (by simp)

end Path.GoesDown

namespace Path.IsParted

variable {root p : Path}

/-- What is put behind a path comes behind all of its segments, or in the place of an empty one at
its end. -/
lemma exists_join_eq (h : root.IsParted) :
    ∃ front, (root.segments = front ∨ root.segments = front ++ [[]]) ∧
      ∀ p : Path, p.GoesDown → root.join p = ⟨root.absolute, front ++ p.segments⟩ := by
  by_cases hempty : root.toChars = []
  · obtain ⟨absolute, segments⟩ := root
    obtain ⟨rfl, hsegments⟩ : absolute = false ∧ (segments = [] ∨ segments = [] ++ [[]]) := by
      rcases segments with - | ⟨s, - | ⟨t, ss⟩⟩ <;> cases absolute <;>
        simp_all [toChars, joinSegments]
    refine ⟨[], hsegments, fun p hp => ?_⟩
    rw [Path.join, hp.relative, if_neg Bool.false_ne_true, if_pos hempty, List.nil_append,
      ← hp.relative]
  · obtain ⟨front, hfront, hsegments⟩ := h.exists_front
    refine ⟨front, hsegments, fun p hp => ?_⟩
    rw [Path.join, hp.relative, if_neg Bool.false_ne_true, if_neg hempty]
    simp [hp.ne_nil, hfront]

/-- A path that goes down, seen from a path, leads below where that leads. -/
lemma landing_join (h : root.IsParted) (fs : Files) (hp : p.GoesDown) :
    fs.landing (root.join p) = fs.landing root ++ p.segments := by
  obtain ⟨front, hsegments, hjoin⟩ := h.exists_join_eq
  have hroot : fs.landing root = (front.map Step.ofSegment).foldl Step.move (fs.start root) := by
    rw [Files.landing, steps]
    rcases hsegments with hsegments | hsegments
    · rw [hsegments]
    · rw [hsegments, List.map_append, List.foldl_append]
      rfl
  have hstart : fs.start (root.join p) = fs.start root := by
    rw [Files.start, Files.start, hjoin p hp]
  rw [hroot, Files.landing, hstart, hjoin p hp, steps, List.map_append, List.foldl_append]
  exact GoesDown.foldl_move hp.names _

end Path.IsParted

/-- The path is absolute, and no segment of it is a dot or two. -/
structure Path.IsPlain (p : Path) : Prop where
  absolute : p.absolute = true
  segments : ∀ s ∈ p.segments, '/' ∉ s ∧ s ≠ ['.'] ∧ s ≠ ['.', '.']

namespace Path.IsPlain

variable {root p : Path}

lemma isParted (h : root.IsPlain) : root.IsParted := fun s hs => (h.segments s hs).1

/-- A path that goes down, seen from the path. -/
lemma exists_join_eq (h : root.IsPlain) :
    ∃ front, (root.segments = front ∨ root.segments = front ++ [[]]) ∧
      ∀ p : Path, p.GoesDown → root.join p = ⟨true, front ++ p.segments⟩ := by
  obtain ⟨front, hsegments, hjoin⟩ := h.isParted.exists_join_eq
  exact ⟨front, hsegments, fun p hp => h.absolute ▸ hjoin p hp⟩

lemma landing_join (h : root.IsPlain) (fs : Files) (hp : p.GoesDown) :
    fs.landing (root.join p) = fs.landing root ++ p.segments := h.isParted.landing_join fs hp

/-- It does not matter from where a name at the end is seen. -/
lemma join_child (h : root.IsPlain) {names : List String} {name : String} (hne : names ≠ [])
    (hnames : ∀ n ∈ names, IsName n) (hname : IsName name) :
    (root.join (ofNames names)).child name = root.join ((ofNames names).child name) := by
  have hall : ∀ n ∈ names ++ [name], IsName n :=
    List.forall_mem_append.2 ⟨hnames, by simpa using hname⟩
  obtain ⟨front, -, hjoin⟩ := h.exists_join_eq
  rw [child_ofNames hne hnames hname, hjoin _ (.ofNames hne hnames),
    hjoin _ (.ofNames (by simp) hall)]
  obtain ⟨before, n, rfl⟩ := (List.eq_nil_or_concat names).resolve_left hne
  rw [List.concat_eq_append] at hnames ⊢
  have hn := hnames n (by simp)
  have hends : endsOpen ⟨true, front ++ (ofNames (before ++ [n])).segments⟩ = false := by
    rw [ofNames, List.map_append, ← List.append_assoc]
    exact endsOpen_concat hn.ne_nil hn.noSlash
  rw [child_eq hends hname]
  simp [ofNames]

end Path.IsPlain

end TwoStage
