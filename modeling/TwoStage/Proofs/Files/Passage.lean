import TwoStage.Proofs.Files.Ascent
import TwoStage.Proofs.Files.Links

/-!
# Walks that follow no link

A walk goes on from a link only if the link leads to a directory. So if no link on the way does, a
walk that ends in a directory passes from directory to directory, and ends where its steps lead by
themselves. A link that leads to nothing can come to lead to a directory when directories are made,
but only if it does so in the tree in which all of them have been made.
-/

namespace TwoStage.Files

variable {fs fs' : Files} {place q : Location} {steps steps' : List Step} {name : List Char}
  {p : Path} {jump jump' : Location → List Step → Except FileError Location}

/-! ### Taking walks apart -/

lemma walkWith_mono
    (hjump : ∀ {place steps q}, jump place steps = .ok q → jump' place steps = .ok q)
    (h : fs.walkWith true jump place steps = .ok q) :
    fs.walkWith true jump' place steps = .ok q := by
  induction steps generalizing place with
  | nil => exact h
  | cons step steps ih =>
    cases step with
    | stay => exact walkWith_stay_iff.2 ((walkWith_stay_iff.1 h).imp_right ih)
    | up => exact walkWith_up_iff.2 ((walkWith_up_iff.1 h).imp_right ih)
    | down name =>
      obtain ⟨hplace, hname, hnext⟩ := walkWith_down_iff.1 h
      refine walkWith_down_iff.2 ⟨hplace, hname, hnext.imp ?_ (And.imp_right ih)⟩
      exact fun ⟨target, hlink, hrest⟩ => ⟨target, hlink, hjump hrest⟩

/-- Where fewer links may be followed nothing else is found. -/
lemma walk_mono {links links' : Nat} (hle : links ≤ links')
    (h : fs.walk true links place steps = .ok q) : fs.walk true links' place steps = .ok q := by
  induction links' generalizing links place steps q with
  | zero => exact Nat.le_zero.1 hle ▸ h
  | succ links' ih =>
    cases links with
    | zero => exact walkWith_mono (fun h => by simp at h) h
    | succ links => exact walkWith_mono (ih (Nat.le_of_succ_le_succ hle)) h

lemma exists_of_walkWith_append
    (hjump : ∀ {place steps steps' q}, jump place (steps ++ steps') = .ok q →
      ∃ mid, jump place steps = .ok mid ∧ fs.walkWith true jump mid steps' = .ok q)
    (h : fs.walkWith true jump place (steps ++ steps') = .ok q) :
    ∃ mid, fs.walkWith true jump place steps = .ok mid ∧
      fs.walkWith true jump mid steps' = .ok q := by
  induction steps generalizing place with
  | nil => exact ⟨place, rfl, h⟩
  | cons step steps ih =>
    rw [List.cons_append] at h
    cases step with
    | stay =>
      obtain ⟨hplace, hrest⟩ := walkWith_stay_iff.1 h
      obtain ⟨mid, hfirst, hsecond⟩ := ih hrest
      exact ⟨mid, walkWith_stay_iff.2 ⟨hplace, hfirst⟩, hsecond⟩
    | up =>
      obtain ⟨hplace, hrest⟩ := walkWith_up_iff.1 h
      obtain ⟨mid, hfirst, hsecond⟩ := ih hrest
      exact ⟨mid, walkWith_up_iff.2 ⟨hplace, hfirst⟩, hsecond⟩
    | down name =>
      obtain ⟨hplace, hname, ⟨target, hlink, hrest⟩ | ⟨hlink, hrest⟩⟩ := walkWith_down_iff.1 h
      -- behind a link the steps of its target come first, and `jump` walks all of them
      · rw [← List.append_assoc] at hrest
        obtain ⟨mid, hfirst, hsecond⟩ := hjump hrest
        exact ⟨mid, walkWith_down_iff.2 ⟨hplace, hname, .inl ⟨target, hlink, hfirst⟩⟩, hsecond⟩
      · obtain ⟨mid, hfirst, hsecond⟩ := ih hrest
        exact ⟨mid, walkWith_down_iff.2 ⟨hplace, hname, .inr ⟨hlink, hfirst⟩⟩, hsecond⟩

/-- A walk can be interrupted. -/
lemma exists_of_walk_append {links : Nat}
    (h : fs.walk true links place (steps ++ steps') = .ok q) :
    ∃ mid, fs.walk true links place steps = .ok mid ∧ fs.walk true links mid steps' = .ok q := by
  induction links generalizing place steps steps' q with
  | zero => exact exists_of_walkWith_append (fun h => by simp at h) h
  | succ links ih =>
    refine exists_of_walkWith_append (fun h => ?_) h
    obtain ⟨mid, hfirst, hrest⟩ := ih h
    exact ⟨mid, hfirst, walk_mono (Nat.le_succ links) hrest⟩

/-- A walk that goes on from some steps to a directory has come to one by these steps. -/
lemma exists_directoryAt_of_walk {links : Nat} (hle : links ≤ maxLinks)
    (h : fs.walk true links place (steps ++ steps') = .ok q) (hq : fs.IsDirectory q) :
    ∃ mid, fs.directoryAt place steps = .ok mid := by
  obtain ⟨mid, hfirst, hrest⟩ := exists_of_walk_append h
  refine ⟨mid, directoryAt_eq_ok_iff_walk.2 ⟨walk_mono hle hfirst, ?_⟩⟩
  cases steps' with
  | nil =>
    have heq : mid = q := by cases links <;> exact Except.ok.inj hrest
    exact heq ▸ hq
  | cons step steps' => cases links <;> exact isDirectory_of_walkWith hrest

/-! ### Walks past links -/

/-- No link at the place leads to a directory. -/
def Clear (fs : Files) (place : Location) : Prop :=
  ∀ target q, fs.node? place = some (.link target) →
    fs.directoryAt (origin place.dropLast target) target.steps ≠ .ok q

instance decidableClear (fs : Files) (place : Location) : Decidable (fs.Clear place) :=
  match hnode : fs.node? place with
  | some (.link target) =>
    match hq : fs.directoryAt (origin place.dropLast target) target.steps with
    | .ok q    => .isFalse fun h => h target q hnode hq
    | .error e => .isTrue fun target' q hnode' => by
        obtain rfl := FileNode.link.inj (Option.some.inj (hnode.symm.trans hnode'))
        simp [hq]
  | some (.directory mode)     => .isTrue fun target q h => by simp [hnode] at h
  | some (.file contents mode) => .isTrue fun target q h => by simp [hnode] at h
  | none                       => .isTrue fun target q h => by simp [hnode] at h

/-- No link leads to a directory if none of the entries does. -/
lemma clear_of_forall (h : ∀ e ∈ fs.entries, fs.Clear e.1) (place : Location) : fs.Clear place := by
  intro target q hnode
  exact h _ (mem_entries_of_link hnode) target q hnode

/-- The places that steps pass, from the first to the last. -/
def trail : Location → List Step → List Location
  | place, []            => [place]
  | place, step :: steps => place :: trail (step.move place) steps

lemma mem_trail_self (place : Location) (steps : List Step) : place ∈ trail place steps := by
  cases steps <;> exact List.mem_cons_self

lemma trail_subset_append (place : Location) (steps steps' : List Step) :
    trail place steps ⊆ trail place (steps ++ steps') := by
  induction steps generalizing place with
  | nil =>
    intro q hq
    obtain rfl := List.mem_singleton.1 hq
    exact mem_trail_self _ _
  | cons step steps ih => exact List.cons_subset_cons _ (ih _)

lemma foldl_move_mem_trail (place : Location) (steps : List Step) :
    steps.foldl Step.move place ∈ trail place steps := by
  induction steps generalizing place with
  | nil => exact List.mem_singleton_self _
  | cons step steps ih => exact List.mem_cons_of_mem _ (ih _)

lemma passable_of_walkWith
    (hjump : ∀ {place steps steps' q}, jump place (steps ++ steps') = .ok q → fs.IsDirectory q →
      ∃ mid, fs.directoryAt place steps = .ok mid)
    (hclear : ∀ mid ∈ trail place steps, fs.Clear mid)
    (h : fs.walkWith true jump place steps = .ok q) (hq : fs.IsDirectory q) :
    fs.Passable place steps ∧ q = steps.foldl Step.move place := by
  induction steps generalizing place with
  | nil => exact ⟨trivial, (Except.ok.inj h).symm⟩
  | cons step steps ih =>
    rw [trail, List.forall_mem_cons] at hclear
    rw [Passable, List.foldl_cons]
    cases step with
    | stay =>
      obtain ⟨hplace, hrest⟩ := walkWith_stay_iff.1 h
      obtain ⟨hpass, heq⟩ := ih hclear.2 hrest
      exact ⟨⟨hplace, trivial, hpass⟩, heq⟩
    | up =>
      obtain ⟨hplace, hrest⟩ := walkWith_up_iff.1 h
      obtain ⟨hpass, heq⟩ := ih hclear.2 hrest
      exact ⟨⟨hplace, trivial, hpass⟩, heq⟩
    | down name =>
      obtain ⟨hplace, hname, ⟨target, hlink, hrest⟩ | ⟨-, hrest⟩⟩ := walkWith_down_iff.1 h
      -- no link on the way leads to a directory, so none has been followed
      · obtain ⟨mid, hmid⟩ := hjump hrest hq
        have hnot := hclear.2 (place ++ [name]) (mem_trail_self _ _) target mid hlink
        rw [List.dropLast_concat] at hnot
        exact absurd hmid hnot
      · obtain ⟨hpass, heq⟩ := ih hclear.2 hrest
        exact ⟨⟨hplace, hname, hpass⟩, heq⟩

/-- Where no link on the way leads to a directory, steps that end in one end where they lead by
themselves. -/
lemma passable_of_directoryAt (hclear : ∀ mid ∈ trail place steps, fs.Clear mid)
    (h : fs.directoryAt place steps = .ok q) :
    fs.Passable place steps ∧ q = steps.foldl Step.move place ∧ fs.IsDirectory q := by
  obtain ⟨hwalk, hq⟩ := directoryAt_eq_ok_iff_walk.1 h
  obtain ⟨hpass, heq⟩ := passable_of_walkWith
    (fun h hq => exists_directoryAt_of_walk (Nat.le_of_lt (by decide)) h hq) hclear hwalk hq
  exact ⟨hpass, heq, hq⟩

/-- A walk ends where its steps lead by themselves if it passes directories only. -/
lemma walkWith_of_passable (hpass : fs.Passable place steps)
    (hlast : ∀ target, fs.node? (steps.foldl Step.move place) ≠ some (.link target)) :
    fs.walkWith true jump place steps = .ok (steps.foldl Step.move place) := by
  induction steps generalizing place with
  | nil => rfl
  | cons step steps ih =>
    obtain ⟨hplace, hshort, hpass⟩ := hpass
    have hrest := ih hpass hlast
    cases step with
    | stay => exact walkWith_stay_iff.2 ⟨hplace, hrest⟩
    | up => exact walkWith_up_iff.2 ⟨hplace, hrest⟩
    | down name =>
      refine walkWith_down_iff.2 ⟨hplace, hshort, .inr ⟨fun target hlink => ?_, hrest⟩⟩
      cases steps with
      | nil => exact hlast target hlink
      | cons step steps =>
        obtain ⟨mode, hmode⟩ := hpass.1
        exact absurd (hmode.symm.trans hlink) (by simp)

lemma find_of_passable (hcheck : checkPath p = .ok ()) (hpass : fs.Passable (fs.start p) p.steps)
    {node : FileNode} (hnode : fs.node? (fs.landing p) = some node)
    (hlink : ∀ target, node ≠ .link target) : fs.find p = .ok (fs.landing p, node) := by
  have hlast : ∀ target, fs.node? (fs.landing p) ≠ some (.link target) := fun target heq =>
    hlink target (Option.some.inj (hnode.symm.trans heq))
  have hlocate : fs.locate true p = .ok (fs.landing p) := by
    rw [locate, hcheck]
    exact walkWith_of_passable hpass hlast
  refine Outcome.bind_eq_ok_iff.2 ⟨_, hlocate, ?_⟩
  simp only [hnode]
  rfl

/-! ### Trees with more directories -/

lemma walkWith_transfer (hdirectory : ∀ place, fs.IsDirectory place → fs'.IsDirectory place)
    (hlink : ∀ place target, fs.node? place = some (.link target) →
      fs'.node? place = some (.link target))
    (hjump : ∀ {place steps q}, jump place steps = .ok q → fs.IsDirectory q →
      jump' place steps = .ok q)
    (h : fs.walkWith true jump place steps = .ok q) (hq : fs.IsDirectory q) :
    fs'.walkWith true jump' place steps = .ok q := by
  induction steps generalizing place with
  | nil => exact h
  | cons step steps ih =>
    cases step with
    | stay => exact walkWith_stay_iff.2 ((walkWith_stay_iff.1 h).imp (hdirectory _) ih)
    | up => exact walkWith_up_iff.2 ((walkWith_up_iff.1 h).imp (hdirectory _) ih)
    | down name =>
      obtain ⟨hplace, hname, hnext⟩ := walkWith_down_iff.1 h
      refine walkWith_down_iff.2 ⟨hdirectory _ hplace, hname, ?_⟩
      rcases hnext with ⟨target, htarget, hrest⟩ | ⟨-, hrest⟩
      · exact .inl ⟨target, hlink _ _ htarget, hjump hrest hq⟩
      · refine .inr ⟨fun target htarget => ?_, ih hrest⟩
        -- what the walk passes is a directory in both trees
        have hpassed : fs.IsDirectory (place ++ [name]) := by
          cases steps with
          | nil => exact Except.ok.inj hrest ▸ hq
          | cons step steps => exact isDirectory_of_walkWith hrest
        obtain ⟨mode, hmode⟩ := hdirectory _ hpassed
        exact absurd (hmode.symm.trans htarget) (by simp)

lemma walk_transfer (hdirectory : ∀ place, fs.IsDirectory place → fs'.IsDirectory place)
    (hlink : ∀ place target, fs.node? place = some (.link target) →
      fs'.node? place = some (.link target))
    {links : Nat} (h : fs.walk true links place steps = .ok q) (hq : fs.IsDirectory q) :
    fs'.walk true links place steps = .ok q := by
  induction links generalizing place steps q with
  | zero => exact walkWith_transfer hdirectory hlink (fun h => by simp at h) h hq
  | succ links ih => exact walkWith_transfer hdirectory hlink ih h hq

/-- No link leads to a directory if none does in a tree with more directories and more links. -/
lemma Clear.of_transfer (hdirectory : ∀ place, fs.IsDirectory place → fs'.IsDirectory place)
    (hlink : ∀ place target, fs.node? place = some (.link target) →
      fs'.node? place = some (.link target))
    (h : fs'.Clear place) : fs.Clear place := by
  intro target q htarget hq
  obtain ⟨hwalk, hdir⟩ := directoryAt_eq_ok_iff_walk.1 hq
  exact h target q (hlink _ _ htarget)
    (directoryAt_eq_ok_iff_walk.2 ⟨walk_transfer hdirectory hlink hwalk hdir, hdirectory _ hdir⟩)

/-- The tree with directories at those places at which nothing is. -/
def withDirectories (fs : Files) : List Location → Files
  | []              => fs
  | place :: places =>
    match fs.node? place with
    | none   => (fs.put place (.directory directoryMode)).withDirectories places
    | some _ => fs.withDirectories places

lemma node?_withDirectories (fs : Files) (places : List Location) (q : Location) :
    (fs.withDirectories places).node? q =
      if fs.node? q = none ∧ q ∈ places then some (.directory directoryMode) else fs.node? q := by
  induction places generalizing fs with
  | nil => simp [withDirectories]
  | cons place places ih =>
    unfold withDirectories
    split
    next hnone =>
      have hplace : place ≠ [] := by
        rintro rfl
        simp [node?] at hnone
      rw [ih, node?_put hplace]
      by_cases hq : q = place
      · simp [hq, hnone]
      · simp [hq]
    next node hnode =>
      rw [ih]
      by_cases hq : q = place
      · simp [hq, hnode]
      · simp [hq]

/-! ### Slots -/

/-- A path names the same place in a tree with more directories and more links. -/
lemma slot?_transfer (hhere : fs'.here = fs.here)
    (hdirectory : ∀ place, fs.IsDirectory place → fs'.IsDirectory place)
    (hlink : ∀ place target, fs.node? place = some (.link target) →
      fs'.node? place = some (.link target))
    {slot : Location × Bool} (h : fs.slot? p = .ok (some slot)) :
    fs'.slot? p = .ok (some slot) := by
  obtain ⟨⟨⟩, hcheck, hslot⟩ := Outcome.bind_eq_ok_iff.1 h
  obtain ⟨above, habove, hnamed⟩ := Outcome.bind_eq_ok_iff.1 hslot
  obtain ⟨hwalk, hdir⟩ := directoryAt_eq_ok_iff_walk.1 habove
  have habove' : fs'.directoryAt (fs'.start p) p.parts.1 = .ok above := by
    rw [start, hhere]
    exact directoryAt_eq_ok_iff_walk.2
      ⟨walk_transfer hdirectory hlink hwalk hdir, hdirectory _ hdir⟩
  exact Outcome.bind_eq_ok_iff.2 ⟨(), hcheck, Outcome.bind_eq_ok_iff.2 ⟨above, habove', hnamed⟩⟩

/-- Where no link on the way leads to a directory, a path names the place to which it leads by
itself. -/
lemma eq_landing_of_slot? {closed : Bool}
    (hclear : ∀ mid ∈ trail (fs.start p) p.steps, fs.Clear mid)
    (h : fs.slot? p = .ok (some (q, closed))) : q = fs.landing p := by
  obtain ⟨-, before, name, above, hparts, habove, -, rfl⟩ := exists_of_slot? h
  obtain ⟨empty, hsteps, hempty, -⟩ := exists_steps_eq_of_parts hparts
  have hidle : ∀ s ∈ empty, Path.isIdle s = true := fun s hs => by simp [Path.isIdle, hempty s hs]
  rw [hsteps] at hclear
  obtain ⟨-, rfl, -⟩ := passable_of_directoryAt
    (fun mid hmid => hclear mid (trail_subset_append _ _ _ hmid)) habove
  rw [landing, hsteps, List.foldl_append, List.foldl_cons, Path.foldl_move_of_isIdle hidle]
  rfl

/-! ### Directories above a path -/

/-- The places of the directories that a path passes. -/
def above (fs : Files) (p : Path) : List Location := trail (fs.start p) p.steps.dropLast

/-- The paths above a path that leads to something begin as the path does. -/
lemma prefix_of_mem_ancestors (hname : ∃ s ∈ p.segments, Path.isIdle s = false) {dir d : Path}
    (hd : d ∈ (p.parent?.getD dir).ancestors) :
    d.absolute = p.absolute ∧ d.steps <+: p.steps.dropLast := by
  have hparent {r r' : Path} (h : r.parent? = some r') :
      r'.absolute = r.absolute ∧ r'.steps <+: r.steps.dropLast := by
    obtain ⟨habsolute, idle, s, after, hsegments, -, -⟩ := Path.exists_of_parent? h
    refine ⟨habsolute, ?_⟩
    rw [Path.steps, Path.steps, hsegments, List.map_append,
      List.dropLast_append_of_ne_nil (by simp)]
    exact List.prefix_append _ _
  cases hp : p.parent? with
  | none =>
    obtain ⟨s, hs, hidle⟩ := hname
    exact absurd (Path.isIdle_of_parent?_eq_none hp s hs) (by simp [hidle])
  | some r =>
    rw [hp, Option.getD_some] at hd
    refine Path.forall_mem_ancestors
      (P := fun r => r.absolute = p.absolute ∧ r.steps <+: p.steps.dropLast)
      (hparent hp) (fun r r' hr h => ?_) d hd
    obtain ⟨habsolute, hbegins⟩ := hparent h
    exact ⟨habsolute.trans hr.1, (hbegins.trans (List.dropLast_prefix _)).trans hr.2⟩

lemma trail_subset_above (hname : ∃ s ∈ p.segments, Path.isIdle s = false) {dir d : Path}
    (hd : d ∈ (p.parent?.getD dir).ancestors) :
    trail (fs.start d) d.steps ⊆ fs.above p := by
  obtain ⟨habsolute, more, hmore⟩ := prefix_of_mem_ancestors hname hd
  rw [above, ← hmore, start, start, habsolute]
  exact trail_subset_append _ _ _

/-- A directory is made at the place to which its path leads by itself. -/
lemma eq_put_of_makeDirectory (hclear : ∀ mid ∈ trail (fs.start p) p.steps, fs.Clear mid)
    (h : fs.makeDirectory p = .ok fs') :
    fs.node? (fs.landing p) = none ∧
      fs' = fs.put (fs.landing p) (.directory directoryMode) := by
  obtain ⟨place, closed, hslot, hnone, rfl⟩ := exists_of_makeDirectory h
  obtain rfl := eq_landing_of_slot? hclear hslot
  exact ⟨hnone, rfl⟩

/-- What a path without slashes at its end names stands where the path leads by itself, in a
directory. -/
lemma passable_of_slot? (hclear : ∀ mid ∈ fs.above p, fs.Clear mid)
    (h : fs.slot? p = .ok (some (q, false))) :
    checkPath p = .ok () ∧ fs.Passable (fs.start p) p.steps ∧ q = fs.landing p := by
  obtain ⟨hcheck, before, name, mid, hparts, hmid, hname, rfl⟩ := exists_of_slot? h
  have hsteps := steps_eq_of_parts hparts
  rw [above, hsteps, List.dropLast_concat] at hclear
  obtain ⟨hpass, rfl, hdirectory⟩ := passable_of_directoryAt hclear hmid
  refine ⟨hcheck, ?_, ?_⟩
  · rw [hsteps, passable_append]
    exact ⟨hpass, hdirectory, hname, trivial⟩
  · rw [landing, hsteps, List.foldl_append]
    rfl

end TwoStage.Files
