import Mathlib.Data.List.Induction
import TwoStage.Proofs.Files.Below

/-!
# Following links

A path denotes a place when its steps lead there and every link on the way is replaced by the steps
of its target. What is not a link is passed as a directory, whether it is there or not, so that a
path can denote a place at which nothing is yet. A walk that succeeds ends at the place that its
path denotes; the other way round there is more to a walk, which has to find a directory for every
step.
-/

namespace TwoStage

namespace Files

variable {fs : Files} {place q : Location} {steps : List Step}

/-! ### Trees -/

/-- Everything stands under a name in a directory, and relative paths start in a directory. -/
structure IsTree (fs : Files) : Prop where
  parent : ∀ {place name node}, fs.node? (place ++ [name]) = some node → fs.IsDirectory place
  name : ∀ {place name node}, fs.node? (place ++ [name]) = some node →
    Path.IsName (String.ofList name)
  here : fs.IsDirectory fs.here

/-- A tree is one if each of its entries stands under a name in a directory. -/
lemma isTree_of_forall
    (h : ∀ e ∈ fs.entries, fs.IsDirectory e.1.dropLast ∧
      ∀ name ∈ e.1.getLast?, Path.IsName (String.ofList name))
    (hhere : fs.IsDirectory fs.here) : fs.IsTree := by
  have hentry {place : Location} {name : List Char} {node : FileNode}
      (hnode : fs.node? (place ++ [name]) = some node) : (place ++ [name], node) ∈ fs.entries :=
    mem_entries_of_node? hnode (by simp)
  refine ⟨fun hnode => ?_, fun hnode => ?_, hhere⟩
  · simpa using (h _ (hentry hnode)).1
  · simpa using (h _ (hentry hnode)).2

/-- The names of a place at which something is. -/
lemma IsTree.isName_of_mem (h : fs.IsTree) {node : FileNode} (hnode : fs.node? place = some node) :
    ∀ s ∈ place, Path.IsName (String.ofList s) := by
  induction place using List.reverseRecOn generalizing node with
  | nil => simp
  | append_singleton above name ih =>
    obtain ⟨mode, habove⟩ := h.parent hnode
    exact List.forall_mem_append.2 ⟨ih habove, by simpa using h.name hnode⟩

/-- There is no link at the place or above it. -/
def Linkless (fs : Files) (place : Location) : Prop :=
  ∀ above, above <+: place → ∀ target, fs.node? above ≠ some (.link target)

lemma linkless_nil : fs.Linkless [] := by
  intro above habove target hnode
  obtain rfl := List.prefix_nil.1 habove
  simp [node?] at hnode

lemma Linkless.of_prefix {above : Location} (h : fs.Linkless place) (habove : above <+: place) :
    fs.Linkless above :=
  fun _ hfirst => h _ (hfirst.trans habove)

lemma linkless_concat_iff {name : List Char} :
    fs.Linkless (place ++ [name]) ↔
      fs.Linkless place ∧ ∀ target, fs.node? (place ++ [name]) ≠ some (.link target) := by
  constructor
  · exact fun h => ⟨h.of_prefix (List.prefix_append _ _), h _ (List.prefix_refl _)⟩
  · rintro ⟨h, hlast⟩ above habove
    rcases List.prefix_concat_iff.1 habove with rfl | habove
    · exact hlast
    · exact h above habove

/-- Directories stand in directories. -/
lemma IsTree.linkless_of_isDirectory (h : fs.IsTree) (hplace : fs.IsDirectory place) :
    fs.Linkless place := by
  induction place using List.reverseRecOn with
  | nil => exact linkless_nil
  | append_singleton above name ih =>
    obtain ⟨mode, hnode⟩ := hplace
    exact linkless_concat_iff.2 ⟨ih (h.parent hnode), fun target htarget => by
      simp [hnode] at htarget⟩

lemma IsTree.linkless_start (h : fs.IsTree) (p : Path) : fs.Linkless (fs.start p) := by
  unfold start
  split
  · exact linkless_nil
  · exact h.linkless_of_isDirectory h.here

/-! ### Where steps lead -/

/-- Where the target of a link starts that stands in the given directory. -/
def origin (above : Location) (target : Path) : Location := if target.absolute then [] else above

/-- The steps lead from a place to another one, each link on the way being followed. -/
inductive Leads (fs : Files) : Location → List Step → Location → Prop
  | arrived (place : Location) : Leads fs place [] place
  | stay {place q : Location} {rest : List Step} (h : Leads fs place rest q) :
      Leads fs place (.stay :: rest) q
  | up {place q : Location} {rest : List Step} (h : Leads fs place.dropLast rest q) :
      Leads fs place (.up :: rest) q
  | down {place q : Location} {rest : List Step} {name : List Char}
      (hnode : ∀ target, fs.node? (place ++ [name]) ≠ some (.link target))
      (h : Leads fs (place ++ [name]) rest q) : Leads fs place (.down name :: rest) q
  | link {place q : Location} {rest : List Step} {name : List Char} {target : Path}
      (hnode : fs.node? (place ++ [name]) = some (.link target))
      (h : Leads fs (origin place target) (target.steps ++ rest) q) :
      Leads fs place (.down name :: rest) q

/-- The path of the text denotes the place. -/
def Denotes (fs : Files) (text : String) (q : Location) : Prop :=
  fs.Leads (fs.start (Path.ofString text)) (Path.ofString text).steps q

namespace Leads

/-- Steps lead to one place. -/
lemma unique (h : fs.Leads place steps q) {q' : Location} (h' : fs.Leads place steps q') :
    q = q' := by
  induction h with
  | arrived => cases h'; rfl
  | stay _ ih => cases h' with | stay h' => exact ih h'
  | up _ ih => cases h' with | up h' => exact ih h'
  | down hnode _ ih =>
    cases h' with
    | down _ h' => exact ih h'
    | link hlink _ => exact absurd hlink (hnode _)
  | link hnode _ ih =>
    cases h' with
    | down hnone _ => exact absurd hnode (hnone _)
    | link hlink h' =>
      obtain rfl := FileNode.link.inj (Option.some.inj (hnode.symm.trans hlink))
      exact ih h'

lemma append {more : List Step} {q' : Location} (h : fs.Leads place steps q)
    (hmore : fs.Leads q more q') : fs.Leads place (steps ++ more) q' := by
  induction h with
  | arrived => exact hmore
  | stay _ ih => exact .stay (ih hmore)
  | up _ ih => exact .up (ih hmore)
  | down hnode _ ih => exact .down hnode (ih hmore)
  | link hnode _ ih =>
    have hrest := ih hmore
    rw [List.append_assoc] at hrest
    exact .link hnode hrest

/-- What is denoted has been followed as far as there are links. -/
lemma linkless (h : fs.Leads place steps q) (hplace : fs.Linkless place) : fs.Linkless q := by
  induction h with
  | arrived => exact hplace
  | stay _ ih => exact ih hplace
  | up _ ih => exact ih (hplace.of_prefix (List.dropLast_prefix _))
  | down hnode _ ih => exact ih (linkless_concat_iff.2 ⟨hplace, hnode⟩)
  | link _ _ ih =>
    refine ih ?_
    unfold origin
    split
    · exact linkless_nil
    · exact hplace

end Leads

/-- Names without a link among them lead down as they are. -/
lemma Linkless.leads {names : List (List Char)} (h : fs.Linkless (place ++ names)) :
    fs.Leads place (names.map .down) (place ++ names) := by
  induction names generalizing place with
  | nil => simpa using Leads.arrived place
  | cons name names ih =>
    rw [List.append_cons] at h ⊢
    have hname := h.of_prefix (List.prefix_append _ _)
    exact .down (linkless_concat_iff.1 hname).2 (ih h)

/-- Names without a link among them lead from the root to the place that they name. -/
lemma Linkless.leads_root (h : fs.Linkless place) : fs.Leads [] (place.map .down) place := by
  have hplace : fs.Linkless ([] ++ place) := h
  exact hplace.leads

/-! ### Walks -/

section

variable {name : List Char} {jump : Location → List Step → Except FileError Location}

lemma walkWith_stay_iff : fs.walkWith true jump place (.stay :: steps) = .ok q ↔
    fs.IsDirectory place ∧ fs.walkWith true jump place steps = .ok q := by
  rw [walkWith, IsDirectory]
  cases hnode : fs.node? place with
  | none => simp
  | some node => cases node <;> simp

lemma walkWith_up_iff : fs.walkWith true jump place (.up :: steps) = .ok q ↔
    fs.IsDirectory place ∧ fs.walkWith true jump place.dropLast steps = .ok q := by
  rw [walkWith, IsDirectory]
  cases hnode : fs.node? place with
  | none => simp
  | some node => cases node <;> simp

/-- A step down to a link goes on from where the link leads, and any other down to the name. -/
lemma walkWith_down_iff : fs.walkWith true jump place (.down name :: steps) = .ok q ↔
    fs.IsDirectory place ∧ checkName name = .ok () ∧
      ((∃ target, fs.node? (place ++ [name]) = some (.link target) ∧
          jump (origin place target) (target.steps ++ steps) = .ok q) ∨
        (∀ target, fs.node? (place ++ [name]) ≠ some (.link target)) ∧
          fs.walkWith true jump (place ++ [name]) steps = .ok q) := by
  rw [walkWith, IsDirectory]
  cases hnode : fs.node? place with
  | none => simp
  | some node =>
    cases node with
    | file => simp
    | link => simp
    | directory mode =>
      cases hname : checkName name with
      | error e => simp
      | ok =>
        cases hnext : fs.node? (place ++ [name]) with
        | none => simp
        | some next => cases next <;> simp [origin]

/-- A walk that goes on starts from a directory. -/
lemma isDirectory_of_walkWith {step : Step}
    (h : fs.walkWith true jump place (step :: steps) = .ok q) : fs.IsDirectory place := by
  cases step with
  | stay => exact (walkWith_stay_iff.1 h).1
  | up => exact (walkWith_up_iff.1 h).1
  | down name => exact (walkWith_down_iff.1 h).1

/-- A walk ends where its steps lead. -/
lemma leads_of_walkWith
    (hjump : ∀ {place steps q}, jump place steps = .ok q → fs.Leads place steps q)
    (h : fs.walkWith true jump place steps = .ok q) : fs.Leads place steps q := by
  induction steps generalizing place with
  | nil =>
    obtain rfl := Except.ok.inj h
    exact .arrived _
  | cons step steps ih =>
    cases step with
    | stay => exact .stay (ih (walkWith_stay_iff.1 h).2)
    | up => exact .up (ih (walkWith_up_iff.1 h).2)
    | down name =>
      obtain ⟨-, -, ⟨target, hnode, hrest⟩ | ⟨hnode, hrest⟩⟩ := walkWith_down_iff.1 h
      · exact .link hnode (hjump hrest)
      · exact .down hnode (ih hrest)

end

lemma leads_of_walk {links : Nat} (h : fs.walk true links place steps = .ok q) :
    fs.Leads place steps q := by
  induction links generalizing place steps q with
  | zero => exact leads_of_walkWith (fun h => by simp at h) h
  | succ links ih => exact leads_of_walkWith ih h

/-- What is found stands at the place that the path leads to, and no link leads on from there. -/
lemma IsTree.leads_of_find (h : fs.IsTree) {p : Path} {node : FileNode}
    (hfind : fs.find p = .ok (q, node)) :
    fs.Leads (fs.start p) p.steps q ∧ fs.node? q = some node ∧ fs.Linkless q := by
  obtain ⟨place, hlocate, hfind⟩ := Outcome.bind_eq_ok_iff.1 hfind
  obtain ⟨⟨⟩, -, hwalk⟩ := Outcome.bind_eq_ok_iff.1 hlocate
  have hleads := leads_of_walk hwalk
  split at hfind
  next node' hnode =>
    obtain ⟨rfl, rfl⟩ := Prod.mk.inj (Outcome.pure_eq_ok_iff.1 hfind)
    exact ⟨hleads, hnode, hleads.linkless (h.linkless_start p)⟩
  next => simp at hfind

/-! ### Paths of places -/

/-- The text of a place denotes what its names lead to. -/
lemma denotes_ofLocation_iff {names : Location} (h : ∀ s ∈ names, Path.IsName (String.ofList s)) :
    fs.Denotes (Path.ofLocation names).text q ↔ fs.Leads [] (names.map .down) q := by
  have htext : Path.ofString (Path.ofLocation names).text =
      ⟨true, Text.splitAll '/' (Path.joinSegments names)⟩ := by
    simp [Path.ofString, Path.text, Path.toChars, Path.ofLocation, Path.ofChars]
  have hsteps : names.map Step.ofSegment = names.map .down :=
    List.map_congr_left fun s hs => ofSegment_eq_down (by simpa using (h s hs).step)
  have hslash : ∀ s ∈ names, '/' ∉ s := fun s hs => by simpa using (h s hs).noSlash
  rw [Denotes, htext, start, if_pos rfl, Path.steps]
  cases names with
  | nil =>
    constructor
    · rintro (_ | ⟨⟨⟩⟩)
      exact .arrived _
    · rintro ⟨⟩
      exact .stay (.arrived _)
  | cons name names =>
    rw [List.forall_mem_cons] at hslash
    rw [← hsteps, Path.joinSegments_cons, Text.splitAll_append_flatMap _ hslash.1 hslash.2]

end Files

end TwoStage
