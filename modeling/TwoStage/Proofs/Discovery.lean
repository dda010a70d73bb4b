import Mathlib.Data.List.Find
import Mathlib.Data.List.Infix
import TwoStage.Discovery
import TwoStage.Proofs.Files.Ascent

/-!
# Which document is found

The document of a directory is the nearest one in it or above it. The search looks for it where the
start path and the paths above that lead. These pass by every directory above, nearest first; but
behind a step to the parent they also pass by directories from which that step leads back up, and a
document there is taken for a nearer one. So the search is right exactly if the first document that
it comes by is in the directory or above it, which holds of every start path without such steps.
-/

namespace TwoStage.Discovery

open TwoStage.Path TwoStage.Files

variable {fs : Files} {dir place : Location} {p q : Path}

/-! ### The nearest document -/

/-- The directory holds a document. -/
def HoldsDocument (fs : Files) (place : Location) : Prop :=
  ∃ contents mode, fs.node? (place ++ [documentName.toList]) = some (.file contents mode)

instance (fs : Files) : DecidablePred (HoldsDocument fs) := fun place =>
  match h : fs.node? (place ++ [documentName.toList]) with
  | some (.file contents mode) => .isTrue ⟨contents, mode, h⟩
  | some (.directory _)        => .isFalse fun ⟨_, _, hfile⟩ => by simp [h] at hfile
  | some (.link _)             => .isFalse fun ⟨_, _, hfile⟩ => by simp [h] at hfile
  | none                       => .isFalse fun ⟨_, _, hfile⟩ => by simp [h] at hfile

/-- Of a directory and those above it, the place is the nearest one that holds a document. -/
structure IsNearest (fs : Files) (dir place : Location) : Prop where
  above : place <+: dir
  holds : HoldsDocument fs place
  nearest : ∀ q, q <+: dir → HoldsDocument fs q → q <+: place

/-- The answer to a search from a directory is its nearest document, or that there is none. -/
def Answers (fs : Files) (start : Path) (dir : Location) : Outcome Path → Prop
  | .ok path   => ∃ place contents mode, IsNearest fs dir place ∧
      fs.find path = .ok (place ++ [documentName.toList], .file contents mode)
  | .error err => err = .notFoundInTree start ∧ ∀ place, place <+: dir → ¬ HoldsDocument fs place

/-! ### What the search comes by -/

/-- The path of the document behind a path is not too long. -/
def canName (dir : Path) : Bool := (checkPath (dir.child documentName)).toOption.isSome

/-- Where the paths above a path lead, as far as the document's path is not too long there. -/
def passed (fs : Files) (p : Path) : List Location := (p.ancestors.filter canName).map fs.landing

/-- The first place on the way up that holds a document. -/
def firstHolder? (fs : Files) (p : Path) : Option Location :=
  (passed fs p).find? fun place => decide (HoldsDocument fs place)

lemma canName_iff : canName p = true ↔ checkPath (p.child documentName) = .ok () := by
  unfold canName
  cases checkPath (p.child documentName) <;> simp [Except.toOption]

lemma find_document_eq_ok_iff (hlinks : fs.LinkFree) (hp : fs.Enters p) (hparted : p.IsParted)
    {contents : ByteArray} {mode : Nat} :
    fs.find (p.child documentName) = .ok (place, .file contents mode) ↔ canName p = true ∧
      place = fs.landing p ++ [documentName.toList] ∧
        fs.node? place = some (.file contents mode) := by
  have hname : IsName documentName := by decide
  have hshort : checkName documentName.toList = .ok () := by rfl
  rw [hp.find_child_eq_ok_iff hlinks hparted hname, canName_iff]
  simp only [hshort, true_and]

lemma hasFile_document (hlinks : fs.LinkFree) (hp : fs.Enters p) (hparted : p.IsParted) :
    fs.hasFile (p.child documentName) =
      (canName p && decide (HoldsDocument fs (fs.landing p))) := by
  rw [Bool.eq_iff_iff, hasFile_eq_true_iff, Bool.and_eq_true, decide_eq_true_eq]
  simp only [find_document_eq_ok_iff hlinks hp hparted]
  constructor
  · rintro ⟨place, contents, mode, hname, rfl, hnode⟩
    exact ⟨hname, contents, mode, hnode⟩
  · rintro ⟨hname, contents, mode, hnode⟩
    exact ⟨_, contents, mode, hname, rfl, hnode⟩

/-- The search finds the document of the first place that holds one. -/
lemma locate_cases (hlinks : fs.LinkFree) {workingDir start : Path}
    (hp : startPath workingDir start = p) (hparted : p.IsParted) {mode : Nat}
    (hfind : fs.find p = .ok (dir, .directory mode)) :
    (∃ place path contents mode, firstHolder? fs p = some place ∧
      locate fs workingDir start = .ok path ∧
        fs.find path = .ok (place ++ [documentName.toList], .file contents mode)) ∨
    firstHolder? fs p = none ∧ locate fs workingDir start = .error (.notFoundInTree p) := by
  have habove : ∀ q ∈ p.ancestors, fs.Enters q ∧ q.IsParted := by
    obtain ⟨-, hpass, rfl, hnode⟩ := (find_eq_ok_iff hlinks).1 hfind
    exact forall_mem_ancestors ⟨⟨hpass, mode, hnode⟩, hparted⟩ fun q r hq hparent =>
      ⟨hq.1.of_parent? hparent, hq.2.of_parent? hparent⟩
  have hstart : fs.hasFile p = false := by rw [hasFile, hfind]
  -- the search asks for a file at the path of each ancestor's document, and `firstHolder?` looks at
  -- the places that the ancestors lead to
  have hsearch : (candidates p).find? fs.hasFile =
      (p.ancestors.find? fun q => canName q && decide (HoldsDocument fs (fs.landing q))).map
        (child · documentName) := by
    rw [candidates, List.find?_map]
    congr 1
    exact List.find?_congr fun q hq => hasFile_document hlinks (habove q hq).1 (habove q hq).2
  have hfirst : firstHolder? fs p =
      (p.ancestors.find? fun q => canName q && decide (HoldsDocument fs (fs.landing q))).map
        fs.landing := by
    rw [firstHolder?, passed, List.find?_map, List.find?_filter]
    simp only [Bool.decide_and, Bool.decide_eq_true, Function.comp_apply]
  rw [locate, hp, hfirst]
  simp only [hstart, hsearch]
  cases hq : p.ancestors.find? fun q => canName q && decide (HoldsDocument fs (fs.landing q)) with
  | none => exact .inr ⟨rfl, rfl⟩
  | some q =>
    obtain ⟨henters, hparted⟩ := habove q (List.mem_of_find?_eq_some hq)
    obtain ⟨hname, contents, mode, hnode⟩ : canName q = true ∧ HoldsDocument fs (fs.landing q) := by
      simpa using List.find?_some hq
    exact .inl ⟨_, _, contents, mode, rfl, rfl,
      (find_document_eq_ok_iff hlinks henters hparted).2 ⟨hname, rfl, hnode⟩⟩

/-! ### When the answer is right -/

lemma IsNearest.unique {place' : Location} (h : IsNearest fs dir place)
    (h' : IsNearest fs dir place') : place = place' :=
  (h'.nearest place h.above h.holds).eq_of_length_le (h.nearest place' h'.above h'.holds).length_le

/-- Whether the answer is right is a matter of the first place that holds a document. -/
lemma answers_locate_iff (hlinks : fs.LinkFree) {workingDir start : Path}
    (hp : startPath workingDir start = p) (hparted : p.IsParted) {mode : Nat}
    (hfind : fs.find p = .ok (dir, .directory mode)) :
    Answers fs p dir (locate fs workingDir start) ↔
      (∀ place, firstHolder? fs p = some place → IsNearest fs dir place) ∧
        (firstHolder? fs p = none → ∀ place, place <+: dir → ¬ HoldsDocument fs place) := by
  rcases locate_cases hlinks hp hparted hfind with
    ⟨place, path, contents, mode, hfirst, hlocate, hfound⟩ | ⟨hfirst, hlocate⟩
  · simp only [hlocate, hfirst, Answers, reduceCtorEq, false_implies, and_true, Option.some.injEq,
      forall_eq']
    constructor
    · rintro ⟨place', contents', mode', hnearest, hfound'⟩
      rw [hfound, Except.ok.injEq, Prod.mk.injEq] at hfound'
      rwa [List.append_cancel_right hfound'.1]
    · exact fun hnearest => ⟨place, contents, mode, hnearest, hfound⟩
  · simp [hlocate, hfirst, Answers]

lemma filter_canName (hparted : p.IsParted) (hp : canName p = true) :
    p.ancestors.filter canName = p.ancestors := by
  have hname : IsName documentName := by decide
  refine List.filter_eq_self.2 fun q hq => ?_
  have hall : ∀ q ∈ p.ancestors, q.IsParted ∧ canName q = true := by
    refine forall_mem_ancestors ⟨hparted, hp⟩ ?_
    intro q r ⟨hq, hcheck⟩ hparent
    exact ⟨hq.of_parent? hparent,
      canName_iff.2 (checkPath_child_of_parent? hq hparent hname (canName_iff.1 hcheck))⟩
  exact (hall q hq).2

/-- The way up from a directory comes by all places between it and one above, so that the first
document it finds is the nearest, if it is one above at all. -/
lemma isNearest_of_firstHolder? (hnames : p.ancestors.filter canName = p.ancestors)
    (hfirst : firstHolder? fs p = some place) (habove : place <+: fs.landing p) :
    IsNearest fs (fs.landing p) place := by
  obtain ⟨hholds, before, after, hsplit, hbefore⟩ := List.find?_eq_some_iff_append.1 hfirst
  rw [passed, hnames] at hsplit
  refine ⟨habove, of_decide_eq_true hholds, fun q hq hqholds => ?_⟩
  by_cases hqplace : q = place
  · exact hqplace ▸ List.prefix_rfl
  have hback : Backwards p.steps (before ++ [place]) := by
    have hall := backwards_ancestors fs p
    rw [hsplit, List.append_cons] at hall
    exact hall.left_of_append
  have hhead : (before ++ [place]).head? = some (fs.landing p) := by
    rw [← head?_landing_ancestors, hsplit]
    simp
  refine hback.prefix_of_notMem hhead hq (fun hmem => ?_) place (by simp)
  rcases List.mem_append.1 hmem with hmem | hmem
  · simpa [hqholds] using hbefore q hmem
  · exact hqplace (List.mem_singleton.1 hmem)

/-- The way up from a directory comes by all places above it. -/
lemma not_holdsDocument_of_firstHolder? (habsolute : p.absolute = true)
    (hnames : p.ancestors.filter canName = p.ancestors) (hfirst : firstHolder? fs p = none)
    (habove : place <+: fs.landing p) : ¬ HoldsDocument fs place := by
  intro hholds
  have hnone := List.find?_eq_none.1 hfirst
  rw [passed, hnames] at hnone
  have hmem : place ∉ p.ancestors.map fs.landing :=
    fun hmem => hnone place hmem (by simpa using hholds)
  have hroot := (backwards_ancestors fs p).prefix_of_notMem (head?_landing_ancestors fs p) habove
    hmem [] (nil_mem_landing_ancestors fs habsolute)
  exact hmem (List.prefix_nil.1 hroot ▸ nil_mem_landing_ancestors fs habsolute)

/-- The search from a directory gives its nearest document, or says that there is none, exactly if
the first place on the way up that holds a document is the right one. That is the case where the way
starts from the root and the document's path is not too long, if that place is the directory or one
above it, as it always is without steps to parents. -/
theorem answers_locate (hlinks : fs.LinkFree) {workingDir start : String}
    (hp : startPath (ofString workingDir) (ofString start) = p) {mode : Nat}
    (hfind : fs.find p = .ok (dir, .directory mode)) :
    (Answers fs p dir (locate fs (ofString workingDir) (ofString start)) ↔
      (∀ place, firstHolder? fs p = some place → IsNearest fs dir place) ∧
        (firstHolder? fs p = none → ∀ place, place <+: dir → ¬ HoldsDocument fs place)) ∧
    (p.absolute = true → canName p = true →
      (Answers fs p dir (locate fs (ofString workingDir) (ofString start)) ↔
        ∀ place, firstHolder? fs p = some place → place <+: dir) ∧
      (.up ∉ p.steps → Answers fs p dir (locate fs (ofString workingDir) (ofString start)))) := by
  have hparted : p.IsParted := by
    rw [← hp, startPath]
    split
    · exact isParted_ofString start
    · exact (isParted_ofString workingDir).join (isParted_ofString start)
  have hiff := answers_locate_iff hlinks hp hparted hfind
  obtain ⟨-, -, rfl, -⟩ := (find_eq_ok_iff hlinks).1 hfind
  refine ⟨hiff, fun habsolute hname => ?_⟩
  have hnames := filter_canName hparted hname
  have habove : Answers fs p (fs.landing p) (locate fs (ofString workingDir) (ofString start)) ↔
      ∀ place, firstHolder? fs p = some place → place <+: fs.landing p := by
    rw [hiff]
    exact ⟨fun h place hfirst => (h.1 place hfirst).above, fun h =>
      ⟨fun place hfirst => isNearest_of_firstHolder? hnames hfirst (h place hfirst),
        fun hfirst place => not_holdsDocument_of_firstHolder? habsolute hnames hfirst⟩⟩
  refine ⟨habove, fun hup => habove.2 fun place hfirst => ?_⟩
  have hmem := List.mem_of_find?_eq_some hfirst
  rw [passed, hnames] at hmem
  exact (backwards_ancestors fs p).prefix_of_up_notMem (head?_landing_ancestors fs p) hup place hmem

/-- The document of the directory above is found behind a dot, and behind a step to the parent from
a directory without a document. -/
theorem answers_locate_of_dots :
    let fs : Files := ⟨[(["a".toList], .directory directoryMode),
      (["a".toList, "b".toList], .directory directoryMode),
      (["a".toList, documentName.toList], .file .empty fileMode)], []⟩
    locate fs (ofString "/a") (ofString "b/.") = .ok (ofString "/a/stagecraft.yaml") ∧
      Answers fs (ofString "/a/b/.") ["a".toList, "b".toList]
        (locate fs (ofString "/a") (ofString "b/.")) ∧
      locate fs (ofString "/a") (ofString "b/..") = .ok (ofString "/a/b/../stagecraft.yaml") ∧
      Answers fs (ofString "/a/b/..") ["a".toList]
        (locate fs (ofString "/a") (ofString "b/..")) := by
  intro fs
  have hlinks : fs.LinkFree := linkFree_of_forall (by simp [fs])
  have hdot : startPath (ofString "/a") (ofString "b/.") = ofString "/a/b/." := by decide
  have hfind : fs.find (ofString "/a/b/.") =
      .ok (["a".toList, "b".toList], .directory directoryMode) := by rfl
  have hdots : startPath (ofString "/a") (ofString "b/..") = ofString "/a/b/.." := by decide
  have hfind' : fs.find (ofString "/a/b/..") = .ok (["a".toList], .directory directoryMode) := by
    rfl
  have habove : ∀ place, firstHolder? fs (ofString "/a/b/..") = some place →
      place <+: ["a".toList] := by
    have hfirst : firstHolder? fs (ofString "/a/b/..") = some ["a".toList] := by rfl
    simp [hfirst]
  obtain ⟨-, hstay⟩ := answers_locate hlinks hdot hfind
  obtain ⟨-, hback⟩ := answers_locate hlinks hdots hfind'
  exact ⟨by rfl, (hstay rfl (by decide)).2 (by decide), by rfl,
    (hback rfl (by decide)).1.2 habove⟩

/-- Behind a step to the parent, the document of the directory below is found, though neither the
directory nor the one above it has any. -/
theorem exists_document_below :
    let fs : Files := ⟨[(["a".toList], .directory directoryMode),
      (["a".toList, "b".toList], .directory directoryMode),
      (["a".toList, "b".toList, documentName.toList], .file .empty fileMode)], []⟩
    fs.LinkFree ∧ fs.find (ofString "/a/b/..") = .ok (["a".toList], .directory directoryMode) ∧
      (∀ place, place <+: ["a".toList] → ¬ HoldsDocument fs place) ∧
      locate fs (ofString "/") (ofString "/a/b/..") = .ok (ofString "/a/b/stagecraft.yaml") ∧
      ¬ Answers fs (ofString "/a/b/..") ["a".toList]
        (locate fs (ofString "/") (ofString "/a/b/..")) := by
  intro fs
  have hnone : ∀ place ∈ ["a".toList].inits, ¬ HoldsDocument fs place := by decide
  have hplaces : ∀ place, place <+: ["a".toList] → ¬ HoldsDocument fs place :=
    fun place h => hnone place ((List.mem_inits _ _).2 h)
  have hlocate : locate fs (ofString "/") (ofString "/a/b/..") =
      .ok (ofString "/a/b/stagecraft.yaml") := by rfl
  refine ⟨linkFree_of_forall (by simp [fs]), by rfl, hplaces, hlocate, ?_⟩
  rw [hlocate]
  rintro ⟨place, contents, mode, hnearest, -⟩
  exact hplaces place hnearest.above hnearest.holds

end TwoStage.Discovery
