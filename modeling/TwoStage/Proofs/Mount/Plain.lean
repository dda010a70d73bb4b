import TwoStage.Proofs.Files.Course
import TwoStage.Proofs.Mount.Boundary
import TwoStage.Proofs.Mount.Rerun

/-!
# Plain directories of the host

Folding the dots of a path keeps where it leads. So a directory of the host has an absolute path
without dots, whether it exists and is followed through its links or is folded as it is written.
-/

namespace TwoStage

open Text

/-! ### Plain paths -/

namespace Path

variable {p : Path}

/-- What the text of a plain path writes is plain. -/
lemma IsPlain.ofString_text (h : p.IsPlain) : (ofString p.text).IsPlain := by
  obtain ⟨absolute, segments⟩ := p
  obtain rfl : absolute = true := h.absolute
  have htext : ofString (text ⟨true, segments⟩) = ⟨true, splitAll '/' (joinSegments segments)⟩ := by
    simp [ofString, text, toChars, ofChars]
  rw [htext]
  cases segments with
  | nil => exact ⟨rfl, by simp [joinSegments, splitAll]⟩
  | cons s ss =>
    have hslash := h.isParted
    rw [IsParted, List.forall_mem_cons] at hslash
    rw [joinSegments_cons, splitAll_append_flatMap s hslash.1 hslash.2]
    exact h

/-- An absolute path with its dots folded is plain. -/
lemma isPlain_normalize (habsolute : p.absolute = true) (hp : p.IsWritten) :
    p.normalize.IsPlain := by
  have hups : p.course.ups = 0 := ((fits_course p []) habsolute).2
  refine ⟨by rw [absolute_normalize, habsolute], fun s hs => ?_⟩
  rw [normalize_eq, Course.path, hups] at hs
  obtain ⟨hmem, hstep⟩ := mem_course hs
  refine ⟨hp s hmem, ?_, ?_⟩ <;> rintro rfl <;> simp [step?] at hstep

end Path

/-- What exists has a plain path of its own. -/
def Files.HasPlainPaths (fs : Files) : Prop := ∀ p q, fs.canonicalize p = .ok q → q.IsPlain

lemma Files.IsTree.hasPlainPaths {fs : Files} (h : fs.IsTree) : fs.HasPlainPaths := by
  intro p q hq
  obtain ⟨⟨place, node⟩, hfind, rfl⟩ := Outcome.map_eq_ok_iff.1 hq
  refine ⟨rfl, fun s hs => ?_⟩
  have hname := h.isName_of_mem (h.leads_of_find hfind).2.1 s hs
  refine ⟨by simpa using hname.noSlash, ?_, ?_⟩ <;> rintro rfl <;>
    simpa [Path.step?] using hname.step

lemma Files.isPlain_realPath {fs : Files} (h : fs.HasPlainPaths) {p : Path}
    (habsolute : p.absolute = true) (hp : p.IsWritten) : (fs.realPath p).IsPlain := by
  unfold realPath
  split
  next q hq => exact h p q hq
  next => exact Path.isPlain_normalize habsolute hp

/-! ### Mounts -/

/-- The directories of the project and of the user are absolute and written somewhere, and what
exists has a plain path. -/
structure Context.IsRooted (ctx : Context) : Prop where
  project : ctx.projectDir.absolute = true ∧ ctx.projectDir.IsWritten
  home : ∀ home ∈ ctx.home?, home.absolute = true ∧ home.IsWritten
  files : ctx.files.HasPlainPaths

variable {ctx : Context}

lemma Context.IsRooted.userPath (h : ctx.IsRooted) {raw : String} {p : Path}
    (hp : ctx.userPath? raw = some p) : p.absolute = true ∧ p.IsWritten :=
  ⟨ctx.absolute_userPath h.project.1 (fun home hhome => (h.home home hhome).1) hp,
    ctx.isWritten_userPath h.project.2 (fun home hhome => (h.home home hhome).2) hp⟩

/-- A directory of the host without a marker is plain. -/
lemma Context.IsRooted.isPlain_of_hostDirectory (h : ctx.IsRooted) {path raw text : String}
    (hmarker : hasComposeMarker raw = false) (hdirectory : hostDirectory ctx path raw = .ok text) :
    (Path.ofString text).IsPlain := by
  obtain ⟨p, hp, rfl⟩ := exists_of_hostDirectory hmarker hdirectory
  obtain ⟨habsolute, hwritten⟩ := h.userPath hp
  exact (Files.isPlain_realPath h.files habsolute hwritten).ofString_text

/-- What a declaration is mounted from is plain if no marker is left in it. -/
lemma Context.IsRooted.isPlain_of_resolveMount (h : ctx.IsRooted) {project : Project}
    {stage : Stage} {scope : Scope} {key : String} {s : StorageSection} {m : Mount}
    (hm : resolveMount ctx project stage scope key s = .ok m) {text : String}
    (htext : m.target = .bind text) :
    ∃ raw, s.hostPath? = some raw ∧
      (hasComposeMarker (trim raw) = false → (Path.ofString text).IsPlain) := by
  obtain ⟨source, destination, target, path, hkept, -, hmounted, rfl⟩ := exists_of_resolveMount hm
  obtain rfl : target = .bind text := htext
  cases hmounted with
  | host hsource hdirectory =>
    obtain rfl : source = .host _ := hsource
    cases hkept with
    | host _ hraw =>
      exact ⟨_, hraw, fun hmarker => h.isPlain_of_hostDirectory hmarker hdirectory⟩

/-- Folding the dots of a path keeps where it leads, whatever it is seen from, and what is left are
steps to parents, in a relative path only, and then names. So every directory of the host in which
no marker is left is mounted from a plain path. -/
theorem normalize_keeps_place :
    (∀ p : Path,
      (∀ start, p.normalize.landingFrom start = p.landingFrom start) ∧
      (∀ fs : Files, fs.LinkFree → ∀ followLast links start q,
        fs.walk followLast links (p.startFrom start) p.steps = .ok q →
        fs.walk followLast links (p.normalize.startFrom start) p.normalize.steps = .ok q) ∧
      (∃ (ups : Nat) (names : List (List Char)), p.normalize.components =
        (if p.absolute then [.root] else List.replicate ups .parent) ++ names.map .name) ∧
      p.normalize.absolute = p.absolute ∧
      p.normalize.normalize = p.normalize) ∧
    ∀ ctx : Context, ctx.IsRooted → ∀ project stage storage mount mounts,
      resolveMounts ctx project stage storage mount = .ok mounts →
      List.Forall₂ (fun d m => m.scope = d.1 ∧ m.key = d.2.1 ∧
        ∀ text, m.target = .bind text → ∃ raw, d.2.2.hostPath? = some raw ∧
          (hasComposeMarker (trim raw) = false → (Path.ofString text).IsPlain))
        (declarations storage mount) mounts := by
  constructor
  · intro p
    refine ⟨fun start => p.landingFrom_normalize start, ?_, ⟨_, _, p.components_normalize⟩,
      p.absolute_normalize, p.normalize_normalize⟩
    exact fun fs hlinks followLast links start q => Files.walk_normalize hlinks
  · intro ctx hctx project stage storage mount mounts h
    have hmapM : (declarations storage mount).mapM
        (fun d => resolveMount ctx project stage d.1 d.2.1 d.2.2) = .ok mounts := h
    refine (Outcome.mapM_eq_ok_iff.1 hmapM).imp fun d m hm => ⟨?_, ?_, fun text htext => ?_⟩
    · obtain ⟨-, -, -, -, -, -, -, rfl⟩ := exists_of_resolveMount hm
      rfl
    · obtain ⟨-, -, -, -, -, -, -, rfl⟩ := exists_of_resolveMount hm
      rfl
    · exact hctx.isPlain_of_resolveMount hm htext

/-- A directory in another one, where relative paths start. -/
def Files.nested : Files :=
  ⟨[([['a']], .directory 0o755), ([['a'], ['b']], .directory 0o755)], [['a']]⟩

/-- A project and a home directory with nothing in them. -/
def Context.withHome : Context :=
  ⟨fun _ => none, ⟨true, [['a'], ['.'], ['b']]⟩, some ⟨true, [['h']]⟩, none, false, .compose,
    .nested⟩

lemma Context.isRooted_withHome : Context.withHome.IsRooted := by
  refine ⟨⟨rfl, by decide⟩, ?_, ?_⟩
  · rintro home hhome
    obtain rfl := Option.some.inj hhome
    exact ⟨rfl, by decide⟩
  · refine (Files.isTree_of_forall ?_ ⟨_, rfl⟩).hasPlainPaths
    intro e he
    simp only [withHome, Files.nested, List.mem_cons, List.not_mem_nil, or_false] at he
    rcases he with rfl | rfl <;> exact ⟨⟨_, rfl⟩, by decide⟩

/-- A path up to the root and beyond, and two directories of which only one exists. -/
theorem normalize_keeps_place_of_ascent :
    ((Path.ofString "../../a/./b/..").normalize = Path.ofString "../../a" ∧
      Files.nested.walk true 0 [['a']] (Path.ofString "../../a/./b/..").steps = .ok [['a']] ∧
      Files.nested.walk true 0 [['a']] (Path.ofString "../../a").steps = .ok [['a']]) ∧
    resolveMounts .withHome ⟨"d"⟩ .first (mountOf "~/../../n/./x") (mountOf "..") =
      .ok [⟨"m", .storage, .bind "/n/x", "/m"⟩, ⟨"m", .mount, .bind "/a", "/m"⟩] ∧
    (Path.ofString "/n/x").IsPlain ∧ (Path.ofString "/a").IsPlain := by
  have hlinks : Files.nested.LinkFree := Files.linkFree_of_forall (by simp [Files.nested])
  have hfold : (Path.ofString "../../a/./b/..").normalize = Path.ofString "../../a" := by decide
  have hwalk : Files.nested.walk true 0 [['a']] (Path.ofString "../../a/./b/..").steps =
      .ok [['a']] := by rfl
  have hmounts : resolveMounts .withHome ⟨"d"⟩ .first (mountOf "~/../../n/./x") (mountOf "..") =
      .ok [⟨"m", .storage, .bind "/n/x", "/m"⟩, ⟨"m", .mount, .bind "/a", "/m"⟩] :=
    Outcome.toOption_eq_some_iff.1 (by decide +kernel)
  have hfolded := (normalize_keeps_place.1 (Path.ofString "../../a/./b/..")).2.1 _ hlinks true 0
    [['a']] _ hwalk
  rw [hfold] at hfolded
  refine ⟨⟨hfold, hwalk, hfolded⟩, hmounts, ?_⟩
  obtain _ | ⟨⟨-, -, hfirst⟩, _ | ⟨⟨-, -, hsecond⟩, -⟩⟩ :=
    normalize_keeps_place.2 _ Context.isRooted_withHome _ _ _ _ _ hmounts
  obtain ⟨raw, hraw, hplain⟩ := hfirst _ rfl
  obtain ⟨raw', hraw', hplain'⟩ := hsecond _ rfl
  obtain rfl : "~/../../n/./x" = raw := Option.some.inj hraw
  obtain rfl : ".." = raw' := Option.some.inj hraw'
  exact ⟨hplain (by decide +kernel), hplain' (by decide +kernel)⟩

end TwoStage
