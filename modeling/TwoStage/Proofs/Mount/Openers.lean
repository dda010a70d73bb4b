import TwoStage.Proofs.Compilation.Prepared
import TwoStage.Proofs.Mount.Rules
import TwoStage.Proofs.Path

/-!
# Directories of the host without openers

Where a directory of the host is found, nothing but slashes is put between the names on its path. So
no opener is in there if the document has none and the host adds none: neither the directories that
paths start from nor the names that links lead to.
-/

namespace TwoStage

open Text

/-! ### Paths -/

namespace Path

variable {p q : Path} {ss : List (List Char)} {cs : List Char}

/-- A slash is no part of an opener, so an opener stands in one of the segments. -/
lemma openerFree_joinSegments_iff :
    OpenerFree (joinSegments ss) ↔ ∀ s ∈ ss, OpenerFree s := by
  induction ss with
  | nil => simp [joinSegments, OpenerFree.nil]
  | cons s ss ih =>
    rw [List.forall_mem_cons]
    cases ss with
    | nil => simp [joinSegments]
    | cons t ss =>
      rw [joinSegments, ← ih]
      constructor
      · intro h
        exact ⟨h.of_infix (List.prefix_append _ _).isInfix,
          h.of_infix ((List.suffix_cons _ _).trans (List.suffix_append _ _)).isInfix⟩
      · intro h
        exact h.1.append_cons (by decide) h.2

lemma openerFree_toChars_iff : OpenerFree p.toChars ↔ ∀ s ∈ p.segments, OpenerFree s := by
  rw [toChars, ← openerFree_joinSegments_iff]
  constructor
  · intro h
    exact h.of_infix (List.suffix_append _ _).isInfix
  · intro h
    apply h.of_bland_append
    split <;> decide

lemma openerFree_join (hp : OpenerFree p.toChars) (hq : OpenerFree q.toChars) :
    OpenerFree (p.join q).toChars := by
  have hsegments := openerFree_toChars_iff.1 hp
  unfold join
  split
  · exact hq
  · split
    · exact hq
    · rw [openerFree_toChars_iff, List.forall_mem_append]
      constructor
      · intro s hs
        split at hs
        · exact hsegments s (List.dropLast_subset _ hs)
        · exact hsegments s hs
      · intro s hs
        split at hs
        · obtain rfl := List.mem_singleton.1 hs
          exact .nil
        · exact openerFree_toChars_iff.1 hq s hs

/-! Folding keeps some of the steps and adds none. -/

lemma eq_or_mem_of_mem_foldStep {acc : List Component} {c d : Component} (h : d ∈ foldStep acc c) :
    d = c ∨ d ∈ acc := by
  unfold foldStep at h
  split at h
  · exact .inr h
  · exact .inr (List.mem_cons_of_mem _ h)
  · exact .inr h
  · exact List.mem_cons.1 h

lemma mem_of_mem_foldl_foldStep {cs acc : List Component} {d : Component}
    (h : d ∈ cs.foldl foldStep acc) : d ∈ cs ∨ d ∈ acc := by
  induction cs generalizing acc with
  | nil => exact .inr h
  | cons c cs ih =>
    rcases ih h with hd | hd
    · exact .inl (List.mem_cons_of_mem _ hd)
    · rcases eq_or_mem_of_mem_foldStep hd with rfl | hd
      · exact .inl List.mem_cons_self
      · exact .inr hd

lemma mem_segments_of_mem_components {s : List Char} (h : .name s ∈ p.components) :
    s ∈ p.segments := by
  have hstep : .name s ∈ p.segments.filterMap step? := by
    unfold components at h
    split at h
    · simpa using h
    · split at h
      · simpa using h
      · exact h
  obtain ⟨t, ht, hname⟩ := List.mem_filterMap.1 hstep
  unfold step? at hname
  split at hname
  · simp at hname
  · simp at hname
  · simp at hname
  · obtain rfl := Component.name.inj (Option.some.inj hname)
    exact ht

lemma openerFree_normalize (h : OpenerFree p.toChars) : OpenerFree p.normalize.toChars := by
  rw [openerFree_toChars_iff] at h ⊢
  intro s hs
  obtain ⟨c, hc, hsegment⟩ := List.mem_filterMap.1 hs
  cases c with
  | name t =>
    obtain rfl := Option.some.inj hsegment
    rcases mem_of_mem_foldl_foldStep (List.mem_reverse.1 hc) with hname | hname
    · exact h _ (mem_segments_of_mem_components hname)
    · exact absurd hname List.not_mem_nil
  | parent =>
    obtain rfl := Option.some.inj hsegment
    exact .of_bland (by decide)
  | current =>
    obtain rfl := Option.some.inj hsegment
    exact .of_bland (by decide)
  | root => simp [segmentOf?] at hsegment

end Path

/-! ### The host -/

/-- The host adds no opener to a path: there is none in the directories that paths start from, and
none in the real path of what is written without one. -/
structure Context.AddsNoOpener (ctx : Context) : Prop where
  project : OpenerFree ctx.projectDir.toChars
  home : ∀ home ∈ ctx.home?, OpenerFree home.toChars
  real : ∀ p q, OpenerFree p.toChars → ctx.files.canonicalize p = .ok q → OpenerFree q.toChars

/-- Real paths are made of the names in the file tree. -/
lemma Files.openerFree_of_canonicalize {fs : Files} {p q : Path}
    (h : ∀ e ∈ fs.entries, ∀ s ∈ e.1, OpenerFree s) (hq : fs.canonicalize p = .ok q) :
    OpenerFree q.toChars := by
  obtain ⟨⟨place, node⟩, hfind, rfl⟩ := Outcome.map_eq_ok_iff.1 hq
  obtain ⟨place', -, hfind⟩ := Outcome.bind_eq_ok_iff.1 hfind
  split at hfind
  next node' hnode =>
    obtain ⟨rfl, rfl⟩ := Prod.mk.inj (Outcome.pure_eq_ok_iff.1 hfind)
    rw [Path.openerFree_toChars_iff]
    unfold node? at hnode
    split at hnode
    next hroot => simp [Path.ofLocation, hroot]
    next =>
      obtain ⟨before, after, heq, -⟩ := List.lookup_eq_some_iff.1 hnode
      exact h (place', node') (by simp [heq])
  next => simp at hfind

namespace Context.AddsNoOpener

variable {ctx : Context} {raw : String} {p : Path}

lemma of_entries (hproject : OpenerFree ctx.projectDir.toChars)
    (hhome : ∀ home ∈ ctx.home?, OpenerFree home.toChars)
    (h : ∀ e ∈ ctx.files.entries, ∀ s ∈ e.1, OpenerFree s) : ctx.AddsNoOpener :=
  ⟨hproject, hhome, fun _ _ _ hq => Files.openerFree_of_canonicalize h hq⟩

variable (h : ctx.AddsNoOpener) (hraw : OpenerFree raw.toList)
include h

include hraw in
/-- The path that a user means by a text without openers has none. -/
lemma userPath (hp : ctx.userPath? raw = some p) : OpenerFree p.toChars := by
  rcases Context.eq_of_userPath? hp with hp | ⟨dir, cs, hdir, hcs, rfl⟩
  · exact h.home p hp
  · have hfree : OpenerFree (Path.ofChars cs).toChars := by
      rw [Path.toChars_ofChars]
      exact hraw.of_infix hcs.isInfix
    rcases hdir with rfl | hdir
    · exact Path.openerFree_join h.project hfree
    · exact Path.openerFree_join (h.home dir hdir) hfree

lemma realPath (hp : OpenerFree p.toChars) : OpenerFree (ctx.files.realPath p).toChars := by
  unfold Files.realPath
  split
  next q hq => exact h.real p q hp hq
  next => exact Path.openerFree_normalize hp

include hraw in
/-- The directory of the host that a text without openers means has none. -/
lemma hostDirectory {path text : String} (hdirectory : hostDirectory ctx path raw = .ok text) :
    OpenerFree text.toList := by
  rcases eq_of_hostDirectory hdirectory with rfl | ⟨p, hp, rfl⟩
  · exact hraw
  · rw [Path.text, String.toList_ofList]
    exact h.realPath (h.userPath hraw hp)

end Context.AddsNoOpener

/-! ### Mounts -/

/-- The directory of the host that a declaration without openers is mounted from has none. -/
lemma Context.AddsNoOpener.bind {ctx : Context} (hctx : ctx.AddsNoOpener) {project : Project}
    {stage : Stage} {scope : Scope} {key hostPath : String} {s : StorageSection} {m : Mount}
    (hs : s.Holds (OnChars OpenerFree)) (h : resolveMount ctx project stage scope key s = .ok m)
    (htarget : m.target = .bind hostPath) : OpenerFree hostPath.toList := by
  obtain ⟨source, destination, target, path, hkept, -, hmounted, rfl⟩ := exists_of_resolveMount h
  obtain rfl : target = .bind hostPath := htarget
  cases hmounted with
  | host hsource hdirectory =>
    obtain rfl := hsource
    cases hkept with
    | @host _ raw _ hraw =>
      apply hctx.hostDirectory _ hdirectory
      rw [trim, String.toList_ofList]
      exact OpenerFree.stable.trimmed (hs.hostPath raw hraw)

lemma Compilation.Prepared.openerFree_bind {ctx : Context} {generator : Generator} {d : Document}
    {c : Compilation} {vars : String → Option String} {text : String} {source? : Option Path}
    (h : Prepared ctx generator { d with source? } c) (hread : Document.ofText vars text = .ok d)
    (hctx : ctx.AddsNoOpener) (htree : d.tree.Holds (OnChars OpenerFree)) {stage : Stage}
    {m : Mount} (hm : m ∈ c.mounts stage) {hostPath : String}
    (htarget : m.target = .bind hostPath) : OpenerFree hostPath.toList := by
  have hspec := (h.spec_holds OpenerFree.stable hread htree).stage stage
  obtain ⟨⟨scope, key, s⟩, hmem, hmount⟩ := Outcome.exists_of_mem_mapM (h.mounts stage) hm
  refine hctx.bind ?_ hmount htarget
  rcases List.mem_append.1 hmem with hmem | hmem
  · obtain ⟨⟨key', s'⟩, he, heq⟩ := List.mem_map.1 hmem
    obtain ⟨rfl, rfl, rfl⟩ : _ ∧ _ ∧ _ := by simpa using heq
    exact (hspec.storage (key', s') he).2
  · obtain ⟨⟨key', s'⟩, he, heq⟩ := List.mem_map.1 hmem
    obtain ⟨rfl, rfl, rfl⟩ : _ ∧ _ ∧ _ := by simpa using heq
    exact hspec.mount (key', s') he

end TwoStage
