import Mathlib.Data.List.Infix
import TwoStage.Proofs.Files.Links
import TwoStage.Proofs.Mount.Rules

/-!
# Directories of the host within the project

In strict mode the real path of a directory is compared with that of the project. What exists as a
whole is followed through its links first, so that it stands where its real path says. Anything else
is folded as it is written: it stands in the project as well, unless a link on its way leads out of
there.
-/

namespace TwoStage

open Text

/-! ### Written paths -/

namespace Path

/-- No segment of the path holds a slash, so that its text writes it. -/
def IsWritten (p : Path) : Prop := ∀ s ∈ p.segments, '/' ∉ s

instance (p : Path) : Decidable p.IsWritten := inferInstanceAs (Decidable (∀ _ ∈ _, _))

variable {p q : Path}

lemma isWritten_ofChars (cs : List Char) : (ofChars cs).IsWritten := by
  unfold ofChars
  split
  next => simp [IsWritten]
  next => exact fun s => notMem_of_mem_splitAll
  next => exact fun s => notMem_of_mem_splitAll

lemma IsWritten.join (hp : p.IsWritten) (hq : q.IsWritten) : (p.join q).IsWritten :=
  IsParted.join hp hq

/-- What a place holds below the root is made of names. -/
lemma components_ofLocation {place : Location} (h : ∀ s ∈ place, IsName (String.ofList s)) :
    (ofLocation place).components = .root :: place.map .name := by
  have hsteps : place.filterMap step? = place.map .name := by
    rw [← List.filterMap_eq_map]
    exact List.filterMap_congr fun s hs => by simpa using (h s hs).step
  rw [components, ofLocation, if_pos rfl, hsteps]

lemma ofLocation_startsWith_iff {place root : Location}
    (hplace : ∀ s ∈ place, IsName (String.ofList s))
    (hroot : ∀ s ∈ root, IsName (String.ofList s)) :
    (ofLocation place).startsWith (ofLocation root) = true ↔ root <+: place := by
  rw [startsWith, components_ofLocation hplace, components_ofLocation hroot,
    List.isPrefixOf_iff_prefix, List.cons_prefix_cons, List.prefix_map_iff_of_injective]
  · simp
  · exact fun _ _ => Component.name.inj

lemma root_notMem_foldStep {acc : List Component} {c : Component} (hacc : .root ∉ acc)
    (hc : c ≠ .root) : .root ∉ foldStep acc c := by
  unfold foldStep
  split
  next => exact hacc
  next => exact fun hroot => hacc (List.mem_cons_of_mem _ hroot)
  next => simp at hacc
  next => simp [hacc, hc.symm]

lemma root_notMem_filterMap_step? (ss : List (List Char)) :
    Component.root ∉ ss.filterMap step? := by
  intro hroot
  obtain ⟨s, -, hs⟩ := List.mem_filterMap.1 hroot
  rcases Files.step?_eq_cases s with ⟨hstep, -⟩ | ⟨hstep, -⟩ | ⟨hstep, -⟩ <;> simp [hs] at hstep

/-- Folding does not take a relative path to the root. -/
lemma absolute_of_normalize_startsWith {root : Location}
    (h : p.normalize.startsWith (ofLocation root) = true) : p.absolute = true := by
  by_contra hp
  have hcomponents : .root ∉ p.components := by
    rw [components, if_neg hp]
    have hsteps := root_notMem_filterMap_step? p.segments
    split <;> simp [hsteps]
  have hfold : .root ∉ (p.components.foldl foldStep []).reverse := by
    rw [List.mem_reverse]
    refine List.foldlRecOn p.components foldStep (motive := (.root ∉ ·)) List.not_mem_nil ?_
    exact fun acc hacc c hc => root_notMem_foldStep hacc fun heq => hcomponents (heq ▸ hc)
  have habsolute : p.normalize.absolute = false := by
    refine decide_eq_false fun hhead => hfold ?_
    exact List.mem_of_mem_head? (Option.mem_def.2 hhead)
  have hroot : .root ∈ p.normalize.components := by
    rw [startsWith, List.isPrefixOf_iff_prefix] at h
    exact h.subset (by simp [components, ofLocation])
  rw [components, habsolute, if_neg Bool.false_ne_true] at hroot
  have hsteps := root_notMem_filterMap_step? p.normalize.segments
  split at hroot <;> simp [hsteps] at hroot

end Path

/-! ### Where real paths stand -/

namespace Files

variable {fs : Files} {p : Path} {root place : Location}

lemma isName_of_mem_foldl_move {segments : List (List Char)} (hsegments : ∀ s ∈ segments, '/' ∉ s)
    (hplace : ∀ s ∈ place, Path.IsName (String.ofList s)) :
    ∀ s ∈ (segments.map Step.ofSegment).foldl Step.move place, Path.IsName (String.ofList s) := by
  induction segments generalizing place with
  | nil => exact hplace
  | cons t segments ih =>
    rw [List.forall_mem_cons] at hsegments
    refine ih hsegments.2 ?_
    rcases step?_eq_cases t with ⟨-, hmove⟩ | ⟨-, hmove⟩ | ⟨hstep, hmove⟩
    · rwa [hmove]
    · rw [hmove]
      exact fun s hs => hplace s (List.mem_of_mem_dropLast hs)
    · rw [hmove]
      refine List.forall_mem_append.2 ⟨hplace, ?_⟩
      have hname : Path.IsName (String.ofList t) :=
        ⟨by simpa using hsegments.1, by simpa using hstep⟩
      simpa using hname

/-- A real path that starts with the one of a place leads down from there by names, and if it is
the path of something, then without a link. -/
lemma IsTree.exists_realPath_eq (h : fs.IsTree) (hp : p.IsWritten)
    (hroot : ∀ s ∈ root, Path.IsName (String.ofList s))
    (hstarts : (fs.realPath p).startsWith (.ofLocation root) = true) :
    ∃ names, fs.realPath p = .ofLocation (root ++ names) ∧
      (∀ s ∈ root ++ names, Path.IsName (String.ofList s)) ∧
      (fs.hasAny p = true → fs.Linkless (root ++ names)) := by
  unfold realPath canonicalize hasAny at *
  cases hfind : fs.find p with
  | ok found =>
    obtain ⟨q, node⟩ := found
    simp only [hfind, Except.map] at hstarts ⊢
    -- what exists is known by the place it is found at, and no name on the way there is a link
    obtain ⟨-, hnode, hlinkless⟩ := h.leads_of_find hfind
    have hq := h.isName_of_mem hnode
    obtain ⟨names, rfl⟩ := (Path.ofLocation_startsWith_iff hq hroot).1 hstarts
    exact ⟨names, rfl, hq, fun _ => hlinkless⟩
  | error e =>
    simp only [hfind, Except.map] at hstarts ⊢
    -- what does not exist is known by its folded path, which keeps to the names
    have habsolute := Path.absolute_of_normalize_startsWith hstarts
    have hfolded : .ofLocation (fs.landing p) = p.normalize := ofLocation_landing habsolute
    rw [← hfolded] at hstarts ⊢
    have hlanding : ∀ s ∈ fs.landing p, Path.IsName (String.ofList s) := by
      rw [landing, start, if_pos habsolute]
      exact isName_of_mem_foldl_move hp (by simp)
    obtain ⟨names, hnames⟩ := (Path.ofLocation_startsWith_iff hlanding hroot).1 hstarts
    rw [← hnames] at hlanding ⊢
    exact ⟨names, rfl, hlanding, fun hany => by simp [Except.toOption] at hany⟩

/-! ### Ways out -/

/-- On the way down from a place inside of a root stands a link that does not lead inside. -/
def HasWayOut (fs : Files) (root place : Location) (names : List (List Char)) : Prop :=
  ∃ before name after above target, names = before ++ name :: after ∧
    fs.Leads place (before.map .down) above ∧ root <+: above ∧
    fs.node? (above ++ [name]) = some (.link target) ∧
    ¬ ∃ q, fs.Leads (origin above target) target.steps q ∧ root <+: q

/-- The text denotes a place inside of a root. -/
def DenotesWithin (fs : Files) (root : Location) (text : String) : Prop :=
  ∃ q, fs.Denotes text q ∧ root <+: q

/-- Names lead out of a root only through a link. -/
lemma exists_leads_within {names : List (List Char)} (hplace : root <+: place)
    (h : ¬ fs.HasWayOut root place names) :
    ∃ q, fs.Leads place (names.map .down) q ∧ root <+: q := by
  induction names generalizing place with
  | nil => exact ⟨place, .arrived place, hplace⟩
  | cons name names ih =>
    by_cases hnode : ∃ target, fs.node? (place ++ [name]) = some (.link target)
    · obtain ⟨target, hnode⟩ := hnode
      -- a link inside of the root that did not lead to a place there would be the way out
      have hinside : ∃ q, fs.Leads (origin place target) target.steps q ∧ root <+: q := by
        by_contra hout
        exact h ⟨[], name, names, place, target, rfl, .arrived place, hplace, hnode, hout⟩
      obtain ⟨q, hq, hrootq⟩ := hinside
      have hname : fs.Leads place [.down name] q := .link hnode (by simpa using hq)
      have hrest : ¬ fs.HasWayOut root q names := by
        rintro ⟨before, name', after, above, target', rfl, hbefore, habove, hlink, hout⟩
        exact h ⟨name :: before, name', after, above, target', rfl, hname.append hbefore, habove,
          hlink, hout⟩
      obtain ⟨q', hq', hrootq'⟩ := ih hrootq hrest
      exact ⟨q', hname.append hq', hrootq'⟩
    · have hname : ∀ target, fs.node? (place ++ [name]) ≠ some (.link target) :=
        fun target htarget => hnode ⟨target, htarget⟩
      have hrest : ¬ fs.HasWayOut root (place ++ [name]) names := by
        rintro ⟨before, name', after, above, target', rfl, hbefore, habove, hlink, hout⟩
        exact h ⟨name :: before, name', after, above, target', rfl, .down hname hbefore, habove,
          hlink, hout⟩
      obtain ⟨q, hq, hrootq⟩ := ih (hplace.trans (List.prefix_append _ _)) hrest
      exact ⟨q, .down hname hq, hrootq⟩

/-- The path of a place below a root denotes a place inside, if no link leads out on the way. -/
lemma denotesWithin_of_not_hasWayOut {names : List (List Char)} (hlinkless : fs.Linkless root)
    (hnames : ∀ s ∈ root ++ names, Path.IsName (String.ofList s))
    (h : ¬ fs.HasWayOut root root names) :
    fs.DenotesWithin root (Path.ofLocation (root ++ names)).text := by
  obtain ⟨q, hq, hrootq⟩ := exists_leads_within (List.prefix_refl root) h
  refine ⟨q, (denotes_ofLocation_iff hnames).2 ?_, hrootq⟩
  rw [List.map_append]
  exact hlinkless.leads_root.append hq

lemma denotesWithin_of_linkless {names : List (List Char)}
    (hnames : ∀ s ∈ root ++ names, Path.IsName (String.ofList s))
    (h : fs.Linkless (root ++ names)) :
    fs.DenotesWithin root (Path.ofLocation (root ++ names)).text :=
  ⟨root ++ names, (denotes_ofLocation_iff hnames).2 h.leads_root, List.prefix_append _ _⟩

end Files

/-! ### Mounts in strict mode -/

/-- The context as it is read: a tree of files, and paths that are written somewhere. -/
structure Context.IsRead (ctx : Context) : Prop where
  files : ctx.files.IsTree
  project : ctx.projectDir.IsWritten
  home : ∀ home ∈ ctx.home?, home.IsWritten

/-- The declarations of a stage, by their sections and keys. -/
def declarations (storage mount : OrderedMap String StorageSection) :
    List (Scope × String × StorageSection) :=
  storage.entries.map (fun (key, s) => (Scope.storage, key, s)) ++
    mount.entries.map (fun (key, s) => (Scope.mount, key, s))

variable {ctx : Context} {root : Location}

lemma Context.isWritten_userPath (hproject : ctx.projectDir.IsWritten)
    (hhome : ∀ home ∈ ctx.home?, home.IsWritten) {raw : String} {p : Path}
    (hp : ctx.userPath? raw = some p) : p.IsWritten := by
  rcases eq_of_userPath? hp with hp | ⟨dir, cs, rfl | hdir, -, rfl⟩
  · exact hhome p hp
  · exact hproject.join (Path.isWritten_ofChars cs)
  · exact (hhome dir hdir).join (Path.isWritten_ofChars cs)

/-- The real path of an existing directory is the path of its place. -/
lemma Files.realPath_of_find {fs : Files} {p : Path} {node : FileNode}
    (h : fs.find p = .ok (root, node)) : fs.realPath p = .ofLocation root := by
  rw [realPath, canonicalize, h]
  rfl

/-- What strict mode accepts as a directory of the host. -/
lemma hostDirectory_strict (hstrict : ctx.strictHostPaths = true) {path raw text : String}
    (h : hostDirectory ctx path raw = .ok text) :
    hasComposeMarker raw = false ∧ ∃ p, ctx.userPath? raw = some p ∧
      text = (ctx.files.realPath p).text ∧
      (ctx.files.realPath p).startsWith (ctx.files.realPath ctx.projectDir) = true := by
  rcases hostDirectory_eq_ok_iff.1 h with ⟨-, hnot, -⟩ | ⟨hmarker, p, hp, hstarts, rfl⟩
  · exact absurd hstrict hnot
  · exact ⟨hmarker, p, hp, rfl, hstarts hstrict⟩

/-- What strict mode accepts of a declaration. -/
lemma resolveMount_strict {project : Project} {stage : Stage} {scope : Scope} {key : String}
    {s : StorageSection} {m : Mount} (hstrict : ctx.strictHostPaths = true)
    (h : resolveMount ctx project stage scope key s = .ok m) :
    m.scope = scope ∧ m.key = key ∧
      (s.kind = .host → ∀ raw, s.hostPath? = some raw → hasComposeMarker (trim raw) = false) ∧
      ∀ text, m.target = .bind text → ∃ raw p, s.hostPath? = some raw ∧
        ctx.userPath? (trim raw) = some p ∧ text = (ctx.files.realPath p).text ∧
        (ctx.files.realPath p).startsWith (ctx.files.realPath ctx.projectDir) = true := by
  obtain ⟨source, destination, target, path, hkept, -, hmounted, rfl⟩ := exists_of_resolveMount h
  refine ⟨rfl, rfl, fun hhost raw hraw => ?_, fun text htext => ?_⟩
  · cases hkept with
    | @host _ raw' _ hraw' =>
      obtain rfl := Option.some.inj (hraw.symm.trans hraw')
      cases hmounted with
      | host hsource hdirectory =>
        obtain rfl := StorageSource.host.inj hsource
        exact (hostDirectory_strict hstrict hdirectory).1
      | _ hsource => simp at hsource
    | _ hkind => simp [hhost] at hkind
  · obtain rfl : target = .bind text := htext
    cases hmounted with
    | host hsource hdirectory =>
      obtain rfl : source = .host _ := hsource
      cases hkept with
      | host _ hraw =>
        obtain ⟨-, p, hp, rfl, hstarts⟩ := hostDirectory_strict hstrict hdirectory
        exact ⟨_, p, hraw, hp, rfl, hstarts⟩

/-- In strict mode no marker is left in a directory of the host, and each of them is a place in the
project: it denotes one there if it exists as a whole, or if no link on its way leads out. -/
theorem resolveMounts_strict {project : Project} {stage : Stage} {mode : Nat}
    {storage mount : OrderedMap String StorageSection} {mounts : List Mount}
    (hread : ctx.IsRead) (hstrict : ctx.strictHostPaths = true)
    (hproject : ctx.files.find ctx.projectDir = .ok (root, .directory mode))
    (h : resolveMounts ctx project stage storage mount = .ok mounts) :
    (∀ scope key s, (scope, key, s) ∈ declarations storage mount → s.kind = .host →
      ∀ raw, s.hostPath? = some raw → hasComposeMarker (trim raw) = false) ∧
    ∀ m ∈ mounts, ∀ text, m.target = .bind text →
      ∃ s raw p names, (m.scope, m.key, s) ∈ declarations storage mount ∧
        s.hostPath? = some raw ∧ ctx.userPath? (trim raw) = some p ∧
        text = (Path.ofLocation (root ++ names)).text ∧
        (ctx.files.hasAny p = true ∨ ¬ ctx.files.HasWayOut root root names →
          ctx.files.DenotesWithin root text) := by
  have hmapM : (declarations storage mount).mapM
      (fun d => resolveMount ctx project stage d.1 d.2.1 d.2.2) = .ok mounts := h
  obtain ⟨-, hnode, hlinkless⟩ := hread.files.leads_of_find hproject
  constructor
  · intro scope key s hs hkind raw hraw
    obtain ⟨m, -, hm⟩ := Outcome.exists_result_of_mem hmapM hs
    exact (resolveMount_strict hstrict hm).2.2.1 hkind raw hraw
  · intro m hm text htext
    obtain ⟨⟨scope, key, s⟩, hs, hm⟩ := Outcome.exists_of_mem_mapM hmapM hm
    obtain ⟨rfl, rfl, -, hbind⟩ := resolveMount_strict hstrict hm
    obtain ⟨raw, p, hraw, hp, rfl, hstarts⟩ := hbind text htext
    rw [Files.realPath_of_find hproject] at hstarts
    obtain ⟨names, heq, hnames, hexists⟩ :=
      hread.files.exists_realPath_eq (ctx.isWritten_userPath hread.project hread.home hp)
        (hread.files.isName_of_mem hnode) hstarts
    rw [heq]
    refine ⟨s, raw, p, names, hs, hraw, hp, rfl, ?_⟩
    rintro (hany | hway)
    · exact Files.denotesWithin_of_linkless hnames (hexists hany)
    · exact Files.denotesWithin_of_not_hasWayOut hlinkless hnames hway

/-! ### A link out of the project -/

/-- A project with a directory and a link to another one beside the project. -/
def Files.withWayOut : Files :=
  ⟨[([['p']], .directory 0o755), ([['q']], .directory 0o755),
    ([['p'], ['d']], .directory 0o755), ([['p'], ['o']], .link ⟨true, [['q']]⟩)], []⟩

/-- Strict mode in the project. -/
def Context.withWayOut : Context :=
  ⟨fun _ => none, ⟨true, [['p']]⟩, none, none, true, .compose, .withWayOut⟩

def mountOf (hostPath : String) : OrderedMap String StorageSection :=
  ⟨[("m", ⟨.host, some hostPath, none, some "/m"⟩)]⟩

lemma Context.isRead_withWayOut : Context.withWayOut.IsRead := by
  refine ⟨Files.isTree_of_forall ?_ ⟨_, rfl⟩, by decide, by simp [withWayOut]⟩
  intro e he
  simp only [withWayOut, Files.withWayOut, List.mem_cons, List.not_mem_nil, or_false] at he
  rcases he with rfl | rfl | rfl | rfl <;> exact ⟨⟨_, rfl⟩, by decide⟩

/-- The directory is reached through the link, from outside of the project. -/
theorem resolveMounts_strict_of_return :
    resolveMounts .withWayOut ⟨"d"⟩ .first .empty (mountOf "o/../p/d") =
        .ok [⟨"m", .mount, .bind "/p/d", "/m"⟩] ∧
      Context.withWayOut.files.DenotesWithin [['p']] "/p/d" := by
  have hproject : Context.withWayOut.files.find Context.withWayOut.projectDir =
      .ok ([['p']], .directory 0o755) := by decide
  have hmounts : resolveMounts .withWayOut ⟨"d"⟩ .first .empty (mountOf "o/../p/d") =
      .ok [⟨"m", .mount, .bind "/p/d", "/m"⟩] :=
    Outcome.toOption_eq_some_iff.1 (by decide +kernel)
  obtain ⟨s, raw, p, names, hs, hraw, hp, -, hinside⟩ :=
    (resolveMounts_strict Context.isRead_withWayOut rfl hproject hmounts).2 _
      List.mem_cons_self _ rfl
  obtain rfl : s = ⟨.host, some "o/../p/d", none, some "/m"⟩ := by
    simpa [declarations, mountOf, OrderedMap.empty] using hs
  obtain rfl := Option.some.inj hraw
  have hany : (Context.withWayOut.userPath? (trim "o/../p/d")).all
      Context.withWayOut.files.hasAny = true := by decide +kernel
  rw [hp] at hany
  exact ⟨hmounts, hinside (.inl hany)⟩

/-- What is not there yet behind the link is accepted, and stands outside. -/
theorem exists_strict_mount_outside :
    ∃ mounts text,
      Context.withWayOut.IsRead ∧ Context.withWayOut.strictHostPaths = true ∧
      Context.withWayOut.files.find Context.withWayOut.projectDir =
        .ok ([['p']], .directory 0o755) ∧
      resolveMounts .withWayOut ⟨"d"⟩ .first .empty (mountOf "o/n") = .ok mounts ∧
      (∃ m ∈ mounts, m.target = .bind text) ∧
      ¬ Context.withWayOut.files.DenotesWithin [['p']] text := by
  refine ⟨[⟨"m", .mount, .bind "/p/o/n", "/m"⟩], "/p/o/n", Context.isRead_withWayOut, rfl,
    by decide, Outcome.toOption_eq_some_iff.1 (by decide +kernel), ⟨_, List.mem_cons_self, rfl⟩, ?_⟩
  have hq : Context.withWayOut.files.Denotes "/p/o/n" [['q'], ['n']] := by
    have hp : Context.withWayOut.files.node? [['p']] = some (.directory 0o755) := by decide
    have ho : Context.withWayOut.files.node? [['p'], ['o']] = some (.link ⟨true, [['q']]⟩) := by
      decide
    have hq : Context.withWayOut.files.node? [['q']] = some (.directory 0o755) := by decide
    have hn : Context.withWayOut.files.node? [['q'], ['n']] = none := by decide
    refine .down (fun target htarget => ?_) (.link ho (.down (fun target htarget => ?_)
      (.down (fun target htarget => ?_) (.arrived _))))
    · simpa using hp.symm.trans htarget
    · simpa using hq.symm.trans htarget
    · simpa using hn.symm.trans htarget
  rintro ⟨q, hdenotes, hroot⟩
  obtain rfl := hdenotes.unique hq
  exact absurd hroot (by decide)

end TwoStage
