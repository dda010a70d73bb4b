import Mathlib.Data.Set.Finite.Basic
import Mathlib.Data.Set.Finite.Range
import TwoStage.Layout
import TwoStage.Proofs.Artifact.Progress
import TwoStage.Proofs.Document.Characters

/-!
# Writing is atomic

However writing ends, at every step that can fail, a number of files have been written in full and
everything else is as it was, but for new directories. It ends well only if all files have been
written, and the error names the first one that has not. There is no moment in between at which a
destination holds anything but what it held before or the whole file.
-/

namespace TwoStage

open Files

variable {fs fs' t : Files} {root : Path} {items written waiting : List Artifact} {a : Artifact}

/-! ### Writing step by step -/

namespace Progress

/-- Each directory that is made on the way is a step. -/
lemma reaches_makeDirectories (t : Files) :
    Relation.ReflTransGen (Advance root) ⟨t, written, a :: waiting, none⟩
      ⟨(t.makeDirectories (a.directory root)).1, written, a :: waiting, none⟩ :=
  makeDirectoriesAlong_of_step
    (R := fun t t' => Relation.ReflTransGen (Advance root) ⟨t, written, a :: waiting, none⟩
      ⟨t', written, a :: waiting, none⟩)
    (fun _ => .refl) (fun h h' => h.trans h')
    (fun _ hp _ _ hmake => .single (.makeDirectory hp hmake)) t

/-- There is always a name left for a temporary file. -/
lemma exists_temporary (fs : Files) (above : Location) :
    ∃ name, temporaryPrefix <+: name ∧ fs.node? (above ++ [name]) = none := by
  have hinfinite :
      (Set.range fun k => above ++ [temporaryPrefix ++ List.replicate k 'a']).Infinite :=
    Set.infinite_range_of_injective fun k k' heq => by simpa using heq
  obtain ⟨_, ⟨k, rfl⟩, hplace⟩ :=
    hinfinite.exists_notMem_finset (fs.entries.map Prod.fst).toFinset
  rw [List.mem_toFinset] at hplace
  refine ⟨temporaryPrefix ++ List.replicate k 'a', List.prefix_append _ _, ?_⟩
  rw [node?, if_neg (by simp), List.lookup_eq_none_iff]
  rintro ⟨q, node⟩ he
  refine bne_iff_ne.2 ?_
  rintro rfl
  exact hplace (List.mem_map_of_mem he)

/-- To replace a file is to create a temporary one, fill it, give it its permissions and rename
it. -/
lemma reaches_of_replace (h : t.replace (a.destination root) a.bytes a.mode.bits = .ok fs') :
    Relation.ReflTransGen (Advance root) ⟨t, written, a :: waiting, none⟩
      ⟨fs', written ++ [a], waiting, none⟩ := by
  obtain ⟨q, hslot, hq, rfl⟩ := exists_of_replace h
  obtain ⟨-, -, last, above, -, -, -, rfl⟩ := exists_of_slot? hslot
  obtain ⟨name, hname, hnew⟩ := exists_temporary t above
  have hplace : above ++ [name] ≠ [] := by simp
  have hnode (contents : ByteArray) (mode : Nat) :
      (t.put (above ++ [name]) (.file contents mode)).node? (above ++ [name]) =
        some (.file contents mode) := by
    rw [node?_put hplace, if_pos rfl]
  have hcreate : Advance root ⟨t, written, a :: waiting, none⟩ _ := .create hslot hname hnew
  have hfill : Advance root ⟨_, written, a :: waiting, _⟩ _ :=
    .fill a.bytes (hnode .empty temporaryMode)
  have hpermit : Advance root ⟨_, written, a :: waiting, _⟩ _ :=
    .permit (hnode a.bytes temporaryMode)
  have hrename : Advance root ⟨_, written, a :: waiting, _⟩ _ :=
    .rename (hnode a.bytes a.mode.bits) (slot?_put hnew _ hslot)
      fun hr => hq (hr.of_put_file hplace)
  rw [put_put] at hfill hpermit
  rw [unlink_put hplace hnew] at hrename
  exact (((Relation.ReflTransGen.single hcreate).tail hfill).tail hpermit).tail hrename

/-- Writing one file takes it off those that wait if it succeeds, and makes directories only if it
fails. -/
lemma reaches_of_write {result : Except FileError Unit} (h : a.write t root = (fs', result)) :
    Relation.ReflTransGen (Advance root) ⟨t, written, a :: waiting, none⟩
      (match result with
        | .ok ()   => ⟨fs', written ++ [a], waiting, none⟩
        | .error _ => ⟨fs', written, a :: waiting, none⟩) := by
  have hmake : Relation.ReflTransGen (Advance root) ⟨t, written, a :: waiting, none⟩
      ⟨(t.makeDirectories (a.directory root)).1, written, a :: waiting, none⟩ :=
    reaches_makeDirectories t
  unfold Artifact.write at h
  dsimp only at h
  split at h
  next made e heq =>
    obtain ⟨rfl, rfl⟩ := Prod.mk.inj h
    rw [Artifact.directory, heq] at hmake
    exact hmake
  next made heq =>
    rw [Artifact.directory, heq] at hmake
    split at h
    next e hreplace =>
      obtain ⟨rfl, rfl⟩ := Prod.mk.inj h
      exact hmake
    next made' hreplace =>
      obtain ⟨rfl, rfl⟩ := Prod.mk.inj h
      exact hmake.trans (reaches_of_replace hreplace)

lemma ends_writeItems {result : Outcome (List Path)}
    (h : Reaches root fs items ⟨t, written, waiting, none⟩)
    (hwrite : Artifacts.writeItems root t waiting = (fs', result)) :
    Ends root fs items (fs', result.map (written.map (Artifact.destination root) ++ ·)) := by
  induction waiting generalizing t written result with
  | nil =>
    obtain ⟨rfl, rfl⟩ := Prod.mk.inj hwrite
    simpa [Except.map] using Ends.finished h
  | cons a waiting ih =>
    unfold Artifacts.writeItems at hwrite
    split at hwrite
    next made e hfirst =>
      obtain ⟨rfl, rfl⟩ := Prod.mk.inj hwrite
      exact .failed (h.trans (reaches_of_write hfirst))
    next made hfirst =>
      cases hrest : Artifacts.writeItems root made waiting with
      | mk after result' =>
        rw [hrest] at hwrite
        obtain ⟨rfl, rfl⟩ := Prod.mk.inj hwrite
        have hends := ih (h.trans (reaches_of_write hfirst)) hrest
        cases result' with
        | error e => exact hends
        | ok paths => simpa [Except.map] using hends

/-- What writing does is one way in which it can end. -/
lemma ends_write (fs : Files) (root : Path) (as : Artifacts) :
    Ends root fs as.items (as.write fs root) := by
  have hstart : Reaches root fs as.items ⟨fs, [], as.items, none⟩ := .refl
  rcases hwrite : as.write fs root with ⟨fs', e | paths⟩
  · exact ends_writeItems hstart hwrite
  · exact ends_writeItems hstart hwrite

end Progress

/-! ### What writing leaves -/

/-- The file is found at its destination, with its contents and its permissions. -/
def Artifact.IsWritten (fs : Files) (root : Path) (a : Artifact) : Prop :=
  fs.find (a.destination root) = .ok (a.place fs root, .file a.bytes a.mode.bits)

namespace Artifacts

/-- Some files have been written in full, and but for new directories all else is as it was. -/
structure Delivered (fs fs' : Files) (root : Path) (items : List Artifact) : Prop where
  written : ∀ a ∈ items, a.IsWritten fs' root
  kept : ∀ place, place ∉ items.map (Artifact.place fs root) → fs.Kept fs' place

/-- Either all files have been written, and the result is where they are, or those before one of
them, and the error names that one. -/
inductive Atomic (fs : Files) (root : Path) :
    List Artifact → Files × Outcome (List Path) → Prop
  | finished {fs' : Files} {items : List Artifact} (h : Delivered fs fs' root items) :
      Atomic fs root items (fs', .ok (items.map (Artifact.destination root)))
  | failed {fs' : Files} {written waiting : List Artifact} {a : Artifact}
      (h : Delivered fs fs' root written)
      (hkept : ∀ b ∈ a :: waiting, fs.Kept fs' (b.place fs root)) :
      Atomic fs root (written ++ a :: waiting)
        (fs', .error (.writeFailed (a.destination root)))

end Artifacts

namespace Progress

variable {s : Progress} {result : Files × Outcome (List Path)}

/-- When there is no temporary file, only what has been written is new. -/
lemma Sound.delivered (h : Sound root fs items ⟨t, written, waiting, none⟩) :
    Artifacts.Delivered fs t root written where
  written a ha :=
    have hstands := h.stands a ha
    find_of_passable hstands.check hstands.passable hstands.node (by simp)
  kept place hplace := h.kept place hplace (by simp)

section

variable (hroot : root.IsParted) (hfiled : Artifacts.Filed items)
  (hlinks : Artifacts.NoLinkAbove fs root items)

include hroot hfiled hlinks

lemma Ends.atomic (h : Ends root fs items result) : Artifacts.Atomic fs root items result := by
  cases h with
  | @finished fs' written h =>
    have hsound := h.sound hroot hfiled hlinks
    obtain rfl : written = items := (List.append_nil written).symm.trans hsound.all
    exact .finished hsound.delivered
  | @failed fs' written waiting a temporary? h =>
    have hsound : Sound root fs items
        ⟨temporary?.elim fs' fs'.unlink, written, a :: waiting, none⟩ := by
      cases temporary? with
      | none => exact h.sound hroot hfiled hlinks
      | some place => exact (h.sound hroot hfiled hlinks).unlink
    obtain rfl : written ++ a :: waiting = items := hsound.all
    refine .failed hsound.delivered fun b hb => hsound.delivered.kept _ fun hmem => ?_
    -- no file that waits has the place of one that is written
    have hapart : Artifacts.Apart fs root (written ++ a :: waiting) :=
      Artifacts.apart_of_nodup hroot hfiled.nodup hfiled.down
    obtain ⟨b', hb', heq⟩ := List.mem_map.1 hmem
    exact (List.pairwise_append.1 hapart).2.2 b' hb' b hb heq

/-- At every moment a file is there as a whole, or what was in its place still is. -/
lemma Reaches.whole_or_kept (h : Reaches root fs items s) (ha : a ∈ items) :
    s.files.node? (a.place fs root) = some (.file a.bytes a.mode.bits) ∨
      fs.Kept s.files (a.place fs root) := by
  have hsound := h.sound hroot hfiled hlinks
  by_cases hmem : a.place fs root ∈ s.written.map (Artifact.place fs root)
  · obtain ⟨b, hb, heq⟩ := List.mem_map.1 hmem
    have hnodup : (items.map (Artifact.place fs root)).Nodup :=
      List.pairwise_map.2 (Artifacts.apart_of_nodup hroot hfiled.nodup hfiled.down)
    obtain rfl :=
      List.inj_on_of_nodup_map hnodup (hsound.mem_items_of_mem_written hb) ha heq
    exact .inl (hsound.node?_of_mem hb)
  · exact .inr (hsound.kept _ hmem fun htemporary =>
      (hsound.temporary _ htemporary).2.1 (List.mem_map_of_mem ha))

end

end Progress

/-! ### What is emitted -/

namespace Artifacts

instance decidableNoLinkAbove (fs : Files) (root : Path) (items : List Artifact) :
    Decidable (NoLinkAbove fs root items) :=
  inferInstanceAs (Decidable (∀ place ∈ above fs root items,
    (fs.withDirectories (above fs root items)).Clear place))

variable {ctx : Context} {generator : Generator} {d : Document} {c : Compilation}
  {vars : String → Option String} {text : String} {source? : Option Path} {tree : Yaml.Tree}
  {as : Artifacts}

/-- The files of a compilation have paths of their own and no names of temporary files. -/
lemma filed_of_emit (hread : Document.ofText vars text = .ok d)
    (hprepare : Compilation.prepare ctx generator { d with source? } = .ok c)
    (hemit : Emission.emit c tree = .ok as) : Filed as.items := by
  have hprepared := Compilation.prepared_of_prepare hprepare
  obtain ⟨items, hfiles, rfl⟩ := Outcome.map_eq_ok_iff.1 hemit
  obtain ⟨hnodup, hdown⟩ := hprepared.paths_of_files hread hfiles
  rw [ofList_eq hnodup hdown]
  refine ⟨hnodup, hdown, fun a ha n hn => ?_⟩
  obtain ⟨name, hname, hlast⟩ := hprepared.exists_getLast?_path hread hfiles a ha
  obtain rfl := Option.some.inj (hlast.symm.trans hn)
  have hnames : ∀ name ∈ Emission.lastNames, ¬ temporaryPrefix <+: name.toList := by decide
  exact hnames name hname

/-- Writing what is emitted is atomic. Where no link in the place of a directory above a file leads
to a directory, it ends, whichever step fails, with a number of files written in full, the result
that tells of them, no temporary file, and all else as it was but for new directories; and at every
moment in between each destination holds the whole file or what it held before. -/
theorem atomic_write (hread : Document.ofText vars text = .ok d)
    (hprepare : Compilation.prepare ctx generator { d with source? } = .ok c)
    (hemit : Emission.emit c tree = .ok as) (hroot : root.IsParted)
    (hlinks : NoLinkAbove fs root as.items) :
    Progress.Ends root fs as.items (as.write fs root) ∧
    (∀ result, Progress.Ends root fs as.items result → Atomic fs root as.items result) ∧
    ∀ s, Progress.Reaches root fs as.items s → ∀ a ∈ as.items,
      s.files.node? (a.place fs root) = some (.file a.bytes a.mode.bits) ∨
        fs.Kept s.files (a.place fs root) := by
  have hfiled := filed_of_emit hread hprepare hemit
  refine ⟨Progress.ends_write fs root as, fun result h => h.atomic hroot hfiled hlinks, ?_⟩
  exact fun s h a ha => h.whole_or_kept hroot hfiled hlinks ha

/-- A project whose compose file is a link to a file, with a directory where a file belongs. -/
def blockedFiles : Files where
  entries :=
    [(["p".toList], .directory directoryMode),
      (["p".toList, "docker-compose.yml".toList], .link (Path.ofString "notes")),
      (["p".toList, "notes".toList], .file "mine".toUTF8 fileMode),
      (["p".toList, "stage-1".toList], .directory directoryMode),
      (["p".toList, "stage-1".toList, "generated".toList], .directory directoryMode),
      (["p".toList, "stage-1".toList, "generated".toList, "_custom-on-entry-path".toList],
        .directory directoryMode)]
  here := []

/-- The link is replaced and its target stays, and the directory is in the way. -/
theorem atomic_write_of_blockedFiles : ∃ d c tree as fs' e,
    Document.ofText (fun _ => none) "stage_1:\n image:\n  base: a" = .ok d ∧
    Compilation.prepare .bare .none { d with source? := none } = .ok c ∧
    Emission.emit c tree = .ok as ∧ NoLinkAbove blockedFiles (Path.ofString "/p") as.items ∧
    as.write blockedFiles (Path.ofString "/p") = (fs', .error e) ∧
    Atomic blockedFiles (Path.ofString "/p") as.items (fs', .error e) ∧
    fs'.node? ["p".toList, "notes".toList] = some (.file "mine".toUTF8 fileMode) := by
  have hrun : ((Document.ofText (fun _ => none)
      "stage_1:\n image:\n  base: a").toOption.bind fun d =>
      (Compilation.prepare .bare .none { d with source? := none }).toOption.bind fun c =>
        (Layout.render c).toOption.bind fun tree =>
          (Emission.emit c tree).toOption.map fun as =>
            let run := as.write blockedFiles (Path.ofString "/p")
            decide (NoLinkAbove blockedFiles (Path.ofString "/p") as.items ∧
              run.2.toOption.isNone ∧
              run.1.node? ["p".toList, "notes".toList] = some (.file "mine".toUTF8 fileMode))) =
      some true := by
    rw [Document.ofText_eq_ofChars, String.toList_ofList]
    decide +kernel
  obtain ⟨d, hd, hrun⟩ := Outcome.toOption_bind_eq_some_iff.1 hrun
  obtain ⟨c, hc, hrun⟩ := Outcome.toOption_bind_eq_some_iff.1 hrun
  obtain ⟨tree, -, hrun⟩ := Outcome.toOption_bind_eq_some_iff.1 hrun
  obtain ⟨as, has, hrun⟩ := Outcome.toOption_map_eq_some_iff.1 hrun
  obtain ⟨hlinks, hfailed, hnotes⟩ := of_decide_eq_true hrun
  obtain ⟨hends, hatomic, -⟩ := atomic_write hd hc has (Path.isParted_ofString _) hlinks
  rcases heq : as.write blockedFiles (Path.ofString "/p") with ⟨fs', e | paths⟩
  · rw [heq] at hends hnotes
    exact ⟨d, c, tree, as, fs', e, hd, hc, has, hlinks, heq, hatomic _ hends, hnotes⟩
  · simp [heq, Except.toOption] at hfailed

/-- A project in which the directory of the second stage is a link to that of the first, which has
not been made. -/
def danglingFiles : Files where
  entries :=
    [(["p".toList], .directory directoryMode),
      (["p".toList, "stage-2".toList], .link (Path.ofString "stage-1"))]
  here := []

/-- A document whose second stage has an entry point. -/
def entryText : String := "stage_1:\n image:\n  base: a\nstage_2:\n custom:\n  on_entry:\n   - /e"

/-- A link that leads nowhere comes to lead to a directory when that is made, and then what is
written through it replaces what has been written. -/
theorem exists_lost_artifact : ∃ d c tree as fs' paths,
    Document.ofText (fun _ => none) entryText = .ok d ∧
    Compilation.prepare .bare .none { d with source? := none } = .ok c ∧
    Layout.render c = .ok tree ∧ Emission.emit c tree = .ok as ∧
    (∀ place, danglingFiles.Clear place) ∧
    as.write danglingFiles (Path.ofString "/p") = (fs', .ok paths) ∧
    ∃ a ∈ as.items, fs'.read (a.destination (Path.ofString "/p")) ≠ .ok a.bytes := by
  have hrun : ((Document.ofText (fun _ => none) entryText).toOption.bind fun d =>
      (Compilation.prepare .bare .none { d with source? := none }).toOption.bind fun c =>
        (Layout.render c).toOption.bind fun tree =>
          (Emission.emit c tree).toOption.map fun as =>
            let run := as.write danglingFiles (Path.ofString "/p")
            run.2.toOption.isSome && as.items.any fun a =>
              decide (a.path = Path.ofString "stage-1/generated/_custom-on-entry-path" ∧
                (run.1.read (a.destination (Path.ofString "/p"))).toOption ≠ some a.bytes)) =
      some true := by
    rw [Document.ofText_eq_ofChars, entryText, String.toList_ofList]
    decide +kernel
  obtain ⟨d, hd, hrun⟩ := Outcome.toOption_bind_eq_some_iff.1 hrun
  obtain ⟨c, hc, hrun⟩ := Outcome.toOption_bind_eq_some_iff.1 hrun
  obtain ⟨tree, htree, hrun⟩ := Outcome.toOption_bind_eq_some_iff.1 hrun
  obtain ⟨as, has, hrun⟩ := Outcome.toOption_map_eq_some_iff.1 hrun
  have hclear : ∀ place, danglingFiles.Clear place := clear_of_forall (by decide)
  rw [Bool.and_eq_true, List.any_eq_true] at hrun
  obtain ⟨hwritten, a, ha, hlost⟩ := hrun
  obtain ⟨-, hlost⟩ := of_decide_eq_true hlost
  rcases heq : as.write danglingFiles (Path.ofString "/p") with ⟨fs', e | paths⟩
  · simp [heq, Except.toOption] at hwritten
  · rw [heq] at hlost
    refine ⟨d, c, tree, as, fs', paths, hd, hc, htree, has, hclear, heq, a, ha, fun hread => ?_⟩
    exact hlost (Outcome.toOption_eq_some_iff.2 hread)

end Artifacts

end TwoStage
