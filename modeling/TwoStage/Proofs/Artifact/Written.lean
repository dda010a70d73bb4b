import TwoStage.Proofs.Files.Growth

/-!
# Artifacts that have been written

When all artifacts have been written, to places that differ, each of them is found where it belongs
with the contents that it was written with: none has been lost to a later one.
-/

namespace TwoStage

open Files

variable {fs fs' : Files} {root : Path} {a : Artifact} {items : List Artifact}

/-- Where a file goes below a directory, whatever is there. -/
def Artifact.place (fs : Files) (root : Path) (a : Artifact) : Location :=
  fs.landing (a.destination root)

/-- The file is on disk as it was generated. -/
def Artifact.IsOnDisk (fs : Files) (root : Path) (a : Artifact) : Prop :=
  ∃ mode, fs.find (a.destination root) = .ok (a.place fs root, .file a.bytes mode)

namespace Artifact

lemma place_eq {targets : List Location} (h : fs.Grows fs' targets) (a : Artifact) :
    a.place fs' root = a.place fs root := h.landing _

/-- A file that is not written again stays on disk. -/
lemma IsOnDisk.grows {targets : List Location} (ha : a.IsOnDisk fs root) (hlinks : fs.LinkFree)
    (h : fs.Grows fs' targets) (hplace : a.place fs root ∉ targets) : a.IsOnDisk fs' root := by
  obtain ⟨mode, hfind⟩ := ha
  exact ⟨mode, place_eq h a ▸ h.find_file hlinks hfind hplace⟩

/-- What writing one file does. -/
lemma grows_of_write (hlinks : fs.LinkFree) (h : a.write fs root = (fs', .ok ())) :
    fs.Grows fs' [a.place fs root] ∧ a.IsOnDisk fs' root := by
  unfold write at h
  dsimp only at h
  split at h
  next => simp at h
  next made hmade =>
    have hgrows := grows_makeDirectories fs ((a.destination root).parent?.getD (Path.ofString "."))
    rw [hmade] at hgrows
    split at h
    next => simp at h
    next written hreplace =>
      obtain rfl := (Prod.mk.inj h).1
      obtain ⟨hwritten, hfind⟩ := replace_eq_ok (hgrows.linkFree hlinks) hreplace
      have hall := hgrows.trans hwritten
      rw [List.nil_append, hgrows.landing] at hall
      refine ⟨hall, a.mode.bits, ?_⟩
      rw [place, hwritten.landing]
      exact hfind

end Artifact

namespace Artifacts

/-- No two files go to one place. -/
def Apart (fs : Files) (root : Path) (items : List Artifact) : Prop :=
  items.Pairwise fun a b => a.place fs root ≠ b.place fs root

/-- What writing all files does: the tree grows by them, and all of them are on disk. -/
lemma grows_of_writeItems {paths : List Path} (hlinks : fs.LinkFree) (hapart : Apart fs root items)
    (h : writeItems root fs items = (fs', .ok paths)) :
    fs.Grows fs' (items.map (Artifact.place fs root)) ∧ ∀ a ∈ items, a.IsOnDisk fs' root := by
  induction items generalizing fs paths with
  | nil =>
    obtain rfl := (Prod.mk.inj h).1
    exact ⟨.refl fs, by simp⟩
  | cons a items ih =>
    unfold writeItems at h
    split at h
    next => simp at h
    next made hwrite =>
      obtain ⟨hgrows, hdisk⟩ := Artifact.grows_of_write hlinks hwrite
      have hlinks' := hgrows.linkFree hlinks
      cases hrest : writeItems root made items with
      | mk after result =>
        simp only [hrest, Prod.mk.injEq] at h
        obtain ⟨rfl, hresult⟩ := h
        obtain ⟨paths', rfl, -⟩ := Outcome.map_eq_ok_iff.1 hresult
        -- the tree has grown meanwhile, but each file still goes to the place it had
        have hplaces : Artifact.place made root = Artifact.place fs root :=
          funext fun b => Artifact.place_eq hgrows b
        obtain ⟨hfirst, hothers⟩ := List.pairwise_cons.1 hapart
        obtain ⟨hgrows', hdisk'⟩ := ih hlinks' (by rwa [Apart, hplaces]) hrest
        rw [hplaces] at hgrows'
        refine ⟨hgrows.trans hgrows', List.forall_mem_cons.2 ⟨?_, hdisk'⟩⟩
        refine hdisk.grows hlinks' hgrows' fun hmem => ?_
        obtain ⟨b, hb, heq⟩ := List.mem_map.1 hmem
        rw [hplaces] at heq
        exact hfirst b hb heq.symm

/-- Files that are on disk as they were generated have not drifted. -/
lemma drift_eq_unchanged {as : Artifacts} (h : ∀ a ∈ as.items, a.IsOnDisk fs root) :
    as.drift fs root = .ok (as.items.map fun a => (a.path, .unchanged)) := by
  rw [drift, Outcome.mapM_eq_ok_iff, List.forall₂_map_right_iff, List.forall₂_same]
  intro a ha
  obtain ⟨mode, hfind⟩ := h a ha
  have hread : fs.read (a.destination root) = .ok a.bytes := by
    rw [Files.read, hfind]
    rfl
  have hdrift : a.drift fs root = .ok .unchanged := by
    rw [Artifact.drift, hread]
    simp [Artifact.digest]
  rw [hdrift]
  rfl

end Artifacts

end TwoStage
