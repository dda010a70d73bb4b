import TwoStage.Proofs.Files.Below
import TwoStage.Proofs.Mount.Rules

/-!
# Mounts in a second run

Without links the directories of the host have the real paths that are written for them, as long as
they are seen from absolute ones. So it makes no difference which of them have come to exist.
-/

namespace TwoStage

/-- The directories of the project and of the user are absolute. -/
structure Context.IsAnchored (ctx : Context) : Prop where
  project : ctx.projectDir.IsPlain
  home : ∀ home ∈ ctx.home?, home.absolute = true

variable {ctx : Context} {fs' : Files}

lemma Path.absolute_join {p : Path} (h : p.absolute = true) (q : Path) :
    (p.join q).absolute = true := by
  have hne : p.toChars ≠ [] := by simp [toChars, h]
  unfold join
  split
  next hq => exact hq
  next => exact h

/-- Seen from absolute directories every path of the user is absolute. -/
lemma Context.absolute_userPath (hproject : ctx.projectDir.absolute = true)
    (hhome : ∀ home ∈ ctx.home?, home.absolute = true) {raw : String} {p : Path}
    (hp : ctx.userPath? raw = some p) : p.absolute = true := by
  rcases eq_of_userPath? hp with hp | ⟨dir, cs, rfl | hdir, -, rfl⟩
  · exact hhome p hp
  · exact Path.absolute_join hproject _
  · exact Path.absolute_join (hhome dir hdir) _

section

variable (hanchored : ctx.IsAnchored) (hlinks : ctx.files.LinkFree) (hlinks' : fs'.LinkFree)

include hanchored hlinks hlinks'

/-- A declared directory is the same one, whether it exists by now or not. -/
lemma hostDirectory_eq (path raw : String) :
    hostDirectory { ctx with files := fs' } path raw = hostDirectory ctx path raw := by
  have hproject : fs'.realPath ctx.projectDir = ctx.files.realPath ctx.projectDir := by
    rw [Files.realPath_eq hlinks hanchored.project.absolute,
      Files.realPath_eq hlinks' hanchored.project.absolute]
  have huser : Context.userPath? { ctx with files := fs' } raw = ctx.userPath? raw := rfl
  unfold hostDirectory
  dsimp only
  rw [huser, hproject]
  cases hp : ctx.userPath? raw with
  | none => rfl
  | some p =>
    have habsolute := Context.absolute_userPath hanchored.project.absolute hanchored.home hp
    dsimp only
    rw [Files.realPath_eq hlinks habsolute, Files.realPath_eq hlinks' habsolute]

lemma resolveMounts_eq (project : Project) (stage : Stage)
    (storage mount : OrderedMap String StorageSection) :
    resolveMounts { ctx with files := fs' } project stage storage mount =
      resolveMounts ctx project stage storage mount := by
  have htarget (path : String) (s : Storage) :
      mountTarget { ctx with files := fs' } project stage path s =
        mountTarget ctx project stage path s := by
    unfold mountTarget
    rw [funext (hostDirectory_eq hanchored hlinks hlinks' path)]
  unfold resolveMounts resolveMount
  simp only [htarget]

end

end TwoStage
