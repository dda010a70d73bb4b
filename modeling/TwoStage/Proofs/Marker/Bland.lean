import TwoStage.Proofs.Marker.Settled
import TwoStage.Proofs.Mount.Keys

/-!
# Bland texts

Numbers and names have no character that could begin an opener.
-/

namespace TwoStage

open Text Decimal

/-! ### Numbers -/

lemma bland_of_isDigit {c : Char} (h : c.isDigit = true) : c ≠ '$' ∧ c ≠ '\x7b' :=
  ⟨fun heq => absurd h (by rw [heq]; decide), fun heq => absurd h (by rw [heq]; decide)⟩

lemma bland_digits (n : Nat) : Bland (digits n) := fun _ hc =>
  bland_of_isDigit (Nat.isDigit_of_mem_toDigits (by decide) (by decide) hc)

lemma bland_natText (n : Nat) : Bland (natText n).toList := by
  rw [natText, String.toList_ofList]
  exact bland_digits n

lemma bland_intText (n : Int) : Bland (intText n).toList := by
  cases n with
  | ofNat m =>
    rw [intText, String.toList_ofList]
    exact bland_digits m
  | negSucc m =>
    rw [intText, String.toList_ofList, bland_cons]
    exact ⟨by decide, bland_digits (m + 1)⟩

lemma bland_withSign (negative : Bool) {cs : List Char} (h : Bland cs) :
    Bland (withSign negative cs).toList := by
  rw [withSign, String.toList_ofList]
  split
  · exact bland_cons.2 ⟨by decide, h⟩
  · exact h

lemma bland_zeros (n : Nat) : Bland (zeros n) := fun _ hc => by
  rw [List.eq_of_mem_replicate hc]
  decide

lemma bland_positional {ds : List Char} (h : Bland ds) (places : Int) :
    Bland (positional ds places).1 ∧ Bland (positional ds places).2 := by
  unfold positional
  split
  · exact ⟨by simp, bland_append.2 ⟨bland_zeros _, h⟩⟩
  · exact ⟨bland_append.2 ⟨fun c hc => h c (List.mem_of_mem_take hc), bland_zeros _⟩,
      fun c hc => h c (List.mem_of_mem_drop hc)⟩

lemma bland_floatText (x : Binary64) : Bland x.text.toList := by
  cases x with
  | nan => exact .literal rfl
  | infinite neg => exact bland_withSign neg (by decide)
  | finite neg m e =>
    simp only [Binary64.text]
    split
    · exact bland_withSign neg (by decide)
    · have hds := bland_digits (shortest m e).digits
      split
      · obtain ⟨hwhole, hfraction⟩ :=
          bland_positional hds ((shortest m e).scale + (digits (shortest m e).digits).length)
        refine bland_withSign neg (bland_append.2 ⟨bland_append.2 ⟨hwhole, by simp⟩, ?_⟩)
        split
        · simp
        · exact hfraction
      · refine bland_withSign neg
          (bland_append.2 ⟨bland_append.2 ⟨?_, by simp⟩, bland_intText _⟩)
        split
        next d r rest heq =>
          rw [heq] at hds
          simp only [bland_cons] at hds ⊢
          exact ⟨hds.1, by decide, hds.2⟩
        next => exact hds

lemma bland_number (n : Yaml.Number) : Bland n.text.toList := by
  cases n with
  | int n => exact bland_intText n
  | float x => exact bland_floatText x

lemma bland_boolText (b : Bool) : Bland (Yaml.Tree.boolText b).toList := by
  cases b <;> exact .literal rfl

/-! ### Names -/

lemma bland_of_isAlphanum {c : Char} (h : c.isAlphanum = true) : c ≠ '$' ∧ c ≠ '\x7b' :=
  ⟨fun heq => absurd h (by rw [heq]; decide), fun heq => absurd h (by rw [heq]; decide)⟩

lemma bland_of_isUserName {name : List Char} (h : isUserName name = true) : Bland name := by
  cases name with
  | nil => simp
  | cons c cs =>
    simp only [isUserName, Bool.and_eq_true, Bool.or_eq_true, beq_iff_eq, List.all_eq_true] at h
    refine bland_cons.2 ⟨?_, fun d hd => ?_⟩
    · rcases h.1 with h | rfl
      · exact bland_of_isAlphanum (by simp [Char.isAlphanum, h])
      · decide
    · rcases h.2 d hd with ((h | rfl) | rfl) | rfl
      · exact bland_of_isAlphanum h
      all_goals decide

lemma bland_of_isVolumeKeyChar {c : Char} (h : isVolumeKeyChar c = true) :
    c ≠ '$' ∧ c ≠ '\x7b' :=
  ⟨fun heq => absurd h (by rw [heq]; decide), fun heq => absurd h (by rw [heq]; decide)⟩

lemma bland_of_isVolumeKey {key : List Char} (h : isVolumeKey key = true) : Bland key :=
  fun c hc => bland_of_isVolumeKeyChar ((isVolumeKey_iff.1 h).2 c hc)

lemma bland_slug (s : String) : Bland (slug s).toList := fun _ hc =>
  bland_of_isVolumeKeyChar (isVolumeKeyChar_of_isSlugChar (isSlugChar_of_mem_slug hc))

lemma bland_projectName (configured : Option String) (dir : Path) :
    Bland (Project.of configured dir).name.toList := by
  rw [Project.of, Project.ofName]
  dsimp only
  split
  · exact .literal rfl
  · exact bland_slug _

lemma bland_label (stage : Stage) : Bland stage.label.toList := by
  cases stage <;> exact .literal rfl

lemma bland_autoVolumeName {project : Project} (h : Bland project.name.toList) (stage : Stage)
    (scope : Scope) (key : String) : Bland (autoVolumeName project stage scope key).toList := by
  obtain ⟨cs, heq, hcs⟩ := exists_autoVolumeName_eq project stage scope key
  rw [heq]
  exact bland_append.2 ⟨h, fun c hc => bland_of_isVolumeKeyChar (hcs c hc)⟩

end TwoStage
