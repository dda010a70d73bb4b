import TwoStage.Proofs.Mount.Names
import TwoStage.Proofs.Text.Split

/-!
# Characters of volume names

The name of an automatic volume is put together from the project's name, two fixed words, a slug and
the digits of a digest. All but the first have only characters that a key of a volume goes on with.
-/

namespace TwoStage

open Text

/-! ### Keys of volumes -/

def isVolumeKeyChar (c : Char) : Bool := c.isAlphanum || c == '_' || c == '.' || c == '-'

lemma isVolumeKeyChar_of_isAlphanum {c : Char} (h : c.isAlphanum = true) :
    isVolumeKeyChar c = true := by
  simp [isVolumeKeyChar, h]

/-- A key begins with a letter or a digit, and all its characters are ones of keys. -/
lemma isVolumeKey_iff {cs : List Char} :
    isVolumeKey cs = true ↔
      (∃ c, cs.head? = some c ∧ c.isAlphanum = true) ∧ ∀ c ∈ cs, isVolumeKeyChar c = true := by
  cases cs with
  | nil => simp [isVolumeKey]
  | cons c cs =>
    rw [isVolumeKey, Bool.and_eq_true, List.all_eq_true, List.forall_mem_cons]
    constructor
    · rintro ⟨hc, hcs⟩
      exact ⟨⟨c, rfl, hc⟩, isVolumeKeyChar_of_isAlphanum hc, hcs⟩
    · rintro ⟨⟨c', hhead, hc⟩, -, hcs⟩
      obtain rfl := Option.some.inj hhead
      exact ⟨hc, hcs⟩

/-! ### Slugs -/

lemma isSlugChar_of_mem_squash {behindDash : Bool} {cs : List Char} {c : Char}
    (h : c ∈ squash behindDash cs) : isSlugChar c = true := by
  fun_induction squash behindDash cs with
  | case1 => simp at h
  | case2 _ d _ hd ih =>
    rcases List.mem_cons.1 h with rfl | h
    · exact hd
    · exact ih h
  | case3 _ _ _ ih => exact ih h
  | case4 _ _ _ _ _ ih =>
    rcases List.mem_cons.1 h with rfl | h
    · rfl
    · exact ih h

lemma isSlugChar_of_mem_slug {s : String} {c : Char} (h : c ∈ (slug s).toList) :
    isSlugChar c = true := by
  rw [slug, String.toList_ofList] at h
  exact isSlugChar_of_mem_squash ((stripChar_isInfix _ _).subset h)

/-- Only an underscore and a dash are characters of slugs that no key begins with. -/
lemma isAlphanum_of_isSlugChar {c : Char} (h : isSlugChar c = true) (hunderscore : c ≠ '_')
    (hdash : c ≠ '-') : c.isAlphanum = true := by
  simp only [isSlugChar, Bool.or_eq_true, beq_iff_eq, hunderscore, hdash, or_false] at h
  rcases h with h | h
  · have halpha : c.isAlpha = true := Bool.or_eq_true_iff.2 (.inr h)
    simp [Char.isAlphanum, halpha]
  · simp [Char.isAlphanum, h]

lemma isVolumeKeyChar_of_isSlugChar {c : Char} (h : isSlugChar c = true) :
    isVolumeKeyChar c = true := by
  by_cases hunderscore : c = '_'
  · rw [hunderscore]
    rfl
  by_cases hdash : c = '-'
  · rw [hdash]
    rfl
  exact isVolumeKeyChar_of_isAlphanum (isAlphanum_of_isSlugChar h hunderscore hdash)

/-! ### Digests -/

lemma isAlphanum_hexDigit {n : Nat} (h : n < 16) : (Digest.hexDigit n).isAlphanum = true :=
  (by decide : ∀ m < 16, (Digest.hexDigit m).isAlphanum = true) n h

lemma isAlphanum_of_mem_hex {bytes : List UInt8} {c : Char}
    (h : c ∈ (Digest.hex bytes).toList) : c.isAlphanum = true := by
  rw [Digest.hex, String.toList_ofList] at h
  obtain ⟨b, -, hb⟩ := List.mem_flatMap.1 h
  have hlt := b.toNat_lt
  simp only [List.mem_cons, List.not_mem_nil, or_false] at hb
  rcases hb with rfl | rfl
  · exact isAlphanum_hexDigit (by omega)
  · exact isAlphanum_hexDigit (by omega)

lemma isAlphanum_of_mem_shortDigest {key : String} {c : Char}
    (h : c ∈ (shortDigest key).toList) : c.isAlphanum = true := by
  rw [shortDigest, String.toList_ofList] at h
  exact isAlphanum_of_mem_hex (List.mem_of_mem_take h)

/-! ### Names of automatic volumes -/

lemma isVolumeKeyChar_of_mem_volumeSuffix {key : String} {c : Char}
    (h : c ∈ (volumeSuffix key).toList) : isVolumeKeyChar c = true := by
  rw [volumeSuffix, String.toList_append, List.mem_append] at h
  rcases h with h | h
  · exact isVolumeKeyChar_of_isSlugChar (isSlugChar_of_mem_slug h)
  split at h
  · simp at h
  · rw [String.toList_append, List.mem_append] at h
    rcases h with h | h
    · obtain rfl : c = '-' := by simpa using h
      rfl
    · exact isVolumeKeyChar_of_isAlphanum (isAlphanum_of_mem_shortDigest h)

/-- What stands behind the project in the name of an automatic volume is made of characters of
keys, whatever the key of the document is. -/
lemma exists_autoVolumeName_eq (project : Project) (stage : Stage) (scope : Scope) (key : String) :
    ∃ cs, (autoVolumeName project stage scope key).toList = project.name.toList ++ cs ∧
      ∀ c ∈ cs, isVolumeKeyChar c = true := by
  refine ⟨_, autoVolumeName_eq project stage scope key, ?_⟩
  have hlabel : ∀ c ∈ stage.label.toList, isVolumeKeyChar c = true := by
    cases stage <;> exact List.all_eq_true.1 rfl
  have hscope : ∀ c ∈ scope.key.toList, isVolumeKeyChar c = true := by
    cases scope <;> exact List.all_eq_true.1 rfl
  simp only [List.forall_mem_cons, List.forall_mem_append]
  exact ⟨rfl, hlabel, rfl, hscope, rfl, fun c hc => isVolumeKeyChar_of_mem_volumeSuffix hc⟩

end TwoStage
