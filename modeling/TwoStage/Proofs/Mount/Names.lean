import Mathlib.Data.List.Basic
import TwoStage.Proofs.Mount.Rules

/-!
# Names of automatic volumes

The parts of a volume's name can be told apart: the ones of stage and section are fixed words, and a
digest has a fixed length. What is not told apart is a slug that ends like a digest from another
slug with its digest behind it.
-/

namespace TwoStage

open Text

/-! ### Digests -/

lemma Digest.length_toBytes (k n : Nat) : (Sha2.toBytes k n).length = k := by
  induction k generalizing n with
  | zero => rfl
  | succ k ih => rw [Sha2.toBytes, List.length_append, ih, List.length_singleton]

lemma Digest.length_sha256Hex (bytes : List UInt8) : (sha256Hex bytes).toList.length = 64 := by
  simp [sha256Hex, hex, Sha2.digest, State.words, length_toBytes, List.length_flatMap]

lemma length_shortDigest (key : String) : (shortDigest key).toList.length = 8 := by
  rw [shortDigest, String.toList_ofList, List.length_take, Digest.length_sha256Hex]
  rfl

/-! ### Suffixes -/

/-- What stands for a key in the name of its volume. -/
def volumeSuffix (key : String) : String :=
  slug key ++ (if slug key = key then "" else "-" ++ shortDigest key)

/-- A slug is spelled like the slug of another key with its digest behind it. -/
structure Mimics (key key' : String) : Prop where
  isSlug : slug key = key
  noSlug : slug key' ≠ key'
  spelled : key = slug key' ++ "-" ++ shortDigest key'

lemma volumeSuffix_of_slug {key : String} (h : slug key = key) : volumeSuffix key = key := by
  rw [volumeSuffix, if_pos h, h, String.append_empty]

lemma volumeSuffix_of_noSlug {key : String} (h : slug key ≠ key) :
    volumeSuffix key = slug key ++ "-" ++ shortDigest key := by
  rw [volumeSuffix, if_neg h, String.append_assoc]

lemma Mimics.volumeSuffix_eq {key key' : String} (h : Mimics key key') :
    volumeSuffix key = volumeSuffix key' := by
  rw [volumeSuffix_of_slug h.isSlug, volumeSuffix_of_noSlug h.noSlug, ← h.spelled]

/-- Suffixes of keys with digests of their own are equal only by imitation. -/
lemma volumeSuffix_eq_iff {key key' : String}
    (hdigest : shortDigest key = shortDigest key' → key = key') :
    volumeSuffix key = volumeSuffix key' ↔
      key = key' ∨ Mimics key key' ∨ Mimics key' key := by
  constructor
  · intro h
    by_cases hslug : slug key = key <;> by_cases hslug' : slug key' = key'
    · rw [volumeSuffix_of_slug hslug, volumeSuffix_of_slug hslug'] at h
      exact .inl h
    · rw [volumeSuffix_of_slug hslug, volumeSuffix_of_noSlug hslug'] at h
      exact .inr (.inl ⟨hslug, hslug', h⟩)
    · rw [volumeSuffix_of_noSlug hslug, volumeSuffix_of_slug hslug'] at h
      exact .inr (.inr ⟨hslug', hslug, h.symm⟩)
    · rw [volumeSuffix_of_noSlug hslug, volumeSuffix_of_noSlug hslug', ← String.toList_inj] at h
      simp only [String.toList_append] at h
      have hlength : (shortDigest key).toList.length = (shortDigest key').toList.length := by
        rw [length_shortDigest, length_shortDigest]
      exact .inl (hdigest (String.toList_inj.1 (List.append_inj_right' h hlength)))
  · rintro (rfl | h | h)
    · rfl
    · exact h.volumeSuffix_eq
    · exact h.volumeSuffix_eq.symm

/-! ### Names -/

/-- Stage and section are read off the front of a name. -/
lemma label_append_inj {stage stage' : Stage} {scope scope' : Scope} {cs cs' : List Char} :
    stage.label.toList ++ '-' :: (scope.key.toList ++ '-' :: cs) =
        stage'.label.toList ++ '-' :: (scope'.key.toList ++ '-' :: cs') ↔
      stage = stage' ∧ scope = scope' ∧ cs = cs' := by
  cases stage <;> cases stage' <;> cases scope <;> cases scope' <;>
    simp [Stage.label, Scope.key]

lemma autoVolumeName_eq (project : Project) (stage : Stage) (scope : Scope) (key : String) :
    (autoVolumeName project stage scope key).toList = project.name.toList ++ '-' ::
      (stage.label.toList ++ '-' :: (scope.key.toList ++ '-' :: (volumeSuffix key).toList)) := by
  simp [autoVolumeName, volumeSuffix, String.toList_append]

/-- A declaration of an automatic volume is mounted from the volume of its name. -/
lemma target_of_autoVolume {ctx : Context} {project : Project} {stage : Stage} {scope : Scope}
    {key : String} {s : StorageSection} {m : Mount} (hs : s.kind = .autoVolume)
    (h : resolveMount ctx project stage scope key s = .ok m) :
    m.target = .volume (autoVolumeName project stage scope key)
      (autoVolumeName project stage scope key) false := by
  obtain ⟨source, destination, target, path, hkept, -, hmounted, rfl⟩ := exists_of_resolveMount h
  cases hkept with
  | autoVolume =>
    cases hmounted with
    | autoVolume => rfl
    | _ hsource => simp at hsource
  | _ hkind => simp [hs] at hkind

/-- Two keys with digests of their own name one volume only within one section of one stage and if
one of them imitates the other; and automatic volumes are shared as their names are. -/
theorem autoVolumeName_eq_iff {project : Project} {stage stage' : Stage} {scope scope' : Scope}
    {key key' : String} (hdigest : shortDigest key = shortDigest key' → key = key') :
    (autoVolumeName project stage scope key = autoVolumeName project stage' scope' key' ↔
      stage = stage' ∧ scope = scope' ∧ (key = key' ∨ Mimics key key' ∨ Mimics key' key)) ∧
    ∀ ctx ctx' s s' m m', s.kind = .autoVolume → s'.kind = .autoVolume →
      resolveMount ctx project stage scope key s = .ok m →
      resolveMount ctx' project stage' scope' key' s' = .ok m' →
      (m.target = m'.target ↔
        autoVolumeName project stage scope key = autoVolumeName project stage' scope' key') := by
  constructor
  · rw [← String.toList_inj, autoVolumeName_eq, autoVolumeName_eq, List.append_cancel_left_eq,
      List.cons_inj_right, label_append_inj, String.toList_inj, volumeSuffix_eq_iff hdigest]
  · intro ctx ctx' s s' m m' hs hs' hm hm'
    rw [target_of_autoVolume hs hm, target_of_autoVolume hs' hm']
    simp

lemma shortDigest_capital : shortDigest "A" = "559aead0" := by decide +kernel

/-- A key and its slug name two volumes. -/
theorem autoVolumeName_eq_iff_of_capital :
    autoVolumeName ⟨"demo"⟩ .first .mount "A" ≠ autoVolumeName ⟨"demo"⟩ .first .mount "a" := by
  have hdigest : shortDigest "A" ≠ shortDigest "a" := by
    rw [shortDigest_capital]
    decide +kernel
  rw [Ne, (autoVolumeName_eq_iff fun h => absurd h hdigest).1]
  rintro ⟨-, -, h | ⟨hslug, -, -⟩ | ⟨-, -, hspelled⟩⟩
  · exact absurd h (by decide)
  · exact absurd hslug (by decide)
  · rw [shortDigest_capital] at hspelled
    exact absurd hspelled (by decide)

/-- A key that is spelled like the slug and the digest of another one names the same volume. -/
theorem exists_shared_autoVolume :
    "A" ≠ "a-559aead0" ∧ shortDigest "A" ≠ shortDigest "a-559aead0" ∧
      ∀ project stage scope, autoVolumeName project stage scope "A" =
        autoVolumeName project stage scope "a-559aead0" := by
  have hdigest : shortDigest "A" ≠ shortDigest "a-559aead0" := by
    rw [shortDigest_capital]
    decide +kernel
  have hmimics : Mimics "a-559aead0" "A" :=
    ⟨by decide, by decide, by rw [shortDigest_capital]; decide⟩
  refine ⟨by decide, hdigest, fun project stage scope => ?_⟩
  rw [← String.toList_inj, autoVolumeName_eq, autoVolumeName_eq, hmimics.volumeSuffix_eq]

end TwoStage
