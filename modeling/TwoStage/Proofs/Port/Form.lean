import TwoStage.Port
import TwoStage.Proofs.Outcome
import TwoStage.Proofs.Text.Split

/-!
# The form of a port

An entry is cut at its last colon, and what becomes of the two parts depends on whether the first of
them has another colon and on whether anything is left of it. The cases are those of `Form`, and
what is known about ports is shown by going through them.
-/

namespace TwoStage.Port

open Text

/-- What an entry is published as when the blanks around it are gone. -/
inductive Form : List Char → Option (List Char) → Prop
  /-- Colons alone publish nothing. -/
  | nothing {entry : List Char} (colons : ∀ c ∈ entry, c = ':') : Form entry none
  /-- An entry without a colon is the container's port. -/
  | bare {entry : List Char} (nonempty : entry ≠ []) (colon : ':' ∉ entry) : Form entry (some entry)
  /-- A host part of colons or of blanks goes. -/
  | dropped {host container : List Char} (vacant : (∀ c ∈ host, c = ':') ∨ trimBoth host = [])
      (colon : ':' ∉ container) (nonempty : trimBoth container ≠ []) :
      Form (host ++ ':' :: container) (some (trimBoth container))
  /-- The blanks around the colon go where it is the only one. -/
  | joined {host container : List Char} (single : ':' ∉ host) (occupied : trimBoth host ≠ [])
      (colon : ':' ∉ container) (nonempty : trimBoth container ≠ []) :
      Form (host ++ ':' :: container) (some (trimBoth host ++ ':' :: trimBoth container))
  /-- A host part with a colon and something else is left alone, and so is the container part. -/
  | kept {host container : List Char} (several : ':' ∈ host) (occupied : ∃ c ∈ host, c ≠ ':')
      (colon : ':' ∉ container) (nonempty : trimBoth container ≠ []) :
      Form (host ++ ':' :: container) (some (host ++ ':' :: container))

lemma Form.colons {entry : List Char} (h : Form entry none) : ∀ c ∈ entry, c = ':' := by
  cases h with
  | nothing hcolons => exact hcolons

variable {entry host container : List Char} {form : Option (List Char)} {path e port : String}

lemma join_some (hne : trimBoth container ≠ []) : join (some host) (some container) =
    some (if trimBoth host = [] then trimBoth container
      else trimBoth host ++ ':' :: trimBoth container) := by
  simp only [join, part?, Option.bind_some, if_neg hne]
  by_cases hhost : trimBoth host = []
  · simp only [if_pos hhost]
  · simp only [if_neg hhost]

/-- What an entry with a container's port becomes is a matter of its host part. -/
lemma normalizeTrimmed_append (hcolon : ':' ∉ container) (hne : trimBoth container ≠ []) :
    normalizeTrimmed (host ++ ':' :: container) =
      if !host.contains ':' || decide (stripChar ':' host = []) then
        .ok (join (some (stripChar ':' host)) (some container))
      else .ok (some (host ++ ':' :: container)) := by
  have hstrip : stripChar ':' (host ++ ':' :: container) ≠ [] := fun hnil => by
    obtain ⟨c, cs, hcs⟩ := List.exists_cons_of_ne_nil hne
    have hc : c ∈ container := (trimBoth_isInfix container).subset (hcs ▸ List.mem_cons_self)
    exact hcolon (stripChar_eq_nil_iff.1 hnil c (by simp [hc]) ▸ hc)
  have hcut : cutLast? (· == ':') (host ++ ':' :: container) = some (host, container) :=
    cutLast?_append (by simp) fun c hc => by simpa using ne_of_mem_of_not_mem hc hcolon
  simp only [normalizeTrimmed, if_neg hstrip, hcut, if_neg hne]

/-- A host part is cut free of colons unless it has one and something else. -/
lemma cutsColons_iff : (!host.contains ':' || decide (stripChar ':' host = [])) = true ↔
    ':' ∉ host ∨ ∀ c ∈ host, c = ':' := by
  simp [stripChar_eq_nil_iff]

lemma normalizeTrimmed_of_join (hcolon : ':' ∉ container) (hne : trimBoth container ≠ [])
    (hhost : ':' ∉ host ∨ ∀ c ∈ host, c = ':') :
    normalizeTrimmed (host ++ ':' :: container) =
      .ok (join (some (stripChar ':' host)) (some container)) := by
  rw [normalizeTrimmed_append hcolon hne, if_pos (cutsColons_iff.2 hhost)]

lemma normalizeTrimmed_of_kept (hcolon : ':' ∉ container) (hne : trimBoth container ≠ [])
    (hhost : ¬ (':' ∉ host ∨ ∀ c ∈ host, c = ':')) :
    normalizeTrimmed (host ++ ':' :: container) = .ok (some (host ++ ':' :: container)) := by
  rw [normalizeTrimmed_append hcolon hne, if_neg (mt cutsColons_iff.1 hhost)]

/-- What checking an entry asks for, and what it gives. -/
lemma normalizeTrimmed_eq_ok_iff : normalizeTrimmed entry = .ok form ↔ Form entry form := by
  constructor
  · intro h
    by_cases hcolons : ∀ c ∈ entry, c = ':'
    · rw [normalizeTrimmed, if_pos (stripChar_eq_nil_iff.2 hcolons)] at h
      obtain rfl := Except.ok.inj h
      exact .nothing hcolons
    have hstrip : stripChar ':' entry ≠ [] := mt stripChar_eq_nil_iff.1 hcolons
    cases hcut : cutLast? (· == ':') entry with
    | none =>
      simp only [normalizeTrimmed, if_neg hstrip, hcut] at h
      obtain rfl := Except.ok.inj h
      refine .bare (by rintro rfl; exact hstrip rfl) fun hmem => ?_
      exact absurd (of_cutLast?_eq_none hcut _ hmem) (by simp)
    | some parts =>
      obtain ⟨host, container⟩ := parts
      obtain ⟨⟨c, hc, rfl⟩, hafter⟩ := eq_of_cutLast? hcut
      obtain rfl : c = ':' := by simpa using hc
      have hcolon : ':' ∉ container := fun hmem => by simpa using hafter _ hmem
      by_cases hne : trimBoth container = []
      · simp [normalizeTrimmed, hstrip, hcut, hne] at h
      by_cases hhost : ':' ∉ host ∨ ∀ c ∈ host, c = ':'
      · rw [normalizeTrimmed_of_join hcolon hne hhost, join_some hne] at h
        obtain rfl := Except.ok.inj h
        -- a host part of colons alone is stripped to nothing, and one without any is not stripped
        by_cases hall : ∀ c ∈ host, c = ':'
        · rw [stripChar_eq_nil_iff.2 hall]
          exact .dropped (.inl hall) hcolon hne
        · have hsingle : ':' ∉ host := hhost.resolve_right hall
          rw [stripChar_eq_self hsingle]
          split
          next hvacant => exact .dropped (.inr hvacant) hcolon hne
          next hoccupied => exact .joined hsingle hoccupied hcolon hne
      · rw [normalizeTrimmed_of_kept hcolon hne hhost] at h
        obtain rfl := Except.ok.inj h
        rw [not_or, not_not] at hhost
        exact .kept hhost.1 (by simpa using hhost.2) hcolon hne
  · intro h
    cases h with
    | nothing hcolons => rw [normalizeTrimmed, if_pos (stripChar_eq_nil_iff.2 hcolons)]
    | bare hne hcolon =>
      have hcut : cutLast? (· == ':') entry = none :=
        cutLast?_eq_none fun c hc => by simpa using ne_of_mem_of_not_mem hc hcolon
      simp [normalizeTrimmed, stripChar_eq_self hcolon, hne, hcut]
    | @dropped host container hvacant hcolon hne =>
      rcases hvacant with hall | hblank
      · have hnil : trimBoth [] = [] := rfl
        rw [normalizeTrimmed_of_join hcolon hne (.inr hall), join_some hne,
          stripChar_eq_nil_iff.2 hall, if_pos hnil]
      · have hsingle : ':' ∉ host := notMem_of_trimBoth_eq_nil hblank (by decide)
        rw [normalizeTrimmed_of_join hcolon hne (.inl hsingle), join_some hne,
          stripChar_eq_self hsingle, if_pos hblank]
    | @joined host container hsingle hoccupied hcolon hne =>
      rw [normalizeTrimmed_of_join hcolon hne (.inl hsingle), join_some hne,
        stripChar_eq_self hsingle, if_neg hoccupied]
    | @kept host container hseveral hoccupied hcolon hne =>
      refine normalizeTrimmed_of_kept hcolon hne ?_
      rintro (hsingle | hall)
      · exact hsingle hseveral
      · obtain ⟨c, hc, hother⟩ := hoccupied
        exact hother (hall c hc)

lemma normalize_eq_ok_iff {port? : Option String} : normalize path e = .ok port? ↔
    ∃ form, normalizeTrimmed (trimBoth e.toList) = .ok form ∧ form.map String.ofList = port? := by
  unfold normalize
  dsimp only
  split
  next h => simp [h]
  next h => simp [h]

lemma normalize_eq_some_iff : normalize path e = .ok (some port) ↔
    normalizeTrimmed (trimBoth e.toList) = .ok (some port.toList) := by
  rw [normalize_eq_ok_iff]
  constructor
  · rintro ⟨form, hform, h⟩
    obtain ⟨cs, rfl, rfl⟩ := Option.map_eq_some_iff.1 h
    rwa [String.toList_ofList]
  · intro h
    exact ⟨_, h, by simp⟩

/-- Only an entry of colons publishes nothing. -/
lemma normalize_eq_none_iff :
    normalize path e = .ok none ↔ ∀ c ∈ trimBoth e.toList, c = ':' := by
  rw [normalize_eq_ok_iff]
  constructor
  · rintro ⟨form, hform, h⟩
    obtain rfl := Option.map_eq_none_iff.1 h
    exact (normalizeTrimmed_eq_ok_iff.1 hform).colons
  · intro h
    exact ⟨none, normalizeTrimmed_eq_ok_iff.2 (.nothing h), rfl⟩

end TwoStage.Port
