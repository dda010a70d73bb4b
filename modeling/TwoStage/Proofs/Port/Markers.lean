import TwoStage.Proofs.Spec.WellFormed

/-!
# Markers in ports

An entry is split at its last colon, and that may be the colon in front of a marker's default. The
form of the entry still has the markers of the entry, and it is in its own form.
-/

namespace TwoStage.Port

open Text

/-- The form of an entry has the markers of the entry. -/
lemma marked_of_normalize {path entry port : String} {ms : List Marker}
    (h : normalize path entry = .ok (some port)) (hentry : Marked entry.toList ms) :
    Marked port.toList ms :=
  hentry.trimmed.port (normalize_eq_some_iff.1 h)

/-- The form of an entry is in its own form, and the scanner, if it takes the entry, takes the form
and finds the markers of the entry in it, in the same order. -/
theorem scanMarkers_of_normalize {path entry port : String}
    (h : normalize path entry = .ok (some port)) :
    IsNormal port ∧ ∀ ms, scanMarkers entry = .ok ms →
      ∃ ms', scanMarkers port = .ok ms' ∧
        ms'.map Located.marker = ms.map Located.marker := by
  refine ⟨isNormal_of_normalize h, fun ms hscan => ?_⟩
  exact marked_iff.1 (marked_of_normalize h (marked_iff.2 ⟨ms, hscan, rfl⟩))

/-- The last colon stands inside a marker, in front of a default with blanks around it. -/
theorem scanMarkers_of_normalize_of_default :
    normalize "stage_1.ports[0]" " \x7b\x7bA:- 80 \x7d\x7d\t" =
      .ok (some "\x7b\x7bA:- 80 \x7d\x7d") ∧
    IsNormal "\x7b\x7bA:- 80 \x7d\x7d" ∧
    ∃ ms, scanMarkers "\x7b\x7bA:- 80 \x7d\x7d" = .ok ms ∧
      ms.map Located.marker = [⟨.compose, ['A'], some [' ', '8', '0', ' ']⟩] := by
  have hform : normalize "stage_1.ports[0]" " \x7b\x7bA:- 80 \x7d\x7d\t" =
      .ok (some "\x7b\x7bA:- 80 \x7d\x7d") := by rfl
  have hscan : scanMarkers " \x7b\x7bA:- 80 \x7d\x7d\t" =
      .ok [⟨⟨.compose, ['A'], some [' ', '8', '0', ' ']⟩, 1, 12⟩] := by
    decide +kernel
  obtain ⟨hnormal, hmarkers⟩ := scanMarkers_of_normalize hform
  exact ⟨hform, hnormal, hmarkers _ hscan⟩

end TwoStage.Port
