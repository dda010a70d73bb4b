import TwoStage.Proofs.Yaml.Correspondence

/-!
# The config round over a document

The round gives the tree that corresponds to the document by substitution, place by place, provided
that every string in it can be cut and waits for compose alone. Substituted values and defaults are
not looked at again, so it is the second walk over the tree that vouches for them. What the round
has let through it leaves as it is, whatever the variables are by then.
-/

namespace TwoStage.Resolution

open Yaml

variable {vars : String → Option String} {t t' : Tree}

/-- Substituting gives the tree whose strings are those of the document, substituted. -/
lemma substituteAll_eq_ok_iff :
    substituteAll vars t = .ok t' ↔
      Tree.Corresponds (fun s s' => substitute vars s = .ok s') t t' :=
  Tree.mapTexts_eq_ok_iff fun _ _ _ => Outcome.mapError_eq_ok_iff

/-- A tree of settled strings is left as it is. -/
lemma resolve_eq_self (h : t.Holds fun s => Settled s.toList) : resolve vars t = .ok t :=
  resolve_eq_ok_iff.2 ⟨substituteAll_eq_ok_iff.2
    (Tree.Corresponds.of_holds t fun s hs => (h s hs).substitute_eq vars), h⟩

lemma holds_settled_iff :
    (t.Holds fun s => Settled s.toList) ↔
      ∀ s, t.Contains s →
        ∃ ms, scanMarkers s = .ok ms ∧ ∀ l ∈ ms, l.marker.round = .compose := by
  simp only [Tree.Holds, Tree.mem_strings_iff, settled_iff]

/-- The config round gives exactly the tree that differs from the document in its strings alone,
each of them substituted, and only if the scanner takes every string at any depth of it and finds no
config marker. The round then leaves this tree as it is, whatever the variables are. -/
theorem resolve_settles (vars : String → Option String) (t t' : Tree) :
    (resolve vars t = .ok t' ↔
      Tree.Corresponds (fun s s' => substitute vars s = .ok s') t t' ∧
        ∀ s, t'.Contains s →
          ∃ ms, scanMarkers s = .ok ms ∧ ∀ l ∈ ms, l.marker.round = .compose) ∧
    (resolve vars t = .ok t' → ∀ vars', resolve vars' t' = .ok t') := by
  constructor
  · rw [resolve_eq_ok_iff, substituteAll_eq_ok_iff, holds_settled_iff]
  · exact fun h vars' => resolve_eq_self (holds_settled_of_resolve h)

/-- A string under a tag is substituted, and a key is left as it is. -/
theorem resolve_settles_below_tag :
    resolve (fun _ => none) (.mapping [(.text "$\x7bK\x7d", .tagged "t" (.sequence
      [.text "a$\x7bA:-b\x7d\x7b\x7bC\x7d\x7d", .bool true]))]) =
      .ok (.mapping [(.text "$\x7bK\x7d", .tagged "t" (.sequence
        [.text "ab\x7b\x7bC\x7d\x7d", .bool true]))]) ∧
    ∀ vars', resolve vars' (.mapping [(.text "$\x7bK\x7d", .tagged "t" (.sequence
      [.text "ab\x7b\x7bC\x7d\x7d", .bool true]))]) =
      .ok (.mapping [(.text "$\x7bK\x7d", .tagged "t" (.sequence
        [.text "ab\x7b\x7bC\x7d\x7d", .bool true]))]) := by
  have hsubstitute : substitute (fun _ => none) "a$\x7bA:-b\x7d\x7b\x7bC\x7d\x7d" =
      .ok "ab\x7b\x7bC\x7d\x7d" := by
    decide +kernel
  have hleftover : firstConfigMarker? "ab\x7b\x7bC\x7d\x7d" = .ok none := by decide +kernel
  have hrun : resolve (fun _ => none) (.mapping [(.text "$\x7bK\x7d", .tagged "t" (.sequence
      [.text "a$\x7bA:-b\x7d\x7b\x7bC\x7d\x7d", .bool true]))]) =
      .ok (.mapping [(.text "$\x7bK\x7d", .tagged "t" (.sequence
        [.text "ab\x7b\x7bC\x7d\x7d", .bool true]))]) := by
    simp [resolve, substituteAll, refuseLeftovers, Tree.mapTexts, Tree.mapTextsAt,
      Tree.mapEntryTextsAt, Tree.mapItemTextsAt, Tree.textsOf, Tree.textsAt, Tree.entryTextsAt,
      Tree.itemTextsAt, refuseLeftover, markerAt, hsubstitute, hleftover, bind, Except.bind, pure,
      Except.pure, Except.map, Except.mapError]
  exact ⟨hrun, (resolve_settles _ _ _).2 hrun⟩

end TwoStage.Resolution
