import Mathlib.Data.List.Basic
import TwoStage.Command.Arguments

/-!
# Options with their values

An option by its long name with a value behind an equals sign has exactly that value, whatever its
characters are.
-/

namespace TwoStage

namespace OptionRule

/-- The word that gives the option a value. -/
def withValue (r : OptionRule) (value : String) : String := "--" ++ r.long ++ "=" ++ value

/-- The option takes any text, and is the first of the rules with its name. -/
structure IsText (rules : List OptionRule) (r : OptionRule) : Prop where
  found : rules.find? (fun rule => rule.long = r.long) = some r
  kind : r.kind = .text
  noSign : '=' ∉ r.long.toList

instance (rules : List OptionRule) (r : OptionRule) : Decidable (IsText rules r) :=
  decidable_of_iff (rules.find? (fun rule => rule.long = r.long) = some r ∧ r.kind = .text ∧
    '=' ∉ r.long.toList) ⟨fun h => ⟨h.1, h.2.1, h.2.2⟩, fun h => ⟨h.1, h.2, h.3⟩⟩

lemma toList_withValue (r : OptionRule) (value : String) :
    (r.withValue value).toList = '-' :: '-' :: (r.long.toList ++ '=' :: value.toList) := by
  simp [withValue]

end OptionRule

namespace Words

variable {rules : List OptionRule} {r : OptionRule} {ws : Words} {value : String}

lemma add_text (hkind : r.kind = .text) (hnew : ws.count r.long = 0) :
    ws.add r value = .ok { ws with options := ws.options ++ [(r, value)] } := by
  simp [add, hkind, hnew]

lemma readLong_withValue (hr : r.IsText rules) (hnew : ws.count r.long = 0) :
    ws.readLong rules (r.long.toList ++ '=' :: value.toList) =
      .ok ({ ws with options := ws.options ++ [(r, value)] }, none) := by
  have hbefore : ∀ c ∈ r.long.toList, (c != '=') = true := fun c hc =>
    bne_iff_ne.2 fun heq => hr.noSign (heq ▸ hc)
  have htake : (r.long.toList ++ '=' :: value.toList).takeWhile (· != '=') = r.long.toList := by
    rw [List.takeWhile_append_of_pos hbefore]
    simp
  have hdrop : (r.long.toList ++ '=' :: value.toList).dropWhile (· != '=') =
      '=' :: value.toList := by
    rw [List.dropWhile_append_of_pos hbefore]
    simp
  have htakes : r.takesValue = true := by simp [OptionRule.takesValue, hr.kind]
  simp [readLong, htake, hdrop, hr.found, htakes, add_text hr.kind hnew, Except.map]

/-- Options that are all different are read with their values. -/
lemma read_withValue {given : List (OptionRule × String)} (hgiven : ∀ g ∈ given, g.1.IsText rules)
    (hnew : ((ws.options ++ given).map fun g => g.1.long).Nodup) (room? : Option Nat) :
    ws.read rules room? (given.map fun g => g.1.withValue g.2) =
      .ok ({ ws with options := ws.options ++ given }, []) := by
  induction given generalizing ws with
  | nil => simp [read]
  | cons g given ih =>
    obtain ⟨r, value⟩ := g
    rw [List.forall_mem_cons] at hgiven
    have hword : r.withValue value ≠ "--" := fun heq => by
      simpa [OptionRule.toList_withValue] using congrArg String.toList heq
    have hoption : isOption (r.withValue value) = true := by
      simp [isOption, OptionRule.toList_withValue]
    -- an option may be given once, and this one differs from those before it
    have hcount : ws.count r.long = 0 := by
      rw [List.map_append, List.nodup_append] at hnew
      rw [count, List.length_eq_zero_iff, List.filter_eq_nil_iff]
      intro o ho heq
      exact hnew.2.2 _ (List.mem_map_of_mem ho) r.long (by simp) (by simpa using heq)
    have hread : ws.readOption rules (r.withValue value) =
        .ok ({ ws with options := ws.options ++ [(r, value)] }, none) := by
      rw [readOption, OptionRule.toList_withValue]
      exact readLong_withValue hgiven.1 hcount
    have hrest := @ih { ws with options := ws.options ++ [(r, value)] } hgiven.2
      (by simpa using hnew)
    rw [List.map_cons, read.eq_def]
    dsimp only
    rw [if_neg hword, if_pos hoption, hread]
    simpa using hrest

end Words

end TwoStage
