import TwoStage.Credentials
import TwoStage.Proofs.Text.Split

/-!
# Keys on lines of their own

A key that is given as text is put on a line of its own. Neither the blanks that are dropped at its
ends nor the line feed that is added make another key of it: it is encrypted as before, or has the
same public half.
-/

namespace TwoStage

open Text

/-! ### Blanks at the ends of a text -/

namespace Text

/-- Blanks before a text are trimmed away. -/
lemma trimBoth_cons_blank {b : Char} {cs : List Char} (hb : isBlank b = true) :
    trimBoth (b :: cs) = trimBoth cs := by
  rw [trimBoth, trimLeft, List.dropWhile_cons_of_pos hb]
  rfl

lemma trimRight_append_blank {b : Char} {cs : List Char} (hb : isBlank b = true) :
    trimRight (cs ++ [b]) = trimRight cs := by
  rw [trimRight, List.reverse_concat, List.dropWhile_cons_of_pos hb]
  rfl

/-- Blanks behind a text are trimmed away. -/
lemma trimBoth_append_blank {b : Char} {cs : List Char} (hb : isBlank b = true) :
    trimBoth (cs ++ [b]) = trimBoth cs := by
  cases hleft : trimLeft cs with
  | nil =>
    have hall : ∀ c ∈ cs ++ [b], isBlank c = true := by
      intro c hc
      rcases List.mem_append.1 hc with hc | hc
      · exact List.dropWhile_eq_nil_iff.1 hleft c hc
      · rwa [List.mem_singleton.1 hc]
    rw [trimBoth, trimBoth, hleft, trimLeft, List.dropWhile_eq_nil_iff.2 hall]
  | cons c rest =>
    have happend : trimLeft (cs ++ [b]) = trimLeft cs ++ [b] := by
      rw [trimLeft, List.dropWhile_append, ← trimLeft, hleft]
      rfl
    rw [trimBoth, happend, trimRight_append_blank hb, trimBoth]

/-! ### Lines -/

section

variable {f : List Char → Bool} (hnil : f [] = false)
  (hbefore : ∀ b cs, isBlank b = true → f (b :: cs) = f cs)
  (hbehind : ∀ b cs, isBlank b = true → f (cs ++ [b]) = f cs)

include hnil hbehind in
/-- What the end of a line does not matter to is found among the stretches between line feeds. -/
lemma any_lines (cs : List Char) : (lines cs).any f = (splitAll '\n' cs).any f := by
  have hreturn (line : List Char) :
      f (if line.getLast? = some '\r' then line.dropLast else line) = f line := by
    split
    next hlast =>
      obtain ⟨front, rfl⟩ := List.getLast?_eq_some_iff.1 hlast
      rw [List.dropLast_concat, hbehind _ _ (by decide)]
    next => rfl
  unfold lines
  simp only [List.any_map, Function.comp_def, hreturn]
  split
  next hlast =>
    obtain ⟨front, hfront⟩ := List.getLast?_eq_some_iff.1 hlast
    simp [hfront, hnil]
  next => rfl

include hnil hbefore in
lemma any_splitAll_cons {b : Char} (hb : isBlank b = true) (cs : List Char) :
    (splitAll '\n' (b :: cs)).any f = (splitAll '\n' cs).any f := by
  rw [splitAll]
  split
  · simp [hnil]
  · split
    next part parts hsplit => simp [hsplit, hbefore b part hb]
    next hsplit => exact absurd hsplit (splitAll_ne_nil _ cs)

include hnil hbehind in
lemma any_splitAll_append {b : Char} (hb : isBlank b = true) (cs : List Char) :
    (splitAll '\n' (cs ++ [b])).any f = (splitAll '\n' cs).any f := by
  obtain ⟨part, parts, hsplit⟩ := List.exists_cons_of_ne_nil (splitAll_ne_nil '\n' cs)
  have hmem : ∀ p ∈ part :: parts, '\n' ∉ p := fun p hp => notMem_of_mem_splitAll (hsplit ▸ hp)
  obtain ⟨hpart, hparts⟩ := List.forall_mem_cons.1 hmem
  rw [hsplit, eq_of_splitAll hsplit]
  by_cases hbreak : b = '\n'
  · -- the line feed ends the last line, and an empty line is behind it
    have hlines : part ++ parts.flatMap ('\n' :: ·) ++ [b] =
        part ++ (parts ++ [[]]).flatMap ('\n' :: ·) := by
      simp [hbreak]
    rw [hlines, splitAll_append_flatMap part hpart]
    · simp [hnil]
    · intro p hp
      rcases List.mem_append.1 hp with hp | hp
      · exact hparts p hp
      · simp [List.mem_singleton.1 hp]
  · -- the last line gets longer
    have hlonger {p : List Char} (hp : '\n' ∉ p) : '\n' ∉ p ++ [b] := by
      simp [hp, Ne.symm hbreak]
    rcases List.eq_nil_or_concat parts with rfl | ⟨front, last, rfl⟩
    · simp [splitAll_of_notMem (hlonger hpart), hbehind b part hb]
    · rw [List.concat_eq_append] at hparts ⊢
      have hlines : part ++ (front ++ [last]).flatMap ('\n' :: ·) ++ [b] =
          part ++ (front ++ [last ++ [b]]).flatMap ('\n' :: ·) := by
        simp
      rw [hlines, splitAll_append_flatMap part hpart]
      · simp [hbehind b last hb]
      · intro p hp
        rcases List.mem_append.1 hp with hp | hp
        · exact hparts p (List.mem_append_left _ hp)
        · rw [List.mem_singleton.1 hp]
          exact hlonger (hparts last (List.mem_append_right _ (List.mem_singleton_self _)))

include hnil hbefore hbehind in
/-- Lines are found in a text as they are in its trimmed form. -/
lemma any_lines_trimBoth (cs : List Char) : (lines (trimBoth cs)).any f = (lines cs).any f := by
  obtain ⟨bs, hbs, hleft⟩ := exists_append_trimLeft cs
  obtain ⟨es, hes, hright⟩ := exists_trimRight_append (trimLeft cs)
  -- the blanks in front are taken off one by one, and so are those behind
  have hfront (ds : List Char) :
      (splitAll '\n' (bs ++ ds)).any f = (splitAll '\n' ds).any f := by
    clear hleft
    induction bs with
    | nil => rfl
    | cons b bs ih =>
      rw [List.forall_mem_cons] at hbs
      rw [List.cons_append, any_splitAll_cons hnil hbefore hbs.1, ih hbs.2]
  have hback (ds : List Char) :
      (splitAll '\n' (ds ++ es)).any f = (splitAll '\n' ds).any f := by
    clear hright
    induction es generalizing ds with
    | nil => rw [List.append_nil]
    | cons e es ih =>
      rw [List.forall_mem_cons] at hes
      rw [List.append_cons, ih hes.2, any_splitAll_append hnil hbehind hes.1]
  rw [any_lines hnil hbehind, any_lines hnil hbehind]
  calc (splitAll '\n' (trimBoth cs)).any f
      = (splitAll '\n' (trimBoth cs ++ es)).any f := (hback _).symm
    _ = (splitAll '\n' (trimLeft cs)).any f := by rw [trimBoth, ← hright]
    _ = (splitAll '\n' (bs ++ trimLeft cs)).any f := (hfront _).symm
    _ = (splitAll '\n' cs).any f := by rw [← hleft]

end

end Text

/-! ### Keys -/

namespace Key

lemma saysEncrypted_cons {b : Char} (cs : List Char) (hb : isBlank b = true) :
    saysEncrypted (b :: cs) = saysEncrypted cs := by
  rw [saysEncrypted, trimBoth_cons_blank hb, saysEncrypted]

lemma saysEncrypted_append {b : Char} (cs : List Char) (hb : isBlank b = true) :
    saysEncrypted (cs ++ [b]) = saysEncrypted cs := by
  rw [saysEncrypted, trimBoth_append_blank hb, saysEncrypted]

lemma trimBoth_tidy (text : String) :
    trimBoth (Credentials.tidy text).toList = trimBoth text.toList := by
  have htrim : (trim text).toList = trimBoth text.toList := String.toList_ofList
  unfold Credentials.tidy withLineFeed
  split
  · rw [htrim, trimBoth_trimBoth]
  · rw [String.toList_append, htrim]
    exact (trimBoth_append_blank (by decide)).trans (trimBoth_trimBoth _)

/-- A key on a line of its own has the public half that it has as it is written. -/
lemma publicHalf_tidy (text : String) : publicHalf (Credentials.tidy text) = publicHalf text := by
  have hlines (cs : List Char) : (lines (trimBoth cs)).any saysEncrypted =
      (lines cs).any saysEncrypted :=
    any_lines_trimBoth rfl (fun _ cs hb => saysEncrypted_cons cs hb)
      (fun _ cs hb => saysEncrypted_append cs hb) cs
  have hmarked : isMarkedEncrypted (Credentials.tidy text) = isMarkedEncrypted text := by
    rw [isMarkedEncrypted, ← hlines, trimBoth_tidy, hlines, isMarkedEncrypted]
  rw [publicHalf, hmarked, trimBoth_tidy, publicHalf]

end Key

end TwoStage
