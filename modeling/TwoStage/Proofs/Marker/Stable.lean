import TwoStage.Proofs.Marker.Settled
import TwoStage.Proofs.Port.Form

/-!
# Properties that text processing keeps

Between a document and its artifacts texts are trimmed, cut behind a variable's name, brought into
the form of a port, and put together with separators between them. A property of texts is stable if
all of this keeps it. Being settled is stable, and so is lacking a stretch that an opener begins.
-/

namespace TwoStage

open Text

/-- The characters that are put between texts. -/
def separators : List Char := [':', '=', ',', '/']

/-- Text processing keeps the property. -/
structure Stable (P : List Char → Prop) : Prop where
  bland {cs : List Char} : Bland cs → P cs
  seam {xs ys : List Char} {c : Char} : c ∈ separators → P xs → P ys → P (xs ++ c :: ys)
  behind {xs ys : List Char} : Bland xs → P (xs ++ ys) → P ys
  trimmed {cs : List Char} : P cs → P (trimBoth cs)
  port {cs port : List Char} :
    P (trimBoth cs) → Port.normalizeTrimmed (trimBoth cs) = .ok (some port) → P port

lemma Stable.and {P Q : List Char → Prop} (hP : Stable P) (hQ : Stable Q) :
    Stable fun cs => P cs ∧ Q cs where
  bland h := ⟨hP.bland h, hQ.bland h⟩
  seam hc hx hy := ⟨hP.seam hc hx.1 hy.1, hQ.seam hc hx.2 hy.2⟩
  behind hx h := ⟨hP.behind hx h.1, hQ.behind hx h.2⟩
  trimmed h := ⟨hP.trimmed h.1, hQ.trimmed h.2⟩
  port h hport := ⟨hP.port h.1 hport, hQ.port h.2 hport⟩

/-- Having each of many stable properties is stable. -/
lemma Stable.forall {ι : Type} {P : ι → List Char → Prop} (h : ∀ i, Stable (P i)) :
    Stable fun cs => ∀ i, P i cs where
  bland hcs i := (h i).bland hcs
  seam hc hx hy i := (h i).seam hc (hx i) (hy i)
  behind hx hcs i := (h i).behind hx (hcs i)
  trimmed hcs i := (h i).trimmed (hcs i)
  port hcs hport i := (h i).port (hcs i) hport

lemma bland_of_mem_separators {c : Char} (hc : c ∈ separators) : c ≠ '$' ∧ c ≠ '\x7b' :=
  ⟨fun h => absurd (h ▸ hc) (by decide), fun h => absurd (h ▸ hc) (by decide)⟩

/-! ### The form of a port -/

/-- The only colon of a marker stands in front of the dash between its name and its default. -/
lemma Marker.eq_of_one_colon {m : Marker} (hm : m.IsValid) {us vs : List Char}
    (h : m.source = us ++ ':' :: vs) (hus : ':' ∉ us) (hvs : ':' ∉ vs) :
    us = m.round.opener ++ m.name ∧ ∃ ds, vs = '-' :: ds := by
  have hname : ':' ∉ m.name := not_mem_of_isVariableName hm.name (by decide) (by decide)
  rw [Marker.source, Marker.body] at h
  cases hd : m.default? with
  | none =>
    rw [hd] at h
    have hopener : ':' ∉ m.round.opener := by cases m.round <;> decide
    have hcloser : ':' ∉ m.round.closer := by cases m.round <;> decide
    -- without a default the marker has no colon at all
    have hmem : ':' ∈ us ++ ':' :: vs := by simp
    rw [← h] at hmem
    exact absurd hmem (by simp [hname, hopener, hcloser])
  | some d =>
    rw [hd] at h
    have heq : us ++ ':' :: vs =
        (m.round.opener ++ m.name) ++ ':' :: ('-' :: (d ++ m.round.closer)) := by
      rw [← h]
      simp [defaultSeparator]
    obtain ⟨rfl, -, rfl⟩ := (List.append_cons_inj_of_notMem hus hvs).1 heq
    exact ⟨rfl, _, rfl⟩

/-- What stands in front of a colon of a marker begins with the marker's first character. -/
lemma Marker.exists_front {m : Marker} {us vs : List Char} (h : m.source = us ++ ':' :: vs) :
    ∃ c ds, (c = '$' ∨ c = '\x7b') ∧ us = c :: ds := by
  obtain ⟨c, cs, hc, hsource⟩ := Cut.head_source m
  rw [hsource] at h
  cases us with
  | nil => rcases hc with rfl | rfl <;> exact absurd (List.cons.inj h).1 (by decide)
  | cons u us => exact ⟨u, us, (List.cons.inj h).1 ▸ hc, rfl⟩

/-- A host part that is dropped holds nothing but colons or blanks. -/
lemma Port.bland_of_vacant {host : List Char}
    (h : (∀ c ∈ host, c = ':') ∨ trimBoth host = []) : Bland host := by
  intro c hc
  rcases h with hcolons | hblank
  · obtain rfl := hcolons c hc
    decide
  · exact ⟨fun heq => notMem_of_trimBoth_eq_nil hblank (by decide) (heq ▸ hc),
      fun heq => notMem_of_trimBoth_eq_nil hblank (by decide) (heq ▸ hc)⟩

/-- The form of an entry has the markers of the entry. A colon inside a marker is the one in front
of its default, and then nothing around it is trimmed away. -/
lemma Marked.port {cs port : List Char} {ms : List Marker} (hcs : Marked (trimBoth cs) ms)
    (h : Port.normalizeTrimmed (trimBoth cs) = .ok (some port)) : Marked port ms := by
  have hhead := isBlank_head_trimBoth cs
  have hlast := isBlank_last_trimBoth cs
  generalize trimBoth cs = entry at hcs h hhead hlast
  cases Port.normalizeTrimmed_eq_ok_iff.1 h with
  | bare => exact hcs
  | kept => exact hcs
  | @dropped host container hvacant hcolon hne =>
    have hbland : Bland (host ++ [':']) :=
      bland_append.2 ⟨Port.bland_of_vacant hvacant, bland_cons.2 ⟨by decide, by simp⟩⟩
    rw [List.append_cons] at hcs
    exact (hcs.of_append hbland).trimmed
  | @joined host container hsingle hoccupied hcolon hne =>
    obtain ⟨ss, hss, rfl⟩ := hcs
    -- the colon stands between two markers or inside one
    rcases hss.at_char with ⟨ss₁, ss₂, rfl, hh, hc, -⟩ |
      ⟨ss₁, m, ss₂, us, vs, rfl, hm, hsource, rfl, rfl⟩
    · have hhost : Marked host (markersOf ss₁) := ⟨ss₁, hh, rfl⟩
      have hcont : Marked container (markersOf ss₂) := ⟨ss₂, hc, rfl⟩
      rw [markersOf_append, markersOf_plain]
      exact hhost.trimmed.append_cons (by decide) hcont.trimmed
    · obtain ⟨c, ds, hc, hus⟩ := Marker.exists_front hsource
      rw [List.mem_append, not_or] at hsingle hcolon
      obtain ⟨hfront, vs', rfl⟩ := Marker.eq_of_one_colon hm hsource hsingle.2 hcolon.1
      have hname : us.getLast? = m.name.getLast? := by
        obtain ⟨n, ns, hns⟩ := List.exists_cons_of_ne_nil (l := m.name) fun h => by
          simpa [h, isVariableName] using hm.name
        rw [hfront, hns, List.getLast?_append_cons]
      -- what stands around the colon, the end of a name and a dash, is not blank
      have hkeep := trimBoth_front_eq_self (by simp [hus]) hhead fun c hc => by
        rw [hus, List.getLast?_append_cons, ← hus, hname] at hc
        exact isBlank_of_mem_of_isVariableName hm.name c (List.mem_of_getLast? hc)
      rw [List.append_cons] at hlast
      have hkeep' := trimBoth_back_eq_self (by simp) (fun c hc => by
        obtain rfl : '-' = c := by simpa using hc
        decide) hlast
      rw [hkeep, hkeep']
      exact ⟨_, hss, rfl⟩

/-- The form of a settled entry is settled. -/
lemma Settled.port {cs port : List Char} (hcs : Settled (trimBoth cs))
    (h : Port.normalizeTrimmed (trimBoth cs) = .ok (some port)) : Settled port := by
  obtain ⟨ms, hms, hround⟩ := settled_iff_marked.1 hcs
  exact settled_iff_marked.2 ⟨ms, hms.port h, hround⟩

lemma Settled.stable : Stable Settled where
  bland h := (OpenerFree.of_bland h).settled
  seam hc hx hy := hx.append_cons (bland_of_mem_separators hc) hy
  behind hx h := h.of_bland_append hx
  trimmed h := h.trimmed
  port h hport := h.port hport

/-- Lacking a stretch that starts like an opener and has no separator in it is stable. -/
lemma stable_excludes {w : List Char} {c : Char} (hc : c = '$' ∨ c = '\x7b')
    (hsep : ∀ d ∈ separators, d ∉ c :: w) : Stable fun cs => ¬ c :: w <:+: cs where
  bland h hin := by
    have hmem := h c (hin.subset List.mem_cons_self)
    rcases hc with rfl | rfl
    · exact hmem.1 rfl
    · exact hmem.2 rfl
  seam hd hx hy hin := by
    rcases (infix_append_cons_iff (hsep _ hd)).1 hin with hin | hin
    · exact hx hin
    · exact hy hin
  behind _ h hin := h (hin.trans (List.suffix_append _ _).isInfix)
  trimmed h hin := h (hin.trans (trimBoth_isInfix _))
  port {cs port} h hport hin := by
    have hcolon := hsep ':' (by decide)
    generalize trimBoth cs = entry at h hport
    cases Port.normalizeTrimmed_eq_ok_iff.1 hport with
    | bare => exact h hin
    | kept => exact h hin
    | dropped =>
      rw [infix_append_cons_iff hcolon] at h
      exact h (.inr (hin.trans (trimBoth_isInfix _)))
    | joined =>
      rw [infix_append_cons_iff hcolon] at h hin
      rcases hin with hin | hin
      · exact h (.inl (hin.trans (trimBoth_isInfix _)))
      · exact h (.inr (hin.trans (trimBoth_isInfix _)))

/-- Holding no opener is stable. -/
lemma OpenerFree.stable : Stable OpenerFree := by
  apply Stable.forall
  intro round
  cases round with
  | config => exact stable_excludes (w := ['\x7b']) (.inl rfl) (by simp [separators])
  | compose => exact stable_excludes (w := ['\x7b']) (.inr rfl) (by simp [separators])

end TwoStage
