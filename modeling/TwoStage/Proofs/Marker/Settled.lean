import TwoStage.Resolution
import TwoStage.Proofs.Marker.Marked

/-!
# Settled texts

After the config round a text is settled: it can be cut, and all of its markers wait for compose. A
settled text without a compose marker holds no opener at all, and rewriting never fails on a settled
text.
-/

namespace TwoStage

open Text

/-- No opener stands anywhere in the text. -/
def OpenerFree (cs : List Char) : Prop := ∀ round : Round, ¬ round.opener <:+: cs

/-- The text can be cut, and every marker in it is for compose. -/
def Settled (cs : List Char) : Prop :=
  ∃ ss, Cut cs ss ∧ ∀ m, .marker m ∈ ss → m.round = .compose

/-- No character of the text could be the first of an opener. -/
def Bland (cs : List Char) : Prop := ∀ c ∈ cs, c ≠ '$' ∧ c ≠ '\x7b'

variable {cs xs ys : List Char}

/-! ### Bland texts -/

instance (cs : List Char) : Decidable (Bland cs) :=
  List.decidableBAll (fun c => c ≠ '$' ∧ c ≠ '\x7b') cs

@[simp] lemma Bland.nil : Bland [] := by simp [Bland]

@[simp] lemma bland_cons {c : Char} : Bland (c :: cs) ↔ (c ≠ '$' ∧ c ≠ '\x7b') ∧ Bland cs :=
  List.forall_mem_cons

@[simp] lemma bland_append : Bland (xs ++ ys) ↔ Bland xs ∧ Bland ys := List.forall_mem_append

/-- A text that is written out is checked character by character. -/
lemma Bland.literal (h : cs.all (fun c => c != '$' && c != '\x7b') = true) :
    Bland (String.ofList cs).toList := by
  rw [String.toList_ofList]
  intro c hc
  simpa using List.all_eq_true.1 h c hc

lemma Bland.of_isVariableName (h : isVariableName cs = true) : Bland cs := fun _ hc =>
  ⟨fun heq => not_mem_of_isVariableName h (by decide) (by decide) (heq ▸ hc),
    fun heq => not_mem_of_isVariableName h (by decide) (by decide) (heq ▸ hc)⟩

/-! ### Texts without openers -/

namespace OpenerFree

lemma of_infix (h : OpenerFree ys) (hin : xs <:+: ys) : OpenerFree xs :=
  fun round hopen => h round (hopen.trans hin)

/-- An opener has no character but a dollar and braces, so it does not reach across another. -/
lemma append_cons {c : Char} (hc : c ≠ '$' ∧ c ≠ '\x7b') (hx : OpenerFree xs)
    (hy : OpenerFree ys) : OpenerFree (xs ++ c :: ys) := by
  intro round hopen
  obtain ⟨d, hd, heq⟩ := round.exists_opener_eq
  have hmem : c ∉ round.opener := by
    rw [heq]
    rcases hd with rfl | rfl <;> simp [hc.1, hc.2]
  rcases (infix_append_cons_iff hmem).1 hopen with h | h
  · exact hx round h
  · exact hy round h

lemma of_bland_append (hx : Bland xs) (hy : OpenerFree ys) : OpenerFree (xs ++ ys) := by
  intro round hopen
  obtain ⟨d, hd, heq⟩ := round.exists_opener_eq
  refine hy round ?_
  rw [heq] at hopen ⊢
  refine infix_of_infix_append (fun hmem => ?_) hopen
  rcases hd with rfl | rfl
  · exact (hx _ hmem).1 rfl
  · exact (hx _ hmem).2 rfl

lemma nil : OpenerFree [] := fun round h => by simp [List.infix_nil] at h

lemma of_bland (h : Bland cs) : OpenerFree cs := by
  simpa using of_bland_append h nil

/-- A bland text can be put behind a text without openers, too. -/
lemma append_bland (hx : OpenerFree xs) (hy : Bland ys) : OpenerFree (xs ++ ys) := by
  cases ys with
  | nil => simpa using hx
  | cons c ys =>
    rw [bland_cons] at hy
    exact append_cons hy.1 hx (of_bland hy.2)

/-- A text without openers is cut into its characters. -/
lemma cut (h : OpenerFree cs) : Cut cs (cs.map .plain) := by
  induction cs with
  | nil => exact .nil
  | cons c cs ih =>
    exact .plain (fun round hp => h round hp.isInfix)
      (ih (h.of_infix (List.suffix_cons c cs).isInfix))

lemma settled (h : OpenerFree cs) : Settled cs := ⟨_, h.cut, by simp⟩

end OpenerFree

/-- A cut without markers is a cut of a text without openers. -/
lemma Cut.openerFree {ss : List Segment} (h : Cut cs ss) (hss : ∀ m, .marker m ∉ ss) :
    OpenerFree cs := by
  induction h with
  | nil => exact .nil
  | plain unopened _ ih =>
    intro round hin
    rcases List.infix_cons_iff.1 hin with hp | hin
    · exact unopened round hp
    · exact ih (fun m hm => hss m (List.mem_cons_of_mem _ hm)) round hin
  | @marker m => exact absurd List.mem_cons_self (hss m)

/-! ### Settled texts -/

lemma settled_iff_marked :
    Settled cs ↔ ∃ ms, Marked cs ms ∧ ∀ m ∈ ms, m.round = .compose := by
  constructor
  · rintro ⟨ss, hss, hround⟩
    exact ⟨markersOf ss, ⟨ss, hss, rfl⟩, fun m hm => hround m (mem_markersOf.1 hm)⟩
  · rintro ⟨ms, ⟨ss, hss, rfl⟩, hround⟩
    exact ⟨ss, hss, fun m hm => hround m (mem_markersOf.2 hm)⟩

/-- The markers that the scanner gives are those of the segments. -/
lemma forall_mem_locate {P : Marker → Prop} {offset : Nat} {ss : List Segment} :
    (∀ l ∈ locate offset ss, P l.marker) ↔ ∀ m, .marker m ∈ ss → P m := by
  rw [← List.forall_mem_map (P := P), map_marker_locate]
  simp only [mem_markersOf]

/-- A text is settled if the scanner takes it and finds nothing but compose markers. -/
lemma settled_iff {s : String} :
    Settled s.toList ↔ ∃ ms, scanMarkers s = .ok ms ∧ ∀ l ∈ ms, l.marker.round = .compose := by
  constructor
  · rintro ⟨ss, hss, hround⟩
    refine ⟨locate 0 ss, ?_, forall_mem_locate.2 hround⟩
    rw [scanMarkers, segments_eq_ok_iff.2 hss]
    rfl
  · rintro ⟨ms, hscan, hround⟩
    obtain ⟨ss, hss, rfl⟩ := Outcome.map_eq_ok_iff.1 hscan
    exact ⟨ss, segments_eq_ok_iff.1 hss, forall_mem_locate.1 hround⟩

namespace Settled

/-- What the last step of the config round lets through is settled. -/
lemma of_firstConfigMarker? {s : String} (h : Resolution.firstConfigMarker? s = .ok none) :
    Settled s.toList := by
  unfold Resolution.firstConfigMarker? at h
  cases hs : segments s with
  | error e => simp [hs, Except.map] at h
  | ok ss =>
    simp only [hs, Except.map, Except.ok.injEq, Option.map_eq_none_iff, List.find?_eq_none,
      decide_eq_true_eq] at h
    refine ⟨ss, segments_eq_ok_iff.1 hs, fun m hm => ?_⟩
    cases hround : m.round with
    | compose => rfl
    | config => exact absurd hround (h m (mem_markersOf.2 hm))

/-- The last step of the config round lets settled texts through. -/
lemma firstConfigMarker?_eq {s : String} (h : Settled s.toList) :
    Resolution.firstConfigMarker? s = .ok none := by
  obtain ⟨ss, hss, hround⟩ := h
  have hnone : (markersOf ss).find? (fun m => m.round = .config) = none := by
    rw [List.find?_eq_none]
    intro m hm
    simp [hround m (mem_markersOf.1 hm)]
  rw [Resolution.firstConfigMarker?, segments_eq_ok_iff.2 hss, Except.map, hnone, Option.map_none]

/-- A settled text in which the guardrail finds no marker holds no opener. -/
lemma openerFree {s : String} (h : Settled s.toList) (hnone : firstComposeMarker? s = none) :
    OpenerFree s.toList := by
  obtain ⟨ss, hcut, hround⟩ := h
  unfold firstComposeMarker? at hnone
  rw [segments_eq_ok_iff.2 hcut] at hnone
  simp only [Option.map_eq_none_iff, List.find?_eq_none, decide_eq_true_eq] at hnone
  exact hcut.openerFree fun m hm => hnone m (mem_markersOf.2 hm) (hround m hm)

lemma append (hx : Settled xs) (hy : Settled ys) (seam : ∀ zs, ys ≠ '\x7b' :: zs) :
    Settled (xs ++ ys) := by
  obtain ⟨ms, hms, hround⟩ := settled_iff_marked.1 hx
  obtain ⟨ns, hns, hround'⟩ := settled_iff_marked.1 hy
  exact settled_iff_marked.2
    ⟨ms ++ ns, hms.append hns seam, List.forall_mem_append.2 ⟨hround, hround'⟩⟩

/-- A character that is neither a dollar nor a brace can be put in front. -/
lemma cons {c : Char} (hc : c ≠ '$' ∧ c ≠ '\x7b') (h : Settled cs) : Settled (c :: cs) := by
  obtain ⟨ms, hms, hround⟩ := settled_iff_marked.1 h
  exact settled_iff_marked.2 ⟨ms, hms.cons hc, hround⟩

lemma append_cons {c : Char} (hc : c ≠ '$' ∧ c ≠ '\x7b') (hx : Settled xs) (hy : Settled ys) :
    Settled (xs ++ c :: ys) :=
  hx.append (hy.cons hc) fun _ h => hc.2 (List.cons.inj h).1

/-- A bland text in front can be taken away. -/
lemma of_bland_append (hx : Bland xs) (h : Settled (xs ++ ys)) : Settled ys := by
  obtain ⟨ms, hms, hround⟩ := settled_iff_marked.1 h
  exact settled_iff_marked.2 ⟨ms, hms.of_append hx, hround⟩

/-- A text behind which no brace stands can be taken away from the end. -/
lemma of_append_of_no_brace (hy : ∀ c ∈ ys, c ≠ '\x7d') (h : Settled (xs ++ ys)) : Settled xs := by
  obtain ⟨ms, hms, hround⟩ := settled_iff_marked.1 h
  exact settled_iff_marked.2 ⟨ms, hms.of_append_of_no_brace hy, hround⟩

lemma trimmed (h : Settled cs) : Settled (trimBoth cs) := by
  obtain ⟨ms, hms, hround⟩ := settled_iff_marked.1 h
  exact settled_iff_marked.2 ⟨ms, hms.trimmed, hround⟩

end Settled

/-! ### Substituting and rewriting -/

/-- Substituting in a text that can be cut substitutes its segments. -/
lemma Cut.substitute_eq {s : String} {ss : List Segment} (vars : String → Option String)
    (h : Cut s.toList ss) :
    substitute vars s = .ok (String.ofList (ss.flatMap (Segment.substituted vars))) := by
  rw [substitute, segments_eq_ok_iff.2 h]
  rfl

/-- The config round leaves a settled text as it is. -/
lemma Settled.substitute_eq {s : String} (h : Settled s.toList) (vars : String → Option String) :
    substitute vars s = .ok s := by
  obtain ⟨ss, hss, hround⟩ := h
  have hsource : ss.flatMap (Segment.substituted vars) = ss.flatMap Segment.source := by
    refine List.flatMap_congr fun s hs => ?_
    cases s with
    | plain c => rfl
    | marker m => rw [Segment.substituted, hround m hs, Segment.source]
  rw [hss.substitute_eq, hsource, hss.source_eq, String.ofList_toList]

/-- Rewriting a text that can be cut rewrites its segments. -/
lemma Cut.rewrite_eq {s : String} {ss : List Segment} (h : Cut s.toList ss) :
    rewrite s = .ok (String.ofList (ss.flatMap Segment.rewritten)) := by
  rw [rewrite, segments_eq_ok_iff.2 h]
  rfl

lemma Settled.exists_rewrite {s : String} (h : Settled s.toList) : ∃ r, rewrite s = .ok r :=
  h.elim fun _ hss => ⟨_, hss.1.rewrite_eq⟩

/-- A text without openers is its own rewriting. -/
lemma OpenerFree.rewrite_eq {s : String} (h : OpenerFree s.toList) : rewrite s = .ok s := by
  have hid : (s.toList.map Segment.plain).flatMap Segment.rewritten = s.toList := by
    generalize s.toList = cs
    induction cs with
    | nil => rfl
    | cons c cs ih => simpa [Segment.rewritten] using ih
  rw [h.cut.rewrite_eq, hid, String.ofList_toList]

end TwoStage
