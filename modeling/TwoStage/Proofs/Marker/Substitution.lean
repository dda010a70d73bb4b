import TwoStage.Proofs.Marker.Settled

/-!
# Compose markers and the config round

The config round replaces the config markers of a text and copies the rest of it. What is put in for
a marker stands next to what stood next to the marker, and could make an opener with it. It makes
none if it is not empty and has neither a dollar nor an opening brace, and then the scanner finds in
the new text exactly the compose markers of the old one.
-/

namespace TwoStage

open Text

variable {vars : String → Option String} {m : Marker} {cs xs ys : List Char} {ss : List Segment}

/-! ### What is put in -/

/-- What the config round puts in for a marker: the variable's value, else the default. -/
def Marker.replacement? (vars : String → Option String) (m : Marker) : Option (List Char) :=
  ((vars (String.ofList m.name)).map String.toList).or m.default?

/-- Something is put in for the marker, and no character of it could be the first of an opener. -/
def Marker.IsReplacedBlandly (vars : String → Option String) (m : Marker) : Prop :=
  ∃ v, m.replacement? vars = some v ∧ v ≠ [] ∧ Bland v

lemma Segment.substituted_config {v : List Char} (hround : m.round = .config)
    (hv : m.replacement? vars = some v) : Segment.substituted vars (.marker m) = v := by
  unfold Marker.replacement? at hv
  simp only [Segment.substituted, hround]
  cases hvar : vars (String.ofList m.name) with
  | some value => simpa [hvar] using hv
  | none =>
    have hdefault : m.default? = some v := by simpa [hvar] using hv
    rw [hdefault, Option.getD_some]

lemma Segment.substituted_compose (hround : m.round = .compose) :
    Segment.substituted vars (.marker m) = m.source := by
  simp only [Segment.substituted, hround]

/-! ### The cut of the new text -/

/-- A bland text in front is cut into its characters. -/
lemma Cut.bland_append (hx : Bland xs) (hy : Cut ys ss) :
    Cut (xs ++ ys) (xs.map .plain ++ ss) := by
  induction xs with
  | nil => exact hy
  | cons c xs ih =>
    rw [bland_cons] at hx
    exact (ih hx.2).cons hx.1

/-- The new text starts with a brace only where the old one does. -/
lemma Cut.head_substituted (h : Cut cs ss)
    (hbland : ∀ m, .marker m ∈ ss → m.round = .config → m.IsReplacedBlandly vars) {zs : List Char}
    (hz : ss.flatMap (Segment.substituted vars) = '\x7b' :: zs) : ∃ ws, cs = '\x7b' :: ws := by
  cases h with
  | nil => simp at hz
  | plain _ _ => exact ⟨_, by rw [(List.cons.inj hz).1]⟩
  | @marker m cs ss _ _ =>
    rw [List.flatMap_cons] at hz
    cases hround : m.round with
    | compose =>
      rw [Marker.source, hround]
      exact ⟨_, rfl⟩
    | config =>
      obtain ⟨v, hv, hne, hvbland⟩ := hbland m List.mem_cons_self hround
      obtain ⟨c, v, rfl⟩ := List.exists_cons_of_ne_nil hne
      rw [Segment.substituted_config hround hv] at hz
      exact absurd (List.cons.inj hz).1 (bland_cons.1 hvbland).1.2

/-- The new text can be cut, and its markers are the compose markers of the old one. -/
lemma Cut.exists_substituted (h : Cut cs ss)
    (hbland : ∀ m, .marker m ∈ ss → m.round = .config → m.IsReplacedBlandly vars) :
    ∃ ts, Cut (ss.flatMap (Segment.substituted vars)) ts ∧
      markersOf ts = (markersOf ss).filter fun m => m.round = .compose := by
  induction h with
  | nil => exact ⟨[], .nil, rfl⟩
  | @plain c cs ss unopened rest ih =>
    have hbland' : ∀ m, .marker m ∈ ss → m.round = .config → m.IsReplacedBlandly vars :=
      fun m hm => hbland m (List.mem_cons_of_mem _ hm)
    obtain ⟨ts, hts, hmarkers⟩ := ih hbland'
    -- an opener in front of the new rest was one in front of the old rest
    have hunopened (round : Round) :
        ¬ round.opener <+: c :: ss.flatMap (Segment.substituted vars) := fun hp =>
      unopened round (Round.opener_prefix_cons hp fun zs hzs => rest.head_substituted hbland' hzs)
    exact ⟨.plain c :: ts, .plain hunopened hts, hmarkers⟩
  | @marker m cs ss valid rest ih =>
    obtain ⟨ts, hts, hmarkers⟩ := ih fun m hm => hbland m (List.mem_cons_of_mem _ hm)
    rw [List.flatMap_cons, markersOf_marker]
    cases hround : m.round with
    | compose =>
      rw [Segment.substituted_compose hround,
        List.filter_cons_of_pos (by simpa using hround), ← hmarkers]
      exact ⟨.marker m :: ts, .marker valid hts, rfl⟩
    | config =>
      obtain ⟨v, hv, -, hvbland⟩ := hbland m List.mem_cons_self hround
      rw [Segment.substituted_config hround hv, List.filter_cons_of_neg (by simp [hround]),
        ← hmarkers]
      -- what stands for the marker starts none, so it is cut one character at a time
      exact ⟨v.map .plain ++ ts, hts.bland_append hvbland, markersOf_plain_append v ts⟩

/-! ### What the scanner finds -/

/-- If something bland is put in for each config marker of a text, the scanner takes the new text
and finds in it exactly the compose markers of the old one, in the same order. A closing brace in
what is put in does no harm. -/
theorem scanMarkers_substitute {s : String} {ms : List Located} (hscan : scanMarkers s = .ok ms)
    (hbland : ∀ l ∈ ms, l.marker.round = .config → l.marker.IsReplacedBlandly vars) :
    ∃ s' ms', substitute vars s = .ok s' ∧ scanMarkers s' = .ok ms' ∧
      ms'.map Located.marker =
        (ms.map Located.marker).filter fun m => m.round = .compose := by
  obtain ⟨ss, hss, rfl⟩ := Outcome.map_eq_ok_iff.1 hscan
  have hcut := segments_eq_ok_iff.1 hss
  rw [forall_mem_locate (P := fun m => m.round = .config → m.IsReplacedBlandly vars)] at hbland
  obtain ⟨ts, hts, hmarkers⟩ := hcut.exists_substituted hbland
  refine ⟨_, locate 0 ts, hcut.substitute_eq vars, ?_, ?_⟩
  · rw [← String.toList_ofList (l := ss.flatMap _)] at hts
    rw [scanMarkers, segments_eq_ok_iff.2 hts]
    rfl
  · rw [map_marker_locate, map_marker_locate, hmarkers]

/-- A config marker stands between a brace and a compose marker, another one behind a dollar, and
what looks like a third is in a default. -/
theorem scanMarkers_substitute_between_braces :
    scanMarkers "\x7b$\x7bA\x7d\x7b\x7bB:-$\x7bC\x7d\x7d\x7d$$\x7bD:-d\x7d" =
      .ok [⟨⟨.config, ['A'], none⟩, 1, 5⟩, ⟨⟨.compose, ['B'], some ['$', '\x7b', 'C']⟩, 5, 15⟩,
        ⟨⟨.config, ['D'], some ['d']⟩, 17, 24⟩] ∧
    ∃ s' ms', substitute (fun name => if name = "A" then some "a\x7d" else none)
        "\x7b$\x7bA\x7d\x7b\x7bB:-$\x7bC\x7d\x7d\x7d$$\x7bD:-d\x7d" = .ok s' ∧
      scanMarkers s' = .ok ms' ∧
      ms'.map Located.marker = [⟨.compose, ['B'], some ['$', '\x7b', 'C']⟩] := by
  have hscan : scanMarkers "\x7b$\x7bA\x7d\x7b\x7bB:-$\x7bC\x7d\x7d\x7d$$\x7bD:-d\x7d" =
      .ok [⟨⟨.config, ['A'], none⟩, 1, 5⟩, ⟨⟨.compose, ['B'], some ['$', '\x7b', 'C']⟩, 5, 15⟩,
        ⟨⟨.config, ['D'], some ['d']⟩, 17, 24⟩] := by
    decide +kernel
  refine ⟨hscan, scanMarkers_substitute hscan ?_⟩
  rw [List.forall_mem_cons, List.forall_mem_cons, List.forall_mem_singleton]
  refine ⟨fun _ => ⟨['a', '\x7d'], by decide, by decide, by decide⟩, fun hround => ?_,
    fun _ => ⟨['d'], by decide, by decide, by decide⟩⟩
  exact absurd hround (by decide)

end TwoStage
