import TwoStage.Proofs.Marker.Settled
import TwoStage.Proofs.Outcome

/-!
# What rewriting means

A rewritten text is read by compose, whose form of a marker is that of the config round. Rewriting
ought to keep what the text stands for, whatever the variables are: each marker for the variable's
value, else for its whole default, else for itself. It does so exactly if no default holds a closing
brace, for in the rewritten form a default ends at the first one.
-/

namespace TwoStage

/-! ### What compose is to read -/

/-- What stands for a segment once compose knows the variables: the variable's value, else the whole
default, else the marker in compose's form. -/
def Segment.answered (vars : String → Option String) : Segment → List Char
  | .plain c  => [c]
  | .marker m =>
    match vars (String.ofList m.name) with
    | some value => value.toList
    | none       => m.default?.getD (Round.config.opener ++ m.name ++ Round.config.closer)

/-- A text once compose knows the variables. A text that cannot be cut stays as it is. -/
def answered (vars : String → Option String) (s : String) : String :=
  match segments s with
  | .ok ss   => String.ofList (ss.flatMap (Segment.answered vars))
  | .error _ => s

def Marker.forCompose (m : Marker) : Marker := { m with round := .config }

def Segment.forCompose : Segment → Segment
  | .plain c  => .plain c
  | .marker m => .marker m.forCompose

lemma Segment.source_forCompose (s : Segment) : s.forCompose.source = s.rewritten := by
  cases s with
  | plain c => rfl
  | marker m =>
    obtain ⟨round, name, default?⟩ := m
    cases round <;> rfl

/-- A marker in compose's form is substituted by what it stands for. -/
lemma Segment.substituted_forCompose (vars : String → Option String) (s : Segment) :
    s.forCompose.substituted vars = s.answered vars := by
  cases s with
  | plain c => rfl
  | marker m =>
    obtain ⟨round, name, default?⟩ := m
    cases default? <;> rfl

/-! ### Rewritten texts -/

/-- A marker can be written in compose's form if no closing brace stands in it. -/
lemma Marker.IsValid.forCompose {m : Marker} (hm : m.IsValid) (hbrace : '\x7d' ∉ m.body) :
    m.forCompose.IsValid := by
  refine ⟨hm.name, fun hin => hbrace ?_⟩
  have hmem : '\x7d' ∈ m.body ++ [] := hin.subset List.mem_cons_self
  simpa using hmem

/-- A marker's body has the closing braces of its default. -/
lemma Marker.brace_notMem_body_iff {m : Marker} (hm : m.IsValid) :
    '\x7d' ∉ m.body ↔ ∀ d ∈ m.default?, '\x7d' ∉ d := by
  have hname : '\x7d' ∉ m.name := not_mem_of_isVariableName hm.name (by decide) (by decide)
  rw [Marker.body]
  cases m.default? with
  | none => simpa using hname
  | some d => simp [hname, defaultSeparator]

namespace Cut

variable {cs : List Char} {ss : List Segment}

/-- Rewriting makes no brace at the start of a text. -/
lemma head_rewritten (h : Cut cs ss) {zs : List Char}
    (hz : ss.flatMap Segment.rewritten = '\x7b' :: zs)
    (hround : ∀ m, .marker m ∈ ss → m.round = .compose) : ∃ ws, cs = '\x7b' :: ws := by
  cases h with
  | nil => simp at hz
  | plain _ _ => exact ⟨_, by rw [(List.cons.inj hz).1]⟩
  | @marker m _ _ _ _ =>
    rw [List.flatMap_cons, Segment.rewritten, hround m List.mem_cons_self] at hz
    exact absurd (List.cons.inj hz).1 (by decide)

/-- A rewritten text is cut where the text was, if no closing brace stands in a marker. -/
lemma rewritten (h : Cut cs ss) (hround : ∀ m, .marker m ∈ ss → m.round = .compose)
    (hbrace : ∀ m, .marker m ∈ ss → '\x7d' ∉ m.body) :
    Cut (ss.flatMap Segment.rewritten) (ss.map Segment.forCompose) := by
  induction h with
  | nil => exact .nil
  | @plain c cs ss unopened rest ih =>
    have hround' : ∀ m, .marker m ∈ ss → m.round = .compose :=
      fun m hm => hround m (List.mem_cons_of_mem _ hm)
    -- an opener in front of the rewritten rest was one in front of the rest
    exact .plain (fun round hp => unopened round
        (Round.opener_prefix_cons hp fun zs hzs => rest.head_rewritten hzs hround'))
      (ih hround' fun m hm => hbrace m (List.mem_cons_of_mem _ hm))
  | @marker m cs ss valid rest ih =>
    have hrest := ih (fun m hm => hround m (List.mem_cons_of_mem _ hm))
      fun m hm => hbrace m (List.mem_cons_of_mem _ hm)
    rw [List.flatMap_cons, ← Segment.source_forCompose]
    exact .marker (valid.forCompose (hbrace m List.mem_cons_self)) hrest

lemma answered_eq {s : String} (vars : String → Option String) (h : Cut s.toList ss) :
    answered vars s = String.ofList (ss.flatMap (Segment.answered vars)) := by
  rw [answered, segments_eq_ok_iff.2 h]

/-! ### Counting closing braces -/

/-- Where every variable is a closing brace, substituting keeps the number of closing braces: a
marker of the config round has one, too. -/
lemma count_brace_substituted (h : Cut cs ss) :
    (ss.flatMap (Segment.substituted fun _ => some "\x7d")).count '\x7d' = cs.count '\x7d' := by
  induction h with
  | nil => rfl
  | @plain c cs ss _ _ ih =>
    rw [List.flatMap_cons, List.count_append, ih, ← List.count_append]
    rfl
  | @marker m cs ss valid _ ih =>
    rw [List.flatMap_cons, List.count_append, List.count_append, ih, Nat.add_right_cancel_iff]
    cases hround : m.round with
    | compose => rw [Segment.substituted, hround]
    | config =>
      -- the closer of the round is the brace, so the body has none
      have hbody : '\x7d' ∉ m.body := fun hmem => by
        have hclosed := valid.closed
        rw [hround] at hclosed
        obtain ⟨xs, ys, heq⟩ := List.mem_iff_append.1 hmem
        exact hclosed ⟨xs, ys, by simp [heq, Round.closer]⟩
      simp [Segment.substituted, hround, Marker.source, Round.opener, Round.closer,
        List.count_eq_zero.2 hbody]

end Cut

/-- Where every variable is a closing brace, what a text stands for lacks the closing braces that
the rewritten text has inside its markers. -/
lemma count_brace_rewritten (ss : List Segment) :
    (ss.flatMap Segment.rewritten).count '\x7d' =
      (ss.flatMap (Segment.answered fun _ => some "\x7d")).count '\x7d' +
        ((markersOf ss).flatMap Marker.body).count '\x7d' := by
  induction ss with
  | nil => rfl
  | cons s ss ih =>
    rw [List.flatMap_cons, List.flatMap_cons, List.count_append, List.count_append, ih]
    cases s with
    | plain c =>
      rw [markersOf_plain]
      simp only [Segment.rewritten, Segment.answered]
      omega
    | marker m =>
      have hone : (Segment.rewritten (.marker m)).count '\x7d' = m.body.count '\x7d' + 1 := by
        rw [← Segment.source_forCompose]
        change (Round.config.opener ++ m.body ++ Round.config.closer).count '\x7d' = _
        simp [Round.opener, Round.closer]
      rw [markersOf_marker, List.flatMap_cons, List.count_append, hone,
        show Segment.answered _ (.marker m) = ['\x7d'] from rfl, List.count_singleton_self]
      omega

/-! ### Keeping the meaning -/

namespace Cut

variable {cs : List Char} {ss : List Segment}

/-- Without closing braces in its markers a rewritten text stands for what it should. -/
lemma substitute_rewritten (h : Cut cs ss) (hround : ∀ m, .marker m ∈ ss → m.round = .compose)
    (hbrace : ∀ m, .marker m ∈ ss → '\x7d' ∉ m.body) (vars : String → Option String) :
    substitute vars (String.ofList (ss.flatMap Segment.rewritten)) =
      .ok (String.ofList (ss.flatMap (Segment.answered vars))) := by
  have hcut : Cut (String.ofList (ss.flatMap Segment.rewritten)).toList
      (ss.map Segment.forCompose) := by
    rw [String.toList_ofList]
    exact h.rewritten hround hbrace
  have hmeaning : (ss.map Segment.forCompose).flatMap (Segment.substituted vars) =
      ss.flatMap (Segment.answered vars) := by
    rw [List.flatMap_map]
    simp only [Segment.substituted_forCompose]
  rw [hcut.substitute_eq, hmeaning]

/-- If a rewritten text stands for what it should where every variable is a closing brace, then no
closing brace stands in its markers. -/
lemma brace_notMem_of_substitute
    (h : substitute (fun _ => some "\x7d") (String.ofList (ss.flatMap Segment.rewritten)) =
      .ok (String.ofList (ss.flatMap (Segment.answered fun _ => some "\x7d")))) :
    ∀ m ∈ markersOf ss, '\x7d' ∉ m.body := by
  obtain ⟨us, hus, hmeaning⟩ := Outcome.map_eq_ok_iff.1 h
  have hcut := segments_eq_ok_iff.1 hus
  rw [String.toList_ofList] at hcut
  have hsame := hcut.count_brace_substituted
  rw [String.ofList_injective hmeaning, count_brace_rewritten ss] at hsame
  have hnone : ((markersOf ss).flatMap Marker.body).count '\x7d' = 0 := by omega
  rw [List.count_eq_zero] at hnone
  exact fun m hm hmem => hnone (List.mem_flatMap.2 ⟨m, hm, hmem⟩)

end Cut

/-- Where all markers of a text are for compose, its rewritten form stands for what the text ought
to, whatever the variables are, exactly if no default holds a closing brace. -/
theorem substitute_rewrite_eq_iff {s : String} {ms : List Located} (hscan : scanMarkers s = .ok ms)
    (hround : ∀ l ∈ ms, l.marker.round = .compose) :
    (∀ vars, (rewrite s >>= substitute vars) = .ok (answered vars s)) ↔
      ∀ l ∈ ms, ∀ d ∈ l.marker.default?, '\x7d' ∉ d := by
  obtain ⟨ss, hss, rfl⟩ := Outcome.map_eq_ok_iff.1 hscan
  have hcut := segments_eq_ok_iff.1 hss
  rw [forall_mem_locate (P := fun m => m.round = .compose)] at hround
  rw [forall_mem_locate (P := fun m => ∀ d ∈ m.default?, '\x7d' ∉ d)]
  have hread (vars : String → Option String) : (rewrite s >>= substitute vars) =
      substitute vars (String.ofList (ss.flatMap Segment.rewritten)) := by
    rw [hcut.rewrite_eq]
    rfl
  simp only [hread, hcut.answered_eq]
  constructor
  -- one assignment is enough here: the braces are counted where every variable is a brace
  · intro hkeeps m hm
    exact (Marker.brace_notMem_body_iff (hcut.isValid m hm)).1
      (Cut.brace_notMem_of_substitute (hkeeps _) m (mem_markersOf.2 hm))
  · intro hbrace
    exact hcut.substitute_rewritten hround fun m hm =>
      (Marker.brace_notMem_body_iff (hcut.isValid m hm)).2 (hbrace m hm)

/-- An opening brace in a default does no harm, and neither does a closing brace behind a marker. -/
theorem substitute_rewrite_of_open_brace :
    scanMarkers "\x7b\x7bJSON:-\x7b\"a\": 1\x7d\x7d\x7d" =
      .ok [⟨⟨.compose, "JSON".toList, some "\x7b\"a\": 1".toList⟩, 0, 17⟩] ∧
    ∀ vars, (rewrite "\x7b\x7bJSON:-\x7b\"a\": 1\x7d\x7d\x7d" >>= substitute vars) =
      .ok (answered vars "\x7b\x7bJSON:-\x7b\"a\": 1\x7d\x7d\x7d") := by
  have hscan : scanMarkers "\x7b\x7bJSON:-\x7b\"a\": 1\x7d\x7d\x7d" =
      .ok [⟨⟨.compose, "JSON".toList, some "\x7b\"a\": 1".toList⟩, 0, 17⟩] := by
    decide +kernel
  exact ⟨hscan, (substitute_rewrite_eq_iff hscan (by decide)).2 (by decide)⟩

/-- A default with a closing brace is cut short there. What is left of it becomes text of its own,
which may be no text that can be cut. -/
theorem substitute_rewrite_cuts_default :
    scanMarkers "\x7b\x7bA:-x\x7dy\x7d\x7d" =
      .ok [⟨⟨.compose, ['A'], some ['x', '\x7d', 'y']⟩, 0, 10⟩] ∧
    (rewrite "\x7b\x7bA:-x\x7dy\x7d\x7d" >>= substitute fun _ => none) = .ok "xy\x7d" ∧
    answered (fun _ => none) "\x7b\x7bA:-x\x7dy\x7d\x7d" = "x\x7dy" ∧
    scanMarkers "X=\x7b\x7bA:-\x7d$\x7b \x7d\x7d" =
      .ok [⟨⟨.compose, ['A'], some ['\x7d', '$', '\x7b', ' ']⟩, 2, 13⟩] ∧
    (rewrite "X=\x7b\x7bA:-\x7d$\x7b \x7d\x7d" >>= substitute fun _ => none) =
      .error (.invalidName .config [' ']) := by
  decide +kernel

end TwoStage
