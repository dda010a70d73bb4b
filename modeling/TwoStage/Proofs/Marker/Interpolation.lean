import Mathlib.Data.List.Chain
import TwoStage.Proofs.Marker.Settled

/-!
# What compose makes of plain text

Compose reads a rewritten text by rules of its own, to which a dollar means more than to the
scanner: two of them stand for one, and one in front of a name is a variable even without braces.
Rewriting hands plain characters on as they are. So a rewritten text comes out with its plain
characters unchanged exactly if none of them is a dollar in front of another dollar or of a name.
-/

namespace TwoStage

open Text

/-! ### Compose's rules -/

namespace Compose

def isNameChar (c : Char) : Bool := c.isAlphanum || c == '_'

/-- The variable behind a dollar, and what follows it. It stands in braces, up to the first closing
one, or is a bare name, which goes on as far as it can. -/
def behindDollar? : List Char → Option (Marker × List Char)
  | '\x7b' :: cs =>
    (cutFirst? Round.config.closer cs).bind fun (body, rest) =>
      (Marker.ofBody? .config body).map fun m => (m, rest)
  | cs =>
    if isVariableName (cs.takeWhile isNameChar) then
      some (⟨.config, cs.takeWhile isNameChar, none⟩, cs.dropWhile isNameChar)
    else none

/-- What stands for a variable: its value, which is empty if it is not set. A default takes the
place of an empty value. -/
def valueOf (vars : String → Option String) (m : Marker) : List Char :=
  match (vars (String.ofList m.name)).getD "", m.default? with
  | "",    some d => d
  | value, _      => value.toList

lemma length_le_of_behindDollar? {cs rest : List Char} {m : Marker}
    (h : behindDollar? cs = some (m, rest)) : rest.length ≤ cs.length := by
  unfold behindDollar? at h
  split at h
  next cs =>
    obtain ⟨⟨body, after⟩, hcut, h⟩ := Option.bind_eq_some_iff.1 h
    obtain ⟨m', -, heq⟩ := Option.map_eq_some_iff.1 h
    obtain ⟨-, rfl⟩ := Prod.mk.inj heq
    rw [eq_of_cutFirst? hcut]
    simp only [List.length_append, List.length_cons]
    omega
  next =>
    split at h
    · obtain ⟨-, rfl⟩ := Prod.mk.inj (Option.some.inj h)
      exact (List.dropWhile_suffix _).length_le
    · simp at h

/-- Read a text: two dollars are one, a dollar with a variable behind it is the variable, and
everything else stands for itself. -/
def interpolate (vars : String → Option String) (cs : List Char) : List Char :=
  match cs with
  | []               => []
  | '$' :: '$' :: cs => '$' :: interpolate vars cs
  | '$' :: cs        =>
    match _behind : behindDollar? cs with
    | some (m, rest) => valueOf vars m ++ interpolate vars rest
    | none           => '$' :: interpolate vars cs
  | c :: cs          => c :: interpolate vars cs
termination_by cs.length
decreasing_by
  all_goals simp only [List.length_cons]
  · omega
  · have := length_le_of_behindDollar? _behind
    omega
  · omega
  · omega

variable {vars : String → Option String} {xs ys cs : List Char} {c : Char} {m : Marker}

@[simp] lemma interpolate_nil : interpolate vars [] = [] := by rw [interpolate]

@[simp] lemma interpolate_dollars :
    interpolate vars ('$' :: '$' :: cs) = '$' :: interpolate vars cs := by rw [interpolate]

lemma interpolate_cons (hc : c ≠ '$') :
    interpolate vars (c :: cs) = c :: interpolate vars cs := by
  rw [interpolate]
  · exact fun _ h => absurd h hc
  · exact hc

/-! ### Variables behind a dollar -/

/-- A variable without braces is a bare name. -/
lemma behindDollar?_bare (h : ∀ body, cs ≠ '\x7b' :: body) :
    behindDollar? cs =
      if isVariableName (cs.takeWhile isNameChar) then
        some (⟨.config, cs.takeWhile isNameChar, none⟩, cs.dropWhile isNameChar)
      else none := by
  unfold behindDollar?
  split
  next body => exact absurd rfl (h body)
  next => rfl

/-- Nothing is read as a variable where no brace and no name starts. -/
lemma behindDollar?_eq_none (hc : c ≠ '\x7b') (hname : isVariableName [c] = false) :
    behindDollar? (c :: cs) = none := by
  have hfirst : (c.isAlpha || c == '_') = false := by simpa [isVariableName] using hname
  rw [behindDollar?_bare fun body h => hc (List.cons.inj h).1, List.takeWhile_cons]
  split
  · simp [isVariableName, hfirst]
  · simp [isVariableName]

lemma interpolate_dollar (hcs : ∀ rest, cs ≠ '$' :: rest) :
    interpolate vars ('$' :: cs) =
      match behindDollar? cs with
      | some (m, rest) => valueOf vars m ++ interpolate vars rest
      | none           => '$' :: interpolate vars cs := by
  rw [interpolate]
  · split
    next h => simp only [h]
    next h => simp only [h]
  · exact fun rest h => hcs rest h

lemma interpolate_literal (hdollar : c ≠ '$') (hc : c ≠ '\x7b')
    (hname : isVariableName [c] = false) :
    interpolate vars ('$' :: c :: cs) = '$' :: interpolate vars (c :: cs) := by
  rw [interpolate_dollar fun rest h => hdollar (List.cons.inj h).1]
  simp only [behindDollar?_eq_none hc hname]

/-- A name goes on as far as it can. -/
lemma behindDollar?_name (hname : isVariableName [c] = true) :
    behindDollar? (c :: cs) =
      some (⟨.config, c :: cs.takeWhile isNameChar, none⟩, cs.dropWhile isNameChar) := by
  have hfirst : c.isAlpha = true ∨ c = '_' := by simpa [isVariableName] using hname
  have hc : isNameChar c = true := by
    rcases hfirst with hfirst | rfl
    · simp [isNameChar, Char.isAlphanum, hfirst]
    · decide
  have hbrace : c ≠ '\x7b' := by
    rintro rfl
    exact absurd hc (by decide)
  have hall : (cs.takeWhile isNameChar).all isNameChar = true := List.all_takeWhile
  have hwhole : isVariableName (c :: cs.takeWhile isNameChar) = true := by
    rw [isVariableName, Bool.and_eq_true]
    exact ⟨by simpa using hfirst, hall⟩
  rw [behindDollar?_bare fun body h => hbrace (List.cons.inj h).1, List.takeWhile_cons_of_pos hc,
    List.dropWhile_cons_of_pos hc, if_pos hwhole]

lemma interpolate_name (hname : isVariableName [c] = true) :
    interpolate vars ('$' :: c :: cs) =
      valueOf vars ⟨.config, c :: cs.takeWhile isNameChar, none⟩ ++
        interpolate vars (cs.dropWhile isNameChar) := by
  have hc : c ≠ '$' := by
    rintro rfl
    exact absurd hname (by decide)
  rw [interpolate_dollar fun rest h => hc (List.cons.inj h).1]
  simp only [behindDollar?_name hname]

lemma behindDollar?_braces {body : List Char} (hbody : '\x7d' ∉ body) (ys : List Char) :
    behindDollar? ('\x7b' :: (body ++ '\x7d' :: ys)) =
      (Marker.ofBody? .config body).map fun m => (m, ys) := by
  have hcut : cutFirst? Round.config.closer (body ++ '\x7d' :: ys) = some (body, ys) :=
    (cutFirst?_eq_some_iff (by decide)).2 ⟨by simp [Round.closer], fun hin =>
      hbody (by simpa [Round.closer] using hin.subset List.mem_cons_self)⟩
  rw [behindDollar?, hcut, Option.bind_some]

/-- A name ends in front of a closing brace. -/
lemma name_seam (xs ys : List Char) :
    (xs ++ '\x7d' :: ys).takeWhile isNameChar = xs.takeWhile isNameChar ∧
      (xs ++ '\x7d' :: ys).dropWhile isNameChar = xs.dropWhile isNameChar ++ '\x7d' :: ys := by
  induction xs with
  | nil => exact ⟨rfl, rfl⟩
  | cons c xs ih =>
    rw [List.cons_append, List.takeWhile_cons, List.takeWhile_cons, List.dropWhile_cons,
      List.dropWhile_cons, ih.1, ih.2]
    split <;> simp

/-- A variable in front of a closing brace ends there at the latest, whatever stands behind it. -/
lemma behindDollar?_seam (xs : List Char) :
    (∀ ys, behindDollar? (xs ++ '\x7d' :: ys) = none) ∨
      (∃ m, ∀ ys, behindDollar? (xs ++ '\x7d' :: ys) = some (m, ys)) ∨
      ∃ m rest, rest.length ≤ xs.length ∧
        ∀ ys, behindDollar? (xs ++ '\x7d' :: ys) = some (m, rest ++ '\x7d' :: ys) := by
  by_cases hbrace : ∃ body, xs = '\x7b' :: body
  · obtain ⟨body, rfl⟩ := hbrace
    -- in braces: they are closed in front of the seam, or the brace of the seam closes them
    by_cases hclosed : '\x7d' ∈ body
    · obtain ⟨name, rest, rfl, hname⟩ := List.eq_append_cons_of_mem hclosed
      have hread (ys : List Char) := behindDollar?_braces hname (rest ++ '\x7d' :: ys)
      cases hm : Marker.ofBody? .config name with
      | none => exact .inl fun ys => by simpa [hm] using hread ys
      | some m =>
        refine .inr (.inr ⟨m, rest, ?_, fun ys => by simpa [hm] using hread ys⟩)
        simp only [List.length_cons, List.length_append]
        omega
    · have hread := behindDollar?_braces hclosed
      cases hm : Marker.ofBody? .config body with
      | none => exact .inl fun ys => by simpa [hm] using hread ys
      | some m => exact .inr (.inl ⟨m, fun ys => by simpa [hm] using hread ys⟩)
  -- without braces a name ends in front of the seam, the brace being no name character
  · have hread (ys : List Char) := @behindDollar?_bare (xs ++ '\x7d' :: ys) fun body h => by
      cases xs with
      | nil => exact absurd (List.cons.inj h).1 (by decide)
      | cons c xs => exact hbrace ⟨xs, by rw [(List.cons.inj h).1]⟩
    simp only [name_seam] at hread
    by_cases hname : isVariableName (xs.takeWhile isNameChar) = true
    · simp only [if_pos hname] at hread
      exact .inr (.inr ⟨_, _, (List.dropWhile_suffix _).length_le, hread⟩)
    · simp only [if_neg hname] at hread
      exact .inl hread

/-- A text falls apart behind a closing brace. -/
lemma interpolate_seam (xs ys : List Char) :
    interpolate vars (xs ++ '\x7d' :: ys) =
      interpolate vars (xs ++ ['\x7d']) ++ interpolate vars ys := by
  -- not by induction on the text: a dollar takes a whole variable with it, of any length
  induction hlength : xs.length using Nat.strong_induction_on generalizing xs with
  | _ n ih =>
    subst hlength
    cases xs with
    | nil => simp [interpolate_cons]
    | cons c xs =>
      by_cases hc : c = '$'
      · subst hc
        by_cases hdollar : ∃ rest, xs = '$' :: rest
        · obtain ⟨rest, rfl⟩ := hdollar
          have hlt : rest.length < ('$' :: '$' :: rest).length := by
            simp only [List.length_cons]
            omega
          simp only [List.cons_append, interpolate_dollars]
          rw [ih _ hlt rest rfl]
        · have hbehind (zs rest : List Char) : xs ++ '\x7d' :: zs ≠ '$' :: rest := by
            intro h
            cases xs with
            | nil => exact absurd (List.cons.inj h).1 (by decide)
            | cons c xs => exact hdollar ⟨xs, by rw [(List.cons.inj h).1]⟩
          rw [List.cons_append, List.cons_append, interpolate_dollar (hbehind ys),
            interpolate_dollar (hbehind [])]
          rcases behindDollar?_seam xs with hread | ⟨m, hread⟩ | ⟨m, rest, hrest, hread⟩
          · simp only [hread]
            rw [ih _ (by simp) xs rfl, List.cons_append]
          · simp [hread]
          · simp only [hread]
            rw [ih _ (by simpa [Nat.lt_succ_iff] using hrest) rest rfl, List.append_assoc]
      · rw [List.cons_append, List.cons_append, interpolate_cons hc, interpolate_cons hc,
          ih _ (by simp) xs rfl, List.cons_append]

end Compose

/-! ### Rewritten texts -/

/-- What a segment of a text is to come out as: a plain character as itself, and a marker as what
compose makes of its rewritten form. -/
def Segment.interpolated (vars : String → Option String) : Segment → List Char
  | .plain c  => [c]
  | .marker m => Compose.interpolate vars (Segment.rewritten (.marker m))

lemma Segment.rewritten_marker {m : Marker} (hround : m.round = .compose) :
    Segment.rewritten (.marker m) = '$' :: '\x7b' :: (m.body ++ ['\x7d']) := by
  simp [Segment.rewritten, hround, Round.opener, Round.closer]

/-- A marker comes out as the variable's value or its default, if that does not close it early. -/
lemma Marker.IsValid.interpolated_eq {m : Marker} (hm : m.IsValid) (hround : m.round = .compose)
    (hbrace : '\x7d' ∉ m.body) (vars : String → Option String) :
    Segment.interpolated vars (.marker m) = Compose.valueOf vars m := by
  have hread : Compose.behindDollar? ('\x7b' :: (m.body ++ ['\x7d'])) =
      some ({ m with round := .config }, []) := by
    have hbody : Marker.ofBody? .config m.body = some { m with round := .config } :=
      Marker.ofBody?_eq_some_iff.2 ⟨rfl, rfl, hm.name⟩
    rw [Compose.behindDollar?_braces hbrace, hbody, Option.map_some]
  rw [Segment.interpolated, Segment.rewritten_marker hround, Compose.interpolate_dollar (by simp)]
  simp [hread, Compose.valueOf]

/-- Compose reads the two segments together: the first is a dollar, and the second is another one or
begins a name. -/
def Segment.Joins : Segment → Segment → Prop
  | .plain c, .plain d => c = '$' ∧ (d = '$' ∨ isVariableName [d] = true)
  | _,        _        => False

instance : DecidableRel Segment.Joins := fun s t => by
  cases s <;> cases t <;> unfold Segment.Joins <;> infer_instance

namespace Cut

open Compose

variable {cs : List Char} {ss : List Segment}

/-- Neither a brace nor a marker of the compose round stands behind a plain dollar. -/
lemma cases_behind_dollar (unopened : ∀ round : Round, ¬ round.opener <+: '$' :: cs)
    (rest : Cut cs ss) (hround : ∀ m, .marker m ∈ ss → m.round = .compose) :
    ss = [] ∨ ∃ c ss', ss = .plain c :: ss' ∧ c ≠ '\x7b' := by
  have hopen := unopened .config
  cases rest with
  | nil => exact .inl rfl
  | @plain c cs ss' _ _ =>
    refine .inr ⟨c, ss', rfl, ?_⟩
    rintro rfl
    exact hopen ⟨cs, rfl⟩
  | @marker m cs ss' _ _ =>
    have hsource : m.source ++ cs = '\x7b' :: ('\x7b' :: (m.body ++ m.round.closer ++ cs)) := by
      simp [Marker.source, hround m List.mem_cons_self, Round.opener]
    exact absurd ⟨_, (congrArg ('$' :: ·) hsource).symm⟩ hopen

/-- A rewritten marker is read by itself. -/
lemma interpolate_marker (m : Marker) (hround : m.round = .compose) (ys : List Char) :
    interpolate vars (Segment.rewritten (.marker m) ++ ys) =
      Segment.interpolated vars (.marker m) ++ interpolate vars ys := by
  rw [Segment.interpolated, Segment.rewritten_marker hround, List.cons_append, List.cons_append,
    List.append_assoc, List.singleton_append]
  exact interpolate_seam ('$' :: '\x7b' :: m.body) ys

/-- A plain character that is not read together with what follows stands for itself. -/
lemma interpolate_plain {c : Char} (unopened : ∀ round : Round, ¬ round.opener <+: c :: cs)
    (rest : Cut cs ss) (hround : ∀ m, .marker m ∈ ss → m.round = .compose)
    (hjoin : ∀ s ∈ ss.head?, ¬ (Segment.plain c).Joins s) :
    interpolate vars (c :: ss.flatMap Segment.rewritten) =
      c :: interpolate vars (ss.flatMap Segment.rewritten) := by
  by_cases hc : c = '$'
  · subst hc
    rcases cases_behind_dollar unopened rest hround with rfl | ⟨d, ss', rfl, hd⟩
    · exact interpolate_dollar (by simp)
    · have hjoin' := hjoin (.plain d) rfl
      simp only [Segment.Joins, true_and, not_or, Bool.not_eq_true] at hjoin'
      exact interpolate_literal hjoin'.1 hd hjoin'.2
  · exact interpolate_cons hc

/-- A text in which compose reads no two plain characters together comes out as it is to. -/
lemma interpolate_rewritten (h : Cut cs ss) (hround : ∀ m, .marker m ∈ ss → m.round = .compose)
    (hchain : ss.IsChain fun s t => ¬ s.Joins t) (vars : String → Option String) :
    interpolate vars (ss.flatMap Segment.rewritten) =
      ss.flatMap (Segment.interpolated vars) := by
  induction h with
  | nil => simp
  | @plain c cs ss unopened rest ih =>
    obtain ⟨hjoin, hchain⟩ := List.isChain_cons.1 hchain
    have hround' : ∀ m, .marker m ∈ ss → m.round = .compose :=
      fun m hm => hround m (List.mem_cons_of_mem _ hm)
    rw [List.flatMap_cons, List.flatMap_cons, ← ih hround' hchain]
    exact interpolate_plain unopened rest hround' hjoin
  | @marker m cs ss valid rest ih =>
    have hrest := ih (fun m hm => hround m (List.mem_cons_of_mem _ hm)) hchain.of_cons
    rw [List.flatMap_cons, List.flatMap_cons, ← hrest]
    exact interpolate_marker m (hround m List.mem_cons_self) _

end Cut

/-- A bare name ends at a seam between segments. -/
lemma exists_dropWhile_rewritten (ss : List Segment) :
    ∃ ss₁ ss₂, ss = ss₁ ++ ss₂ ∧
      (ss.flatMap Segment.rewritten).dropWhile Compose.isNameChar =
        ss₂.flatMap Segment.rewritten := by
  induction ss with
  | nil => exact ⟨[], [], rfl, rfl⟩
  | cons s ss ih =>
    obtain ⟨ss₁, ss₂, rfl, hdrop⟩ := ih
    cases s with
    | plain c =>
      by_cases hc : Compose.isNameChar c = true
      · exact ⟨.plain c :: ss₁, ss₂, rfl, by simpa [Segment.rewritten, hc] using hdrop⟩
      · exact ⟨[], _, rfl, by simp [Segment.rewritten, hc]⟩
    | marker m =>
      obtain ⟨cs, hcs⟩ : ∃ cs, Segment.rewritten (.marker m) = '$' :: cs := by
        obtain ⟨round, name, default?⟩ := m
        cases round <;> exact ⟨_, rfl⟩
      exact ⟨[], _, rfl, by simp [hcs, show Compose.isNameChar '$' = false by decide]⟩

namespace Cut

open Compose

variable {cs : List Char} {ss : List Segment}

/-- A dollar goes where another one stands behind it, and takes away a name that is not set. -/
lemma length_joined_lt {c d : Char} (hjoin : (Segment.plain c).Joins (.plain d))
    (hle : ∀ ss₁ ss₂, ss = ss₁ ++ ss₂ →
      (interpolate (fun _ => none) (ss₂.flatMap Segment.rewritten)).length ≤
        (ss₂.flatMap (Segment.interpolated fun _ => none)).length) :
    (interpolate (fun _ => none) (c :: d :: ss.flatMap Segment.rewritten)).length <
      (ss.flatMap (Segment.interpolated fun _ => none)).length + 2 := by
  obtain ⟨rfl, rfl | hname⟩ := hjoin
  · have hrest := hle [] ss rfl
    rw [interpolate_dollars, List.length_cons]
    omega
  · obtain ⟨ss₁, ss₂, rfl, hdrop⟩ := exists_dropWhile_rewritten ss
    have hrest := hle ss₁ ss₂ rfl
    have hnone (name : List Char) : valueOf (fun _ => none) ⟨.config, name, none⟩ = [] := rfl
    rw [interpolate_name hname, hdrop, hnone, List.nil_append, List.flatMap_append,
      List.length_append]
    omega

/-- Where no variable is set, two plain characters that are read together make a text shorter than
it is to be. -/
lemma length_interpolate_lt (h : Cut cs ss) (hround : ∀ m, .marker m ∈ ss → m.round = .compose)
    (hjoin : ¬ ss.IsChain fun s t => ¬ s.Joins t) :
    (interpolate (fun _ => none) (ss.flatMap Segment.rewritten)).length <
      (ss.flatMap (Segment.interpolated fun _ => none)).length := by
  induction hlength : ss.length using Nat.strong_induction_on generalizing cs ss with
  | _ n ih =>
    subst hlength
    -- what follows comes out no longer than it is to be, whether anything is joined in it or not
    have hle {cs' : List Char} {ss' : List Segment} (hrest : Cut cs' ss')
        (hround' : ∀ m, .marker m ∈ ss' → m.round = .compose) (hlt : ss'.length < ss.length) :
        (interpolate (fun _ => none) (ss'.flatMap Segment.rewritten)).length ≤
          (ss'.flatMap (Segment.interpolated fun _ => none)).length := by
      by_cases hchain : ss'.IsChain fun s t => ¬ s.Joins t
      · rw [hrest.interpolate_rewritten hround' hchain]
      · exact (ih _ hlt hrest hround' hchain rfl).le
    cases h with
    | nil => exact absurd List.isChain_nil hjoin
    | @plain c cs ss unopened rest =>
      have hround' : ∀ m, .marker m ∈ ss → m.round = .compose :=
        fun m hm => hround m (List.mem_cons_of_mem _ hm)
      by_cases hhead : ∀ s ∈ ss.head?, ¬ (Segment.plain c).Joins s
      · have hlt := ih _ (by simp) rest hround' (fun hchain =>
          hjoin (List.isChain_cons.2 ⟨hhead, hchain⟩)) rfl
        change (interpolate _ (c :: ss.flatMap Segment.rewritten)).length <
          (ss.flatMap (Segment.interpolated fun _ => none)).length + 1
        rw [interpolate_plain unopened rest hround' hhead, List.length_cons]
        omega
      -- the first two characters are joined, which already costs one; the rest need not join any
      · push Not at hhead
        obtain ⟨s, hs, hjoined⟩ := hhead
        obtain ⟨ss', rfl⟩ : ∃ ss', ss = s :: ss' := by
          cases ss with
          | nil => simp at hs
          | cons t ss' => exact ⟨ss', by rw [Option.some.inj hs]⟩
        cases s with
        | marker m => exact absurd hjoined not_false
        | plain d =>
          refine length_joined_lt hjoined fun ss₁ ss₂ heq => ?_
          subst heq
          have hcut : Cut cs ((.plain d :: ss₁) ++ ss₂) := rest
          obtain ⟨xs, ys, -, -, hlast⟩ := hcut.split
          refine hle hlast (fun m hm => hround' m (by simp [hm])) ?_
          simp only [List.length_cons, List.length_append]
          omega
    -- a marker joins nothing, so the joined characters are behind it
    | @marker m cs ss valid rest =>
      have hlt := ih _ (by simp) rest (fun m hm => hround m (List.mem_cons_of_mem _ hm))
        (fun hchain => hjoin (List.isChain_cons.2 ⟨fun _ _ => not_false, hchain⟩)) rfl
      rw [List.flatMap_cons, List.flatMap_cons, interpolate_marker m (hround m List.mem_cons_self),
        List.length_append, List.length_append]
      omega

end Cut

/-- A text comes out of compose with its plain characters as they were, whatever the variables are,
exactly if no dollar among them stands in front of another one or of a name. -/
theorem interpolate_rewrite_eq_iff {s : String} {ms : List Located} (hscan : scanMarkers s = .ok ms)
    (hround : ∀ l ∈ ms, l.marker.round = .compose) :
    ∃ ss, segments s = .ok ss ∧ locate 0 ss = ms ∧
      ((∀ vars, (rewrite s).map (fun t => Compose.interpolate vars t.toList) =
          .ok (ss.flatMap (Segment.interpolated vars))) ↔
        ss.IsChain fun s t => ¬ s.Joins t) := by
  obtain ⟨ss, hss, rfl⟩ := Outcome.map_eq_ok_iff.1 hscan
  have hcut := segments_eq_ok_iff.1 hss
  rw [forall_mem_locate (P := fun m => m.round = .compose)] at hround
  refine ⟨ss, hss, rfl, ?_⟩
  have hread (vars : String → Option String) :
      (rewrite s).map (fun t => Compose.interpolate vars t.toList) =
        .ok (Compose.interpolate vars (ss.flatMap Segment.rewritten)) := by
    rw [hcut.rewrite_eq, Except.map, String.toList_ofList]
  simp only [hread, Except.ok.injEq]
  constructor
  · intro hkeeps
    by_contra hjoin
    exact (hcut.length_interpolate_lt hround hjoin).ne (congrArg List.length (hkeeps _))
  · exact fun hchain => hcut.interpolate_rewritten hround hchain

/-- A dollar in front of a digit, of a blank or of nothing comes out as it was. -/
theorem interpolate_rewrite_of_price :
    scanMarkers "$5 \x7b\x7bB:-c\x7d\x7d$" = .ok [⟨⟨.compose, ['B'], some ['c']⟩, 3, 11⟩] ∧
      ∀ vars, (rewrite "$5 \x7b\x7bB:-c\x7d\x7d$").map
          (fun t => Compose.interpolate vars t.toList) =
        .ok ("$5 ".toList ++ Compose.valueOf vars ⟨.compose, ['B'], some ['c']⟩ ++ "$".toList) := by
  have hscan : scanMarkers "$5 \x7b\x7bB:-c\x7d\x7d$" =
      .ok [⟨⟨.compose, ['B'], some ['c']⟩, 3, 11⟩] := by
    decide +kernel
  have hsegments : segments "$5 \x7b\x7bB:-c\x7d\x7d$" =
      .ok [.plain '$', .plain '5', .plain ' ', .marker ⟨.compose, ['B'], some ['c']⟩,
        .plain '$'] := by
    decide +kernel
  obtain ⟨ss, hss, -, hiff⟩ := interpolate_rewrite_eq_iff hscan (by decide)
  obtain rfl := Except.ok.inj (hss.symm.trans hsegments)
  refine ⟨hscan, fun vars => ?_⟩
  have hvalid := (segments_eq_ok_iff.1 hsegments).isValid ⟨.compose, ['B'], some ['c']⟩ (by decide)
  rw [hiff.2 (by decide) vars, ← hvalid.interpolated_eq rfl (by decide)]
  rfl

/-- A dollar is plain to the scanner in front of a name and in front of another dollar, too, but not
to compose. -/
theorem interpolate_rewrite_takes_dollar :
    scanMarkers "pa$word" = .ok [] ∧ rewrite "pa$word" = .ok "pa$word" ∧
      Compose.interpolate (fun _ => none) "pa$word".toList = "pa".toList ∧
      scanMarkers "a$$b\x7b\x7bC\x7d\x7d" = .ok [⟨⟨.compose, ['C'], none⟩, 4, 9⟩] ∧
      rewrite "a$$b\x7b\x7bC\x7d\x7d" = .ok "a$$b$\x7bC\x7d" ∧
      Compose.interpolate (fun _ => some "c") "a$$b$\x7bC\x7d".toList = "a$bc".toList := by
  decide +kernel

end TwoStage
