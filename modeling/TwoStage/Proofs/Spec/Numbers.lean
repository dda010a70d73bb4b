import TwoStage.Proofs.Compilation.Variables
import TwoStage.Proofs.Document.Numbers
import TwoStage.Proofs.Marker.Bland
import TwoStage.Proofs.Yaml.Integers
import TwoStage.Spec

/-!
# Numbers from variables

A numeric field takes an integer as it is written, or as the text that a variable gives. Both make
the same document, and the same checked one. No check looks at a number, so a document is taken with
one number if it is with another, as long as both are within the bounds of the field.
-/

namespace TwoStage

open Yaml Decode Decimal

variable {same : Prop}

/-! ### Checks do not look at numbers -/

/-- A user is checked without the numbers. -/
lemma User.ofSection_eq (path name : String) (u : UserSection) :
    ofSection path name u =
      (ofSection path name { u with uid? := none, gid? := none }).map fun v =>
        { v with uid? := u.uid?, gid? := u.gid? } := by
  unfold ofSection
  dsimp only
  split
  next => rfl
  next =>
    cases KeySource.ofPair? u.publicFile? u.publicText? with
    | none => rfl
    | some publicKey =>
      cases KeySource.ofPair? u.privateFile? u.privateText? with
      | none => rfl
      | some privateKey =>
        -- whether there is a way to log in is asked of the new user, whose numbers play no part in
        -- it
        change (if hasLoginMethod _ then _ else _) =
          Except.map _ (if hasLoginMethod _ then _ else _)
        unfold hasLoginMethod
        dsimp only
        split <;> rfl

lemma User.alike_ofSection (path name : String) {u u' : UserSection} (h : u.Like same u') :
    Alike (EqIf same) (ofSection path name u) (ofSection path name u') := by
  rw [ofSection_eq path name u, ofSection_eq path name u', h.rest]
  exact (Alike.refl (R := Eq) (fun _ => rfl) _).map fun v _ hv hs => by rw [hv, h.eq hs]

lemma Ssh.alike_ofSection (path : String) {s s' : SshSection} (h : s.Like same s') :
    Alike (EqIf same) (ofSection path s) (ofSection path s') := by
  unfold ofSection
  refine (Alike.mapM (S := EqIf same) (h.users.imp fun e e' he => ?_)).bind fun us us' hus => ?_
  · obtain ⟨name, u⟩ := e
    obtain ⟨_, u'⟩ := e'
    obtain ⟨rfl, hu⟩ := he
    exact User.alike_ofSection _ _ hu
  have hempty : us.isEmpty = us'.isEmpty := by cases hus <;> rfl
  rw [h.enabled, hempty]
  split
  · exact .error
  · refine .ok fun hs => ?_
    have heq : us = us' := by
      rw [← List.forall₂_eq_eq_eq]
      exact hus.imp fun _ _ hu => hu hs
    rw [h.eq hs, heq]

lemma StageSpec.alike_ofSection (stage : Stage) {s s' : StageSection} (h : s.Like same s') :
    Alike (fun x x' => EqIf same x x' ∧ x.image = x'.image) (ofSection stage s)
      (ofSection stage s') := by
  have hssh : Alike (Option.Rel (EqIf same)) (s.ssh?.mapM (Ssh.ofSection (stage.path "ssh")))
      (s'.ssh?.mapM (Ssh.ofSection (stage.path "ssh"))) :=
    .mapM_option h.ssh fun _ _ hs => Ssh.alike_ofSection _ hs
  have hrefl {ε α : Type} (x : Except ε α) : Alike Eq x x := .refl (fun _ => rfl) x
  obtain ⟨image?, ssh?, proxy?, apt?, environment, bake, ports, device?, storage, mount,
    scripts?⟩ := s
  obtain ⟨heq, -, hrest⟩ := h
  obtain ⟨_, ssh?', proxy?', _, _, _, _, _, _, _, _⟩ := s'
  -- but for the numbers the two sections are the same, so all other checks are
  obtain ⟨rfl, -, -, rfl, rfl, rfl, rfl, rfl, rfl, rfl, rfl⟩ := StageSection.mk.inj hrest
  unfold ofSection
  refine hssh.bind fun x x' hx => ?_
  refine (hrefl _).bind ?_
  rintro environment _ rfl
  refine (hrefl _).bind ?_
  rintro ⟨⟩ _ rfl
  refine (hrefl _).bind ?_
  rintro ports _ rfl
  dsimp only
  split
  · exact .error
  · refine .ok ⟨fun hs => ?_, rfl⟩
    obtain ⟨-, -, rfl, -⟩ := StageSection.mk.inj (heq hs)
    rw [eq_of_rel (fun _ _ h => h hs) hx]

/-- Documents that are loaded alike are checked alike. -/
lemma Spec.alike_ofDocument (dir : Path) {d d' : Document}
    (h : Document.Like same { d with tree := .null } { d' with tree := .null }) :
    Alike (fun s s' => EqIf same { s with tree := .null } { s' with tree := .null })
      (ofDocument dir d) (ofDocument dir d') := by
  obtain ⟨version, name?, first?, second?, tree, source?⟩ := d
  obtain ⟨version', name?', first?', second?', tree', source?'⟩ := d'
  obtain ⟨-, hfirst, hsecond, hrest⟩ := h
  obtain ⟨-, rfl, -, -, -, rfl⟩ := Document.mk.inj hrest
  dsimp only at hfirst hsecond
  unfold ofDocument
  dsimp only
  cases hfirst with
  | none => exact .error
  | some hfirst =>
    refine (StageSpec.alike_ofSection .first hfirst).bind fun x x' hx => ?_
    cases hsecond with
    | none =>
      change Alike _ (if _ then _ else _) (if _ then _ else _)
      -- the last check is for the image of the first stage, which is no number
      rw [hx.2]
      split
      · exact .error
      · exact .ok fun hs => by rw [hx.1 hs]
    | some hsecond =>
      refine (StageSpec.alike_ofSection .second hsecond).bind fun y y' hy => ?_
      rw [hx.2]
      split
      · exact .error
      · exact .ok fun hs => by rw [hx.1 hs, hy.1 hs]

/-! ### Integers as words and from variables -/

section

variable {vars : String → Option String} {n : Int} {t : Tree}

/-- A marker gives the value of its variable. -/
lemma substitute_wrap {name value : String} (hname : isVariableName name.toList = true)
    (hvalue : vars name = some value) :
    substitute vars (Round.wrap .config name) = .ok value := by
  let m : Marker := ⟨.config, name.toList, none⟩
  have hbrace : '\x7d' ∉ name.toList := not_mem_of_isVariableName hname (by decide) (by decide)
  have hvalid : m.IsValid := ⟨hname, fun hin => hbrace (by
    simpa [m, Round.closer, Marker.body] using hin.subset (List.mem_singleton_self '\x7d'))⟩
  have hcut : Cut (Round.wrap .config name).toList [.marker m] := by
    have hsource : (Round.wrap .config name).toList = m.source ++ [] := by
      simp [Round.wrap, m, Marker.source, Marker.body]
    exact hsource ▸ .marker hvalid .nil
  rw [substitute, segments, hcut.segmentsFrom_eq]
  simp [Except.map, Segment.substituted, m, hvalue]

/-- What the word of an integer means waits for no variable. -/
lemma holds_bland_of_ofPlain (h : Meaning.ofPlain (intText n).toList = .value t) :
    t.Holds fun s => Bland s.toList := by
  rcases Meaning.eq_of_ofPlain_intText h with rfl | ⟨x, rfl⟩ | rfl
  · simp [Tree.Holds, Tree.int]
  · simp [Tree.Holds]
  · simpa [Tree.Holds] using bland_intText n

lemma ne_null_of_ofPlain (h : Meaning.ofPlain (intText n).toList = .value t) : t ≠ .null := by
  rcases Meaning.eq_of_ofPlain_intText h with rfl | ⟨x, rfl⟩ | rfl <;> simp [Tree.int]

lemma resolve_of_ofPlain (h : Meaning.ofPlain (intText n).toList = .value t) :
    Resolution.resolve vars t = .ok t :=
  Resolution.resolve_eq_self fun s hs =>
    (OpenerFree.of_bland (holds_bland_of_ofPlain h s hs)).settled

lemma resolve_wrap {name : String} (hname : isVariableName name.toList = true)
    (hvalue : vars name = some (intText n)) :
    Resolution.resolve vars (.text (Round.wrap .config name)) = .ok (.text (intText n)) := by
  rw [Resolution.resolve_eq_ok_iff, Resolution.substituteAll_eq_ok_iff]
  refine ⟨.text (substitute_wrap hname hvalue), ?_⟩
  simpa [Tree.Holds] using (OpenerFree.of_bland (bland_intText n)).settled

end

lemma NumberField.limit_lt (field : NumberField) : field.limit < Nat.pow 2 64 := by
  cases field <;> decide

namespace Document

variable {field : NumberField} {stage : Stage} {layers : List Layer} {vars : String → Option String}
  {n : Int}

lemma ofWord_of_ofPlain {t : Tree} (h : Meaning.ofPlain (intText n).toList = .value t) :
    ofWord vars layers (intText n) = ofTree vars (surround layers t) := by
  simp [ofWord, Node.plainTree?, h]

lemma exists_error_of_ofWord (vars : String → Option String) (layers : List Layer)
    (h : Meaning.ofPlain (intText n).toList = .tooWide) :
    ∃ e, ofWord vars layers (intText n) = .error e :=
  ⟨_, by rw [ofWord, Node.plainTree?, if_pos rfl, h]⟩

/-- A document with a number in it is loaded only if the number is within the bounds. -/
lemma within_of_ofTree (h : field.StandsIn stage layers) {t u : Tree}
    (ht : Resolution.resolve vars t = .ok u) (hu : u ≠ .null)
    (hread : (numeric field.limit u).toOption = within? field.limit n) {d : Document}
    (hd : ofTree vars (surround layers t) = .ok d) : 0 ≤ n ∧ n ≤ field.limit := by
  obtain ⟨m, hm⟩ := h.exists_number_of_ofTree ht hu hd
  by_contra hn
  rw [within?_eq_none_iff.2 hn, hm] at hread
  simp [Except.toOption] at hread

lemma within_of_ofWord (h : field.StandsIn stage layers) {d : Document}
    (hd : ofWord vars layers (intText n) = .ok d) : 0 ≤ n ∧ n ≤ field.limit := by
  cases hplain : Meaning.ofPlain (intText n).toList with
  | value t =>
    rw [ofWord_of_ofPlain hplain] at hd
    exact within_of_ofTree h (resolve_of_ofPlain hplain) (ne_null_of_ofPlain hplain)
      (toOption_numeric_of_ofPlain field.limit_lt hplain) hd
  | tooWide =>
    obtain ⟨e, he⟩ := exists_error_of_ofWord vars layers hplain
    simp [he] at hd

/-- The variable that is the integer takes the place of its word. -/
lemma alike_ofWord_wrap (h : field.StandsIn stage layers) {name : String}
    (hname : isVariableName name.toList = true) (hvalue : vars name = some (intText n)) :
    Alike (fun d d' => { d with tree := .null } = { d' with tree := .null })
      (ofWord vars layers (intText n))
      (ofTree vars (surround layers (.text (Round.wrap .config name)))) := by
  have hmarker := resolve_wrap hname hvalue
  have htext : Tree.text (intText n) ≠ .null := by simp
  cases hplain : Meaning.ofPlain (intText n).toList with
  | value t =>
    rw [ofWord_of_ofPlain hplain]
    have hnumber : Alike (EqIf True) (numeric field.limit t)
        (numeric field.limit (.text (intText n))) :=
      .of_toOption_eq ((toOption_numeric_of_ofPlain field.limit_lt hplain).trans
        (toOption_numeric_text _ n).symm) fun _ _ => rfl
    exact (h.alike_ofTree (resolve_of_ofPlain hplain) hmarker (ne_null_of_ofPlain hplain) htext
      hnumber).mono fun d d' hd => hd.eq trivial
  | tooWide =>
    -- a word that no number holds is refused, and the variable must not be taken then: were it, its
    -- integer would be within the bounds of the field, and the word would fit
    obtain ⟨e, he⟩ := exists_error_of_ofWord vars layers hplain
    rw [he]
    cases hd : ofTree vars (surround layers (.text (Round.wrap .config name))) with
    | error e' => exact .error
    | ok d =>
      have hwithin := within_of_ofTree h hmarker htext (toOption_numeric_text _ n) hd
      have hfits := Meaning.ofPlain_intText
        ⟨hwithin.1, Int.lt_of_le_of_lt hwithin.2 (Int.ofNat_lt.2 field.limit_lt)⟩
      simp [hfits] at hplain

/-- Documents with different numbers within the bounds are loaded alike. -/
lemma alike_ofWord_zero (h : field.StandsIn stage layers) (hn : 0 ≤ n ∧ n ≤ field.limit) :
    Alike (fun d d' => Document.Like False { d with tree := .null } { d' with tree := .null })
      (ofWord vars layers (intText n)) (ofWord vars layers (intText 0)) := by
  have hplain {m : Int} (hm : 0 ≤ m ∧ m ≤ field.limit) :=
    Meaning.ofPlain_intText ⟨hm.1, Int.lt_of_le_of_lt hm.2 (Int.ofNat_lt.2 field.limit_lt)⟩
  have hread {m : Int} (hm : 0 ≤ m ∧ m ≤ field.limit) :
      ∃ k, numeric field.limit (.int m) = .ok k :=
    ⟨_, Outcome.toOption_eq_some_iff.1 ((toOption_numeric_int _ m).trans (if_pos hm))⟩
  have hzero : (0 : Int) ≤ 0 ∧ (0 : Int) ≤ field.limit := ⟨le_refl 0, Int.natCast_nonneg _⟩
  obtain ⟨k, hk⟩ := hread hn
  obtain ⟨k', hk'⟩ := hread hzero
  rw [ofWord_of_ofPlain (hplain hn), ofWord_of_ofPlain (hplain hzero)]
  refine h.alike_ofTree (resolve_of_ofPlain (hplain hn)) (resolve_of_ofPlain (hplain hzero))
    (ne_null_of_ofPlain (hplain hn)) (ne_null_of_ofPlain (hplain hzero)) ?_
  rw [hk, hk']
  exact .ok False.elim

/-- What a variable is makes no difference where it is not used. -/
lemma ofWord_congr {name : String} (hunused : ¬ (surround layers .null).Mentions name)
    {vars' : String → Option String} (hvars : ∀ other, other ≠ name → vars other = vars' other) :
    ofWord vars layers (intText n) = ofWord vars' layers (intText n) := by
  cases hplain : Meaning.ofPlain (intText n).toList with
  | tooWide => rw [ofWord, ofWord, Node.plainTree?, if_pos rfl, hplain]
  | value t =>
    rw [ofWord_of_ofPlain hplain, ofWord_of_ofPlain hplain]
    refine ofTree_congr fun other hother => hvars other ?_
    rintro rfl
    obtain ⟨s, hs, hmention⟩ := hother
    rw [← Tree.mem_strings_iff, mem_strings_surround] at hs
    rcases hs with hs | hs
    · exact hunused ⟨s, Tree.mem_strings_iff.1 hs, hmention⟩
    · obtain ⟨ms, hms, l, hl, hround, -⟩ := hmention
      obtain ⟨ms', hms', hcompose⟩ :=
        settled_iff.1 (OpenerFree.of_bland (holds_bland_of_ofPlain hplain s hs)).settled
      obtain rfl := Except.ok.inj (hms.symm.trans hms')
      exact absurd (hround.symm.trans (hcompose l hl)) (by decide)

/-- A numeric field may hold an integer or a marker for a variable that is its text. Both documents
are refused, or both give the same but for their trees, as they are loaded and as they are checked.
They are taken if the integer is within the bounds of the field and nothing else is wrong, as a
document with zero in the field shows. -/
theorem number_of_variable (h : field.StandsIn stage layers) {name : String}
    (hname : isVariableName name.toList = true)
    (hunused : ¬ (surround layers .null).Mentions name) (vars : String → Option String) (n : Int) :
    let written (m : Int) := ofWord vars layers (intText m)
    let supplied := ofTree (Function.update vars name (some (intText n)))
      (surround layers (.text (Round.wrap .config name)))
    (Alike (fun d d' => { d with tree := .null } = { d' with tree := .null })
        (written n) supplied ∧
      ∀ dir, Alike (fun s s' => { s with tree := .null } = { s' with tree := .null })
        (written n >>= Spec.ofDocument dir) (supplied >>= Spec.ofDocument dir)) ∧
    ((∃ d, written n = .ok d) ↔ (0 ≤ n ∧ n ≤ field.limit) ∧ ∃ d, written 0 = .ok d) ∧
    ∀ dir, (∃ s, (written n >>= Spec.ofDocument dir) = .ok s) ↔
      (0 ≤ n ∧ n ≤ field.limit) ∧ ∃ s, (written 0 >>= Spec.ofDocument dir) = .ok s := by
  intro written supplied
  have halike : Alike (fun d d' => { d with tree := .null } = { d' with tree := .null })
      (written n) supplied := by
    have hcongr : written n = ofWord (Function.update vars name (some (intText n))) layers
        (intText n) :=
      ofWord_congr hunused fun other hne => (Function.update_of_ne hne _ _).symm
    rw [hcongr]
    exact alike_ofWord_wrap h hname (Function.update_self _ _ _)
  refine ⟨⟨halike, fun dir => ?_⟩, ?_, fun dir => ?_⟩
  · refine halike.bind fun d d' hd => ?_
    have hlike : Document.Like True { d with tree := .null } { d' with tree := .null } :=
      hd ▸ .refl _
    exact (Spec.alike_ofDocument dir hlike).mono fun s s' hs => hs trivial
  · constructor
    · rintro ⟨d, hd⟩
      have hn := within_of_ofWord h hd
      exact ⟨hn, (alike_ofWord_zero h hn).exists_iff.1 ⟨d, hd⟩⟩
    · rintro ⟨hn, hzero⟩
      exact (alike_ofWord_zero h hn).exists_iff.2 hzero
  · have hzero (hn : 0 ≤ n ∧ n ≤ field.limit) :
        (∃ s, (written n >>= Spec.ofDocument dir) = .ok s) ↔
          ∃ s, (written 0 >>= Spec.ofDocument dir) = .ok s :=
      ((alike_ofWord_zero h hn).bind fun d d' hd => Spec.alike_ofDocument dir hd).exists_iff
    constructor
    · rintro ⟨s, hs⟩
      obtain ⟨d, hd, -⟩ := Outcome.bind_eq_ok_iff.1 hs
      have hn := within_of_ofWord h hd
      exact ⟨hn, (hzero hn).1 ⟨s, hs⟩⟩
    · rintro ⟨hn, hs⟩
      exact (hzero hn).2 hs

/-- A user id in a tagged section, with another variable beside it. -/
def idLayers : List Layer :=
  [⟨[], [], .text "stage_1", [(.text "stage_2", .null)]⟩,
    ⟨["t"], [(.text "image", .record [("base", .text "$\x7bB:-a\x7d")])], .text "ssh", []⟩,
    ⟨[], [(.text "port", .int 2200)], .text "users", []⟩,
    ⟨[], [], .text "me", [(.text "you", .record [("password", .text "y")])]⟩,
    ⟨[], [(.text "password", .text "x")], .text "uid", []⟩]

lemma standsIn_idLayers : NumberField.uid.StandsIn .first idLayers := by
  refine .cons ?_ (.cons ?_ (.cons ?_ (.cons ?_ (.cons ?_ .nil)))) <;>
    rintro name ⟨⟩ <;> rfl

lemma not_mentions_idLayers : ¬ (surround idLayers .null).Mentions "UID" := by
  have hnames : ∀ s ∈ (surround idLayers .null).strings,
      ((scanMarkers s).toOption.getD []).all
        (fun l => String.ofList l.marker.name ≠ "UID") = true := by
    decide +kernel
  rintro ⟨s, hs, ms, hscan, l, hl, -, hname⟩
  have hall := hnames s (Tree.mem_strings_iff.2 hs)
  rw [hscan] at hall
  exact of_decide_eq_true (List.all_eq_true.1 hall l hl) hname

/-- An id is taken from a variable as it is when it is written, up to the largest. -/
theorem number_of_variable_of_uid :
    (∃ s, (ofTree (Function.update (fun _ => none) "UID" (some (intText 4294967295)))
      (surround idLayers (.text (Round.wrap .config "UID"))) >>=
        Spec.ofDocument ⟨true, [['p']]⟩) = .ok s) ∧
    ¬ ∃ s, (ofTree (Function.update (fun _ => none) "UID" (some (intText 4294967296)))
      (surround idLayers (.text (Round.wrap .config "UID"))) >>=
        Spec.ofDocument ⟨true, [['p']]⟩) = .ok s := by
  have hzero : ((ofWord (fun _ => none) idLayers (intText 0) >>=
      Spec.ofDocument ⟨true, [['p']]⟩).toOption).isSome = true := by
    decide +kernel
  obtain ⟨s, hs⟩ := Option.isSome_iff_exists.1 hzero
  have hname : isVariableName "UID".toList = true := by decide
  have hnumber := number_of_variable standsIn_idLayers hname not_mentions_idLayers fun _ => none
  constructor
  · exact ((hnumber 4294967295).1.2 _).exists_iff.1
      (((hnumber 4294967295).2.2 _).2 ⟨by decide, s, Outcome.toOption_eq_some_iff.1 hs⟩)
  · intro htaken
    have hwritten := ((hnumber 4294967296).1.2 _).exists_iff.2 htaken
    exact absurd (((hnumber 4294967296).2.2 _).1 hwritten).1 (by decide)

end Document

end TwoStage
