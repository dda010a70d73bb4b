import TwoStage.Template
import TwoStage.Proofs.Marker.Settled
import TwoStage.Proofs.Outcome

/-!
# Where references stand

A reference is read exactly where its source stands, so a text resolves to itself, whatever
references lead to, exactly if no reference stands anywhere in it. In a text that can be cut the
only place for one is the default of a marker, with the first brace of the marker's closer behind
it.
-/

namespace TwoStage

open Text Yaml

namespace Reference

/-! ### Reading a reference -/

/-- The reference can be written: it has names, each of which is one. -/
structure IsValid (r : Reference) : Prop where
  ne_nil : r.names ≠ []
  names : ∀ n ∈ r.names, isName n = true

def path (r : Reference) : List Char := r.names.flatMap fun n => '.' :: n

lemma source_toList (r : Reference) : r.source.toList = opener ++ r.path ++ ['\x7d'] := by
  rw [source, String.toList_ofList, path]

lemma isNameChar_of_isName {n : List Char} (h : isName n = true) :
    ∀ c ∈ n, isNameChar c = true := by
  simp only [isName, Bool.and_eq_true, List.all_eq_true] at h
  exact h.2

lemma not_mem_of_isName {n : List Char} {c : Char} (h : isName n = true)
    (hc : isNameChar c = false) : c ∉ n := fun hmem => by
  simp [isNameChar_of_isName h c hmem] at hc

/-- A path holds dots and the characters of names. -/
lemma IsValid.notMem_path {r : Reference} (h : r.IsValid) {c : Char} (hc : isNameChar c = false)
    (hdot : c ≠ '.') : c ∉ r.path := by
  intro hmem
  obtain ⟨n, hn, hmem⟩ := List.mem_flatMap.1 hmem
  rcases List.mem_cons.1 hmem with heq | hmem
  · exact hdot heq
  · exact not_mem_of_isName (h.names n hn) hc hmem

lemma IsValid.brace_notMem_path {r : Reference} (h : r.IsValid) : '\x7d' ∉ r.path :=
  h.notMem_path (by decide) (by decide)

lemma IsValid.colon_notMem_source {r : Reference} (h : r.IsValid) : ':' ∉ r.source.toList := by
  rw [source_toList, List.mem_append, List.mem_append, not_or, not_or]
  exact ⟨⟨by decide, h.notMem_path (by decide) (by decide)⟩, by decide⟩

lemma ofPath?_eq_some_iff {cs : List Char} {r : Reference} :
    ofPath? cs = some r ↔ r.IsValid ∧ cs = r.path := by
  unfold ofPath?
  constructor
  · intro h
    split at h
    next name names hsplit =>
      split at h
      next hall =>
        obtain rfl := Option.some.inj h
        have hpath := eq_of_splitAll hsplit
        exact ⟨⟨by simp, by simpa using hall⟩, by simpa [path] using hpath⟩
      next => simp at h
    next => simp at h
  · rintro ⟨hr, rfl⟩
    have hsplit : splitAll '.' r.path = [] :: r.names :=
      splitAll_append_flatMap [] (by simp) fun n hn =>
        not_mem_of_isName (hr.names n hn) (by decide)
    obtain ⟨name, names, hnames⟩ := List.exists_cons_of_ne_nil hr.ne_nil
    rw [hsplit, hnames]
    have hall : (name :: names).all isName = true := by
      rw [← hnames, List.all_eq_true]
      exact hr.names
    simp only [hall, if_true]
    rw [← hnames]

/-- A reference is read where its source stands. -/
lemma atStart?_eq_some_iff {cs rest : List Char} {r : Reference} :
    atStart? cs = some (r, rest) ↔ r.IsValid ∧ cs = r.source.toList ++ rest := by
  rw [source_toList]
  unfold atStart?
  constructor
  · intro h
    split at h
    next hopen =>
      obtain ⟨more, rfl⟩ := List.isPrefixOf_iff_prefix.1 hopen
      rw [List.drop_left] at h
      split at h
      next path after hcut =>
        obtain ⟨r', hr', heq⟩ := Option.map_eq_some_iff.1 h
        obtain ⟨rfl, rfl⟩ := Prod.mk.inj heq
        obtain ⟨hvalid, rfl⟩ := ofPath?_eq_some_iff.1 hr'
        obtain ⟨c, hc, rfl⟩ := eq_of_cutAt? hcut
        obtain rfl : c = '\x7d' := by simpa using hc
        exact ⟨hvalid, by simp⟩
      next => simp at h
    next => simp at h
  · rintro ⟨hr, rfl⟩
    have hopen : opener.isPrefixOf (opener ++ r.path ++ ['\x7d'] ++ rest) = true := by
      rw [List.isPrefixOf_iff_prefix, List.append_assoc, List.append_assoc]
      exact List.prefix_append _ _
    -- a valid path has no brace, so the first one closes the reference
    have hcut : cutAt? (· == '\x7d') (r.path ++ '\x7d' :: rest) = some (r.path, rest) :=
      cutAt?_append rfl fun x hx => by
        rw [beq_eq_false_iff_ne]
        rintro rfl
        exact hr.brace_notMem_path hx
    have hdrop : (opener ++ r.path ++ ['\x7d'] ++ rest).drop opener.length =
        r.path ++ '\x7d' :: rest := by simp
    rw [if_pos hopen, hdrop, hcut]
    simp [ofPath?_eq_some_iff.2 ⟨hr, rfl⟩]

end Reference

/-! ### Texts without references -/

/-- No reference stands anywhere in the text. -/
def ReferenceFree (cs : List Char) : Prop :=
  ∀ r : Reference, r.IsValid → ¬ r.source.toList <:+: cs

lemma ReferenceFree.of_infix {xs ys : List Char} (h : ReferenceFree ys) (hin : xs <:+: ys) :
    ReferenceFree xs := fun r hr hsource => h r hr (hsource.trans hin)

/-- A reference starts like a marker of the config round. -/
lemma OpenerFree.referenceFree {cs : List Char} (h : OpenerFree cs) : ReferenceFree cs := by
  intro r _ hin
  refine h .config (List.IsInfix.trans (List.IsPrefix.isInfix ?_) hin)
  exact ⟨contextKey.toList ++ r.path ++ ['\x7d'],
    by simp [r.source_toList, Reference.opener, Round.opener]⟩

lemma piecesWithin_eq_map_plain_iff {n : Nat} {cs : List Char} (hn : cs.length ≤ n) :
    piecesWithin n cs = cs.map .plain ↔ ReferenceFree cs := by
  induction cs generalizing n with
  | nil =>
    have hnil : piecesWithin n [] = [] := by cases n <;> rfl
    simp [hnil, ReferenceFree, Reference.source_toList, Reference.opener]
  | cons c cs ih =>
    obtain ⟨n, rfl⟩ : ∃ m, n = m + 1 := ⟨n - 1, by simp at hn; omega⟩
    unfold piecesWithin
    split
    next r rest hstart =>
      obtain ⟨hr, heq⟩ := Reference.atStart?_eq_some_iff.1 hstart
      constructor
      · intro h
        simp at h
      · intro h
        exact absurd ⟨[], rest, by simp [heq]⟩ (h r hr)
    next hstart =>
      rw [List.map_cons, List.cons.injEq, eq_self, true_and, ih (by simpa using hn)]
      constructor
      · intro h r hr hin
        rcases List.infix_cons_iff.1 hin with ⟨rest, heq⟩ | hin
        · rw [Reference.atStart?_eq_some_iff.2 ⟨hr, heq.symm⟩] at hstart
          simp at hstart
        · exact h r hr hin
      · exact fun h => h.of_infix (List.suffix_cons c cs).isInfix

/-- A text is cut into its characters exactly if no reference stands in it. -/
lemma piecesOf_eq_map_plain_iff {s : String} :
    piecesOf s = s.toList.map .plain ↔ ReferenceFree s.toList :=
  piecesWithin_eq_map_plain_iff le_rfl

/-- A text that is cut into plain characters is cut into its own. -/
lemma piecesWithin_eq_map_plain {n : Nat} {cs : List Char} (hn : cs.length ≤ n)
    (h : ∀ p ∈ piecesWithin n cs, ∃ c, p = .plain c) : piecesWithin n cs = cs.map .plain := by
  induction cs generalizing n with
  | nil => cases n <;> rfl
  | cons c cs ih =>
    obtain ⟨n, rfl⟩ : ∃ m, n = m + 1 := ⟨n - 1, by simp at hn; omega⟩
    unfold piecesWithin at h ⊢
    split at h
    next r rest hstart =>
      obtain ⟨c', hc'⟩ := h _ List.mem_cons_self
      simp at hc'
    next hstart =>
      rw [List.map_cons, List.cons.injEq]
      exact ⟨rfl, ih (by simpa using hn) fun p hp => h p (List.mem_cons_of_mem _ hp)⟩

namespace Template

/-- The parts of plain characters make up their text. -/
lemma mapM_resolvePiece_plain (follow : Follow) (path : String) (cs : List Char) :
    (cs.map Piece.plain).mapM (resolvePiece follow path) =
      .ok (cs.map fun c => String.ofList [c]) := by
  rw [Outcome.mapM_eq_ok_iff, List.forall₂_map_left_iff, List.forall₂_map_right_iff]
  exact List.forall₂_same.2 fun c _ => rfl

lemma join_map_ofList (cs : List Char) :
    String.join (cs.map fun c => String.ofList [c]) = String.ofList cs := by
  rw [← String.toList_inj, String.toList_join, String.toList_ofList, List.flatMap_map]
  simp

/-- A text stands for itself, whatever references lead to, exactly if it holds none. -/
lemma resolveText_eq_self_iff {s : String} :
    (∀ follow path, resolveText follow path s = .ok (.text s)) ↔ ReferenceFree s.toList := by
  rw [← piecesOf_eq_map_plain_iff]
  constructor
  · intro h
    refine piecesWithin_eq_map_plain le_rfl fun p hp => ?_
    -- a reference that nothing stands behind fails, so that no piece can be one
    have hs := h (fun _ _ => .error .unwritable) ""
    cases p with
    | plain c => exact ⟨c, rfl⟩
    | reference r =>
      unfold resolveText at hs
      split at hs
      next => simp at hs
      next =>
        obtain ⟨parts, hparts, -⟩ := Outcome.map_eq_ok_iff.1 hs
        obtain ⟨part, -, hpart⟩ := Outcome.exists_result_of_mem hparts hp
        simp [resolvePiece, bind, Except.bind] at hpart
  · intro h follow path
    unfold resolveText
    split
    next r hr =>
      rw [h] at hr
      obtain ⟨c, -, -, hc, -⟩ := List.map_eq_cons_iff.1 hr
      simp at hc
    next =>
      rw [h, mapM_resolvePiece_plain, Except.map, join_map_ofList, String.ofList_toList]

end Template

/-! ### Texts with markers -/

/-- No default of a marker in the text holds a reference, with the brace behind the default. -/
def DefaultsReferenceFree (s : String) : Prop :=
  ∀ ss, segments s = .ok ss → ∀ m ∈ markersOf ss, ∀ d ∈ m.default?, ReferenceFree (d ++ ['\x7d'])

namespace Reference

/-- A reference is a dollar, a brace, the name of the section and a path, and a brace. -/
lemma IsValid.exists_source_eq {r : Reference} (h : r.IsValid) :
    ∃ inner, r.source.toList = '$' :: '\x7b' :: (inner ++ ['\x7d']) ∧ '\x7d' ∉ inner ∧
      ∃ rest, inner = 'x' :: '-' :: rest := by
  refine ⟨contextKey.toList ++ r.path, by simp [source_toList, opener], fun hmem => ?_, _, rfl⟩
  rcases List.mem_append.1 hmem with hmem | hmem
  · exact absurd hmem (by decide)
  · exact h.brace_notMem_path hmem

end Reference

/-- The name of the section is no name of a variable, so that no marker begins with it. -/
lemma Marker.IsValid.body_append_ne {m : Marker} (hm : m.IsValid) (cs ds : List Char) :
    m.body ++ '\x7d' :: cs ≠ 'x' :: '-' :: ds := by
  intro h
  obtain ⟨c, name, hname⟩ := List.exists_cons_of_ne_nil (l := m.name) fun hnil => by
    have hvalid := hm.name
    simp [hnil, isVariableName] at hvalid
  have hdash : '-' ∉ m.name := not_mem_of_isVariableName hm.name (by decide) (by decide)
  rw [hname] at hdash
  rw [Marker.body] at h
  cases name with
  | nil => cases hd : m.default? <;> simp [hname, hd, defaultSeparator] at h
  | cons c' name =>
    cases hd : m.default? <;>
    · simp only [hname, hd, List.cons_append, List.cons.injEq] at h
      exact hdash (by simp [h.2.1])

lemma Round.exists_closer_eq (round : Round) : ∃ rest, round.closer = '\x7d' :: rest := by
  cases round <;> exact ⟨_, rfl⟩

/-- In a marker a dollar starts the opener of the config round or stands in the default. -/
lemma Marker.eq_nil_or_exists_default_eq {m : Marker} (hm : m.IsValid) {us vs : List Char}
    (h : m.source = us ++ '$' :: vs) :
    (us = [] ∧ m.round = .config) ∨
      ∃ d front back, m.default? = some d ∧ d = front ++ '$' :: back ∧
        vs = back ++ m.round.closer := by
  have hname : '$' ∉ m.name := not_mem_of_isVariableName hm.name (by decide) (by decide)
  obtain ⟨c, opener, hopener, hfree⟩ : ∃ c cs, m.round.opener = c :: cs ∧ '$' ∉ cs := by
    cases m.round <;> simp [Round.opener]
  have hcloser : '$' ∉ m.round.closer := by cases m.round <;> simp [Round.closer]
  rw [Marker.source, Marker.body, hopener] at h
  -- a dollar at the very start is that of the opener; any other one is behind the name
  cases us with
  | nil =>
    obtain rfl : c = '$' := by
      rw [List.cons_append, List.cons_append, List.nil_append] at h
      exact (List.cons.inj h).1
    refine .inl ⟨rfl, ?_⟩
    cases hround : m.round with
    | config => rfl
    | compose => simp [hround, Round.opener] at hopener
  | cons u us =>
    refine .inr ?_
    cases hd : m.default? with
    | none =>
      simp only [hd, List.cons_append, List.cons.injEq] at h
      have hmem : '$' ∈ us ++ '$' :: vs := by simp
      rw [← h.2] at hmem
      exact absurd hmem (by simp [hfree, hname, hcloser])
    | some d =>
      simp only [hd, List.cons_append, List.cons.injEq] at h
      have hfront : '$' ∉ opener ++ m.name ++ defaultSeparator := by
        simp [hfree, hname, defaultSeparator]
      have heq : opener ++ m.name ++ defaultSeparator ++ d ++ m.round.closer = us ++ '$' :: vs := by
        simpa using h.2
      obtain ⟨front, back, rfl, -, rfl⟩ := exists_of_append_eq hfront hcloser heq
      exact ⟨_, front, back, rfl, rfl, rfl⟩

/-- A reference in a text that can be cut stands in the default of a marker, with the first brace of
the closer. -/
lemma Cut.exists_default_of_infix {cs : List Char} {ss : List Segment} (hcut : Cut cs ss)
    {r : Reference} (hr : r.IsValid) (hin : r.source.toList <:+: cs) :
    ∃ m ∈ markersOf ss, ∃ d ∈ m.default?, r.source.toList <:+: d ++ ['\x7d'] := by
  obtain ⟨xs, ys, heq⟩ := hin
  obtain ⟨inner, hsource, hinner, rest, hsection⟩ := hr.exists_source_eq
  obtain rfl : xs ++ '$' :: ('\x7b' :: (inner ++ ['\x7d']) ++ ys) = cs := by
    rw [← heq, hsource]
    simp
  rcases hcut.at_char with ⟨-, -, -, -, -, hopen⟩ | ⟨ss₁, m, ss₂, us, vs, rfl, hm, hms, -, hvs⟩
  · exact absurd ⟨inner ++ ['\x7d'] ++ ys, by simp [Round.opener]⟩ (hopen .config)
  rcases Marker.eq_nil_or_exists_default_eq hm hms with
    ⟨rfl, hround⟩ | ⟨_, front, back, hd, rfl, rfl⟩
  · simp only [Marker.source, hround, Round.opener, Round.closer, List.cons_append,
      List.nil_append, List.cons.injEq, true_and] at hms
    subst hms
    rw [hsection] at hvs
    exact absurd (by simpa using hvs.symm)
      (hm.body_append_ne (ss₂.flatMap Segment.source) (rest ++ '\x7d' :: ys))
  · refine ⟨m, mem_markersOf.2 (by simp), _, hd, ?_⟩
    obtain ⟨closer, hclose⟩ := m.round.exists_closer_eq
    rw [hclose] at hvs
    -- the reference ends at the first brace, at the latest at the one behind the default
    have hbrace : '\x7d' ∉ '\x7b' :: inner := by simp [hinner]
    have hends : '\x7b' :: inner ++ '\x7d' :: ys =
        back ++ '\x7d' :: (closer ++ ss₂.flatMap Segment.source) := by simpa using hvs
    obtain ⟨after, hafter⟩ := prefix_of_append_cons_eq hbrace hends
    rw [hsource]
    exact ⟨front, after, by simpa using hafter⟩

/-- Where a text can be cut, references stand in the defaults of its markers alone. -/
lemma Cut.referenceFree_iff {s : String} {ss : List Segment} (hcut : Cut s.toList ss) :
    ReferenceFree s.toList ↔ DefaultsReferenceFree s := by
  constructor
  · intro hfree ss' hss' m hm d hd
    obtain rfl := hcut.unique (segments_eq_ok_iff.1 hss')
    have hsource : m.source <:+: s.toList := by
      rw [← hcut.source_eq]
      exact List.infix_of_mem_flatten (List.mem_map.2 ⟨_, mem_markersOf.1 hm, rfl⟩)
    refine hfree.of_infix (List.IsInfix.trans ?_ hsource)
    obtain ⟨rest, hrest⟩ := m.round.exists_closer_eq
    rw [Option.mem_def] at hd
    exact ⟨m.round.opener ++ m.name ++ defaultSeparator, rest, by
      simp [Marker.source, Marker.body, hd, hrest]⟩
  · intro hdefaults r hr hin
    obtain ⟨m, hm, d, hd, hin⟩ := hcut.exists_default_of_infix hr hin
    exact hdefaults ss (segments_eq_ok_iff.2 hcut) m hm d hd r hr hin

/-- In a settled text references stand in the defaults of markers alone. -/
lemma Settled.referenceFree_iff {s : String} (h : Settled s.toList) :
    ReferenceFree s.toList ↔ DefaultsReferenceFree s := by
  obtain ⟨ss, hcut, -⟩ := h
  exact hcut.referenceFree_iff

end TwoStage
