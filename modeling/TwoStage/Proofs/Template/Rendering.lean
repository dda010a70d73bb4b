import TwoStage.Proofs.Template.Exactness
import TwoStage.Proofs.Template.Shape
import TwoStage.Proofs.Yaml.Record

/-!
# What rendering rewrites

Rendering walks over a template twice: references are resolved first, and markers are rewritten in
what that gives. The walks do not go equally far, for resolving stops at a tag and rewriting does
not. So the strings that are rewritten are those outside of tags with the references in them filled
in, and those under tags as they are written, and rendering succeeds exactly if markers can be read
in all of them.
-/

namespace TwoStage

open Text Yaml

/-- The text can be cut into plain characters and markers. -/
def Readable (s : String) : Prop := ∃ ss, segments s = .ok ss

/-- A text that can be read holds no reference but in the defaults of its markers. -/
lemma Readable.referenceFree_iff {s : String} (h : Readable s) :
    ReferenceFree s.toList ↔ DefaultsReferenceFree s := by
  obtain ⟨ss, hss⟩ := h
  exact (segments_eq_ok_iff.1 hss).referenceFree_iff

namespace Resolution

variable {t : Tree} {path s : String}

lemma markerAt_rewrite_eq_error_iff {e : Error} :
    markerAt path (rewrite s) = .error e ↔
      ∃ cause, segments s = .error cause ∧ e = .malformedMarker path cause := by
  unfold rewrite
  cases segments s <;> simp [markerAt, Except.map, Except.mapError, eq_comm]

lemma exists_markerAt_rewrite_eq_ok_iff :
    (∃ s', markerAt path (rewrite s) = .ok s') ↔ Readable s := by
  unfold rewrite Readable
  cases segments s <;> simp [markerAt, Except.map, Except.mapError]

/-- The markers of a tree are rewritten exactly if they can be read. -/
lemma exists_rewriteAll_eq_ok_iff : (∃ u, rewriteAll t = .ok u) ↔ t.Holds Readable := by
  rw [rewriteAll, Tree.exists_mapTexts_eq_ok_iff, Tree.Holds, Tree.strings, List.forall_mem_map]
  simp only [exists_markerAt_rewrite_eq_ok_iff]

/-- The rewriting fails at the first text that cannot be read. -/
lemma rewriteAll_eq_error_iff {e : Error} :
    rewriteAll t = .error e ↔ ∃ before path s after cause,
      t.textsOf = before ++ (path, s) :: after ∧ (∀ p ∈ before, Readable p.2) ∧
        segments s = .error cause ∧ e = .malformedMarker path cause := by
  rw [rewriteAll, Tree.mapTexts_eq_error_iff]
  simp only [exists_markerAt_rewrite_eq_ok_iff, markerAt_rewrite_eq_error_iff]
  constructor
  · rintro ⟨before, path, s, after, heq, hbefore, cause, hcause, rfl⟩
    exact ⟨before, path, s, after, cause, heq, hbefore, hcause, rfl⟩
  · rintro ⟨before, path, s, after, cause, heq, hbefore, hcause, rfl⟩
    exact ⟨before, path, s, after, heq, hbefore, cause, hcause, rfl⟩

end Resolution

namespace Template

variable {context t t' u : Tree} {s : String}

/-! ### The strings of what a tree resolves to -/

/-- The second tree is a part of the first one: a node of it, or a part of a node that comes in for
a string which is one reference. -/
inductive Takes (context : Tree) : Tree → Tree → Prop
  | self (t : Tree) : Takes context t t
  | whole {s : String} {r : Reference} {node t : Tree} (hs : piecesOf s = [.reference r])
      (target : r.target? context = some node) (h : Takes context node t) :
      Takes context (.text s) t
  | item {ts : List Tree} {t t' : Tree} (mem : t ∈ ts) (h : Takes context t t') :
      Takes context (.sequence ts) t'
  | value {es : List (Tree × Tree)} {e : Tree × Tree} {t : Tree} (mem : e ∈ es)
      (h : Takes context e.2 t) : Takes context (.mapping es) t

/-- The string is one that stands outside of tags, with the references in it filled in. -/
def Fills (context t : Tree) (s : String) : Prop :=
  ∃ source, Takes context t (.text source) ∧ (∀ r, piecesOf source ≠ [.reference r]) ∧
    Unfolds context (.text source) (.text s)

/-- The string stands under a tag. -/
def Keeps (context t : Tree) (s : String) : Prop :=
  ∃ tag v, Takes context t (.tagged tag v) ∧ v.Contains s

lemma Fills.of_takes (h : Fills context t s)
    (ht : ∀ part, Takes context t part → Takes context t' part) : Fills context t' s := by
  obtain ⟨source, htakes, hs⟩ := h
  exact ⟨source, ht _ htakes, hs⟩

lemma Keeps.of_takes (h : Keeps context t s)
    (ht : ∀ part, Takes context t part → Takes context t' part) : Keeps context t' s := by
  obtain ⟨tag, v, htakes, hs⟩ := h
  exact ⟨tag, v, ht _ htakes, hs⟩

namespace Unfolds

/-- A part of a tree that unfolds does so itself, and the tree gets the strings of it. -/
lemma exists_of_takes (h : Unfolds context t u) (ht : Takes context t t') :
    ∃ u', Unfolds context t' u' ∧ ∀ s, u'.Contains s → u.Contains s := by
  induction ht generalizing u with
  | self t => exact ⟨u, h, fun _ hs => hs⟩
  | whole hpieces target _ ih =>
    cases h with
    | whole hpieces' target' h =>
      obtain rfl := Piece.reference.inj (List.cons.inj (hpieces.symm.trans hpieces')).1
      obtain rfl := Option.some.inj (target.symm.trans target')
      exact ih h
    | parts _ _ _ hparts => exact absurd hpieces (hparts _)
  | item mem _ ih =>
    cases h with
    | sequence length h =>
      obtain ⟨u, hzip⟩ := exists_mem_zip length mem
      obtain ⟨u', hu', hcontains⟩ := ih (h _ hzip)
      exact ⟨u', hu', fun s hs => .item (List.of_mem_zip hzip).2 (hcontains s hs)⟩
  | @value es e t mem _ ih =>
    cases h with
    | @mapping _ us length h =>
      obtain ⟨u, hzip⟩ := exists_mem_zip length mem
      have hvalue : (e.2, u) ∈ (es.map Prod.snd).zip us := by
        rw [List.zip_map_left]
        exact List.mem_map.2 ⟨_, hzip, rfl⟩
      have hkey : (e.1, u) ∈ (es.map Prod.fst).zip us := by
        rw [List.zip_map_left]
        exact List.mem_map.2 ⟨_, hzip, rfl⟩
      obtain ⟨u', hu', hcontains⟩ := ih (h _ hvalue)
      exact ⟨u', hu', fun s hs => .value hkey (hcontains s hs)⟩

/-- The strings of an unfolded tree are those outside of tags with their references filled in, and
those under tags. -/
lemma contains_iff (h : Unfolds context t u) :
    u.Contains s ↔ Fills context t s ∨ Keeps context t s := by
  constructor
  · intro hs
    induction h with
    | null | bool _ | number _ => cases hs
    | tagged tag v =>
      cases hs with
      | tagged hs => exact .inr ⟨tag, v, .self _, hs⟩
    | whole hpieces target _ ih =>
      exact (ih hs).imp (·.of_takes fun _ => .whole hpieces target)
        (·.of_takes fun _ => .whole hpieces target)
    | parts node value text hpieces target h inline =>
      cases hs
      exact .inl ⟨_, .self _, hpieces, .parts node value text hpieces target h inline⟩
    | sequence length _ ih =>
      cases hs with
      | item mem hs =>
        obtain ⟨t, hzip⟩ := exists_mem_zip_right length mem
        have hmem := (List.of_mem_zip hzip).1
        exact (ih _ hzip hs).imp (·.of_takes fun _ => .item hmem) (·.of_takes fun _ => .item hmem)
    | @mapping es us length _ ih =>
      cases hs with
      | value mem hs =>
        have hlength : (es.map Prod.snd).length = us.length := by simpa using length
        obtain ⟨t, hzip⟩ := exists_mem_zip_right hlength (List.of_mem_zip mem).2
        obtain ⟨e, he, rfl⟩ := List.mem_map.1 (List.of_mem_zip hzip).1
        exact (ih _ hzip hs).imp (·.of_takes fun _ => .value he) (·.of_takes fun _ => .value he)
  -- a part of the template unfolds to a part of the tree, whatever has been followed to get there
  · rintro (⟨source, htakes, -, hs⟩ | ⟨tag, v, htakes, hs⟩)
    · obtain ⟨u', hu', hcontains⟩ := h.exists_of_takes htakes
      obtain rfl := hu'.unique hs
      exact hcontains s (.text s)
    · obtain ⟨u', hu', hcontains⟩ := h.exists_of_takes htakes
      cases hu'
      exact hcontains s (.tagged hs)

end Unfolds

/-! ### Rendering -/

/-- The section that the references of a template lead into. -/
def sectionOf (es : List (Tree × Tree)) (context : Tree) : Tree :=
  ((Tree.lookupText? contextKey es).getD (.mapping [])).overlay context

def bodyOf (es : List (Tree × Tree)) : Tree := .mapping (Tree.eraseText contextKey es)

lemma render_of_resolve (es : List (Tree × Tree)) (context : Tree) {u : Tree}
    (h : resolve (sectionOf es context) (bodyOf es) = .ok u) :
    render (.mapping es) context = Resolution.rewriteAll u.dropNulls := by
  change (resolve (sectionOf es context) (bodyOf es) >>= fun t =>
    Resolution.rewriteAll t.dropNulls) = _
  rw [h]
  rfl

lemma Resolvable.exists_resolve_eq_ok (h : Resolvable context t) : ∃ u, resolve context t = .ok u :=
  (isFollowing_follow context).exists_resolveTree_eq_ok h .start
    (fun r hr => (isFollowing_follow context).exists_eq_ok h (.of_mentions hr) (by simp)) ""

/-- Rendering a template that can be resolved rewrites the strings outside of tags, with their
references filled in, and the strings under tags as they are written. It succeeds exactly if markers
can be read in all of them, and else fails at the first in which they cannot. A reference under a
tag is not resolved and breaks the rendering, but in the default of a marker. -/
theorem render_of_resolvable (es : List (Tree × Tree)) (context : Tree)
    (h : Resolvable (sectionOf es context) (bodyOf es)) :
    ∃ t, resolve (sectionOf es context) (bodyOf es) = .ok t ∧
      (∀ s, s ∈ t.dropNulls.strings ↔
        Fills (sectionOf es context) (bodyOf es) s ∨ Keeps (sectionOf es context) (bodyOf es) s) ∧
      ((∃ u, render (.mapping es) context = .ok u) ↔
        (∀ s, Fills (sectionOf es context) (bodyOf es) s → Readable s) ∧
          ∀ s, Keeps (sectionOf es context) (bodyOf es) s → Readable s) ∧
      (∀ e, render (.mapping es) context = .error e ↔ ∃ before path s after cause,
        t.dropNulls.textsOf = before ++ (path, s) :: after ∧ (∀ p ∈ before, Readable p.2) ∧
          segments s = .error cause ∧ e = .malformedMarker path cause) ∧
      ((∃ u, render (.mapping es) context = .ok u) →
        ∀ s, Keeps (sectionOf es context) (bodyOf es) s →
          (ReferenceFree s.toList ↔ DefaultsReferenceFree s)) := by
  obtain ⟨t, ht⟩ := h.exists_resolve_eq_ok
  have hstrings : ∀ s, s ∈ t.dropNulls.strings ↔
      Fills (sectionOf es context) (bodyOf es) s ∨ Keeps (sectionOf es context) (bodyOf es) s :=
    fun s => by
      rw [Tree.strings_dropNulls, Tree.mem_strings_iff, (unfolds_of_resolve ht).contains_iff]
  have hok : (∃ u, render (.mapping es) context = .ok u) ↔
      (∀ s, Fills (sectionOf es context) (bodyOf es) s → Readable s) ∧
        ∀ s, Keeps (sectionOf es context) (bodyOf es) s → Readable s := by
    rw [render_of_resolve es context ht, Resolution.exists_rewriteAll_eq_ok_iff, ← forall_and]
    exact forall_congr' fun s => by rw [hstrings, or_imp]
  refine ⟨t, ht, hstrings, hok, fun e => ?_, fun hrender s hs => ?_⟩
  · rw [render_of_resolve es context ht, Resolution.rewriteAll_eq_error_iff]
  · exact ((hok.1 hrender).2 s hs).referenceFree_iff

/-- A template with a reference in one string and a marker under a tag. -/
def markerUnderTag : List (Tree × Tree) :=
  [(.text contextKey, .mapping [(.text "a", .text "b")]), (.text "k", .text "-$\x7bx-cfg.a\x7d-"),
    (.text "l", .tagged "!t" (.text "\x7b\x7bV\x7d\x7d"))]

/-- A value of the context is filled in, and a marker under a tag is rewritten. -/
theorem render_of_resolvable_under_tag :
    Resolvable (sectionOf markerUnderTag (.mapping [(.text "a", .text "c")]))
        (bodyOf markerUnderTag) ∧
      (∀ s, s ∈ ["-c-", "\x7b\x7bV\x7d\x7d"] ↔
        Fills (sectionOf markerUnderTag (.mapping [(.text "a", .text "c")]))
            (bodyOf markerUnderTag) s ∨
          Keeps (sectionOf markerUnderTag (.mapping [(.text "a", .text "c")]))
            (bodyOf markerUnderTag) s) ∧
      render (.mapping markerUnderTag) (.mapping [(.text "a", .text "c")]) =
        .ok (.mapping [(.text "k", .text "-c-"),
          (.text "l", .tagged "!t" (.text "$\x7bV\x7d"))]) := by
  have hsection : sectionOf markerUnderTag (.mapping [(.text "a", .text "c")]) =
      .mapping [(.text "a", .text "c")] := rfl
  have hbody : bodyOf markerUnderTag = .mapping [(.text "k", .text "-$\x7bx-cfg.a\x7d-"),
      (.text "l", .tagged "!t" (.text "\x7b\x7bV\x7d\x7d"))] := rfl
  have hpieces : piecesOf "-$\x7bx-cfg.a\x7d-" =
      [.plain '-', .reference ⟨[['a']]⟩, .plain '-'] := by
    decide
  have hvalue : piecesOf "c" = [.plain 'c'] := by decide
  have hresolve : resolve (sectionOf markerUnderTag (.mapping [(.text "a", .text "c")]))
      (bodyOf markerUnderTag) =
      .ok (.mapping [(.text "k", .text "-c-"),
        (.text "l", .tagged "!t" (.text "\x7b\x7bV\x7d\x7d"))]) := by
    rw [hsection, hbody]
    simp [resolve, resolveTree, resolveEntries, resolveText, hpieces, hvalue, follow,
      Reference.name, contextKey, Reference.target?, Tree.walk?, Tree.lookupText?, resolvePiece,
      interpolated, Tree.scalarText?, bind, Except.bind, pure, Except.pure, Except.map]
  have hresolvable := (unfolds_of_resolve hresolve).resolvable
  obtain ⟨t, ht, hstrings, -⟩ := render_of_resolvable _ _ hresolvable
  obtain rfl := Except.ok.inj (hresolve.symm.trans ht)
  have hplain : rewrite "-c-" = .ok "-c-" := by decide +kernel
  have hmarker : rewrite "\x7b\x7bV\x7d\x7d" = .ok "$\x7bV\x7d" := by decide +kernel
  refine ⟨hresolvable, hstrings, (render_of_resolve _ _ hresolve).trans ?_⟩
  simp [Resolution.rewriteAll, Resolution.markerAt, Tree.dropNulls, Tree.dropNullEntries,
    Tree.isNull, Tree.mapTexts, Tree.mapTextsAt, Tree.mapEntryTextsAt, hplain, hmarker, bind,
    Except.bind, pure, Except.pure, Except.map, Except.mapError]

/-- A template with a reference under a tag. -/
def referenceUnderTag : List (Tree × Tree) :=
  [(.text contextKey, .mapping [(.text "a", .text "b")]),
    (.text "k", .tagged "!t" (.text "$\x7bx-cfg.a\x7d"))]

/-- A reference under a tag breaks the rendering, although the only string of the template stands
for a text without markers. -/
theorem exists_reference_left_under_tag :
    Resolvable (sectionOf referenceUnderTag (.mapping [])) (bodyOf referenceUnderTag) ∧
      (∀ s, (bodyOf referenceUnderTag).Contains s →
        Unfolds (sectionOf referenceUnderTag (.mapping [])) (.text s) (.text "b")) ∧
      Readable "b" ∧
      render (.mapping referenceUnderTag) (.mapping []) =
        .error (.malformedMarker "k" (.invalidName .config "x-cfg.a".toList)) := by
  have hsection : sectionOf referenceUnderTag (.mapping []) =
      .mapping [(.text "a", .text "b")] := rfl
  have hbody : bodyOf referenceUnderTag =
      .mapping [(.text "k", .tagged "!t" (.text "$\x7bx-cfg.a\x7d"))] := rfl
  have hpieces : piecesOf "$\x7bx-cfg.a\x7d" = [.reference ⟨[['a']]⟩] := by decide
  have hvalue : piecesOf "b" = [.plain 'b'] := by decide
  have hresolve : resolve (sectionOf referenceUnderTag (.mapping [])) (bodyOf referenceUnderTag) =
      .ok (bodyOf referenceUnderTag) := by
    simp [hbody, resolve, resolveTree, resolveEntries, bind, Except.bind, pure, Except.pure,
      Except.map]
  have hreference : resolve (sectionOf referenceUnderTag (.mapping []))
      (.text "$\x7bx-cfg.a\x7d") = .ok (.text "b") := by
    rw [hsection]
    simp [resolve, resolveTree, resolveText, hpieces, hvalue, follow, Reference.name, contextKey,
      Reference.target?, Tree.walk?, Tree.lookupText?, resolvePiece, bind, Except.bind, pure,
      Except.pure, Except.map]
  have hstrings (s : String) (hs : (bodyOf referenceUnderTag).Contains s) :
      s = "$\x7bx-cfg.a\x7d" := by
    rw [← Tree.mem_strings_iff, hbody] at hs
    simpa using hs
  have hreadable : segments "b" = .ok [.plain 'b'] := by decide +kernel
  have hmarker : rewrite "$\x7bx-cfg.a\x7d" =
      .error (.invalidName .config "x-cfg.a".toList) := by
    decide +kernel
  refine ⟨(unfolds_of_resolve hresolve).resolvable,
    fun s hs => hstrings s hs ▸ unfolds_of_resolve hreference, ⟨_, hreadable⟩,
    (render_of_resolve _ _ hresolve).trans ?_⟩
  simp [hbody, Resolution.rewriteAll, Resolution.markerAt, Tree.dropNulls, Tree.dropNullEntries,
    Tree.isNull, Tree.mapTexts, Tree.mapTextsAt, Tree.mapEntryTextsAt, hmarker, FieldPath.child,
    FieldPath.label, bind, Except.bind, Except.map, Except.mapError]

end Template

end TwoStage
