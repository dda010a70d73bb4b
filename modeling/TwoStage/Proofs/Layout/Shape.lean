import TwoStage.Proofs.Layout.Fidelity
import TwoStage.Proofs.Template.Shape

/-!
# The shape of a compose file

Whatever a compilation is rendered to has texts for keys, and under a path of keys at which the
template has a text it has a text as well, unless that text is one reference. The image of a stage
is one: it leads to the name of the image, which is no reference itself.
-/

namespace TwoStage

open Text Yaml Template

/-! ### Texts that are one reference -/

/-- A text that is one reference starts with the opener of a marker for the config round. -/
lemma Template.exists_eq_of_whole {s : String} {r : Reference} (h : piecesOf s = [.reference r]) :
    ∃ rest, s.toList = '$' :: '\x7b' :: rest := by
  rw [piecesOf] at h
  cases hs : s.toList with
  | nil => simp [hs, piecesWithin] at h
  | cons c cs =>
    rw [hs, List.length_cons] at h
    unfold piecesWithin at h
    split at h
    next r' rest hstart =>
      obtain ⟨hr, heq⟩ := Reference.atStart?_eq_some_iff.1 hstart
      obtain ⟨inner, hsource, -⟩ := hr.exists_source_eq
      exact ⟨inner ++ ['\x7d'] ++ rest, by rw [heq, hsource]; simp⟩
    next => simp at h

/-- A settled text is not one reference. -/
lemma Settled.ne_whole {s : String} (h : Settled s.toList) (r : Reference) :
    piecesOf s ≠ [.reference r] := by
  intro hwhole
  obtain ⟨rest, hs⟩ := Template.exists_eq_of_whole hwhole
  obtain ⟨ss, hcut, hround⟩ := h
  rw [hs] at hcut
  generalize hcs : '$' :: '\x7b' :: rest = cs at hcut
  cases hcut with
  | nil => simp at hcs
  | plain unopened => exact unopened .config ⟨rest, by simp [← hcs, Round.opener]⟩
  | @marker m _ _ =>
    have hcompose := hround m List.mem_cons_self
    simp [Marker.source, hcompose, Round.opener] at hcs

namespace Layout

variable {c : Compilation} {tree : Tree} {names : List String}

/-! ### Keys -/

lemma textKeyed_reference (path : String) : (reference path).TextKeyed := .text _

lemma textKeyed_getD {s? : Option String} {t : Tree} (h : t.TextKeyed) :
    ((s?.map Tree.text).getD t).TextKeyed := by
  cases s? with
  | none => exact h
  | some s => exact .text s

lemma textKeyed_listTree (items : List String) : (listTree items).TextKeyed := by
  unfold listTree
  split
  · exact .null
  · exact Tree.textKeyed_texts items

lemma textKeyed_gpuDeploy : gpuDeploy.TextKeyed := by
  have hdevice : Tree.TextKeyed (.record [("driver", .text "nvidia"), ("count", .text "all"),
      ("capabilities", .texts ["gpu"])]) :=
    Tree.textKeyed_record (by simp [Tree.TextKeyed.text, Tree.textKeyed_texts])
  refine Tree.textKeyed_record fun f hf => ?_
  obtain rfl := List.mem_singleton.1 hf
  refine Tree.textKeyed_record fun f hf => ?_
  obtain rfl := List.mem_singleton.1 hf
  refine Tree.textKeyed_record fun f hf => ?_
  obtain rfl := List.mem_singleton.1 hf
  exact .sequence (by simpa using hdevice)

lemma textKeyed_fieldIf {name : String} {t? : Option Tree} (h : ∀ t ∈ t?, t.TextKeyed) :
    ∀ f ∈ Tree.fieldIf name t?, f.2.TextKeyed := by
  intro f hf
  obtain ⟨t, ht, rfl⟩ := Option.map_eq_some_iff.1 (Option.mem_toList.1 hf)
  exact h t ht

lemma textKeyed_declaration (v : VolumeDeclaration) : v.toTree.TextKeyed := by
  refine Tree.textKeyed_record (List.forall_mem_append.2 ⟨?_, ?_⟩)
  · refine textKeyed_fieldIf fun t ht => ?_
    split at ht
    next =>
      obtain rfl := Option.some.inj ht
      exact .bool true
    next => simp at ht
  · refine textKeyed_fieldIf fun t ht => ?_
    obtain ⟨s, -, rfl⟩ := Option.map_eq_some_iff.1 ht
    exact .text s

lemma textKeyed_volumesTree (c : Compilation) : (volumesTree c).TextKeyed := by
  unfold volumesTree
  split
  · exact .null
  · refine Tree.textKeyed_record fun f hf => ?_
    obtain ⟨⟨key, v⟩, -, rfl⟩ := List.mem_map.1 hf
    exact textKeyed_declaration v

lemma textKeyed_stageSection (c : Compilation) (stage : Stage) :
    (stageSection c stage).TextKeyed := by
  have hbase : (baseTree c stage).TextKeyed := by
    cases stage with
    | first => exact textKeyed_getD .null
    | second => exact textKeyed_getD (textKeyed_reference _)
  have hdeploy : (deployTree c stage).TextKeyed := by
    unfold deployTree
    split
    · exact textKeyed_reference _
    · exact .null
  have harguments : ∀ f ∈ argumentFields c stage, f.2.TextKeyed := by
    intro f hf
    obtain ⟨a, -, rfl⟩ := List.mem_map.1 hf
    exact .text a.2
  have houtput : (outputTree c stage).TextKeyed := textKeyed_getD .null
  have himage : Tree.TextKeyed
      (.record [("base", baseTree c stage), ("output", outputTree c stage)]) :=
    Tree.textKeyed_record (by simp [hbase, houtput])
  refine Tree.textKeyed_record ?_
  simp only [List.forall_mem_cons]
  exact ⟨himage, Tree.textKeyed_record (List.forall_mem_cons.2 ⟨textKeyed_reference _, harguments⟩),
    textKeyed_listTree _, textKeyed_listTree _, textKeyed_listTree _, hdeploy,
    List.forall_mem_nil _⟩

lemma textKeyed_sectionTree (c : Compilation) : (sectionTree c).TextKeyed := by
  refine Tree.textKeyed_record ?_
  simp only [List.forall_mem_cons]
  exact ⟨Tree.textKeyed_record (by simpa using .text _), textKeyed_gpuDeploy,
    textKeyed_stageSection c .first, textKeyed_stageSection c .second, textKeyed_volumesTree c,
    List.forall_mem_nil _⟩

lemma textKeyed_service (stage : Stage) : (service stage).TextKeyed := by
  refine Tree.textKeyed_record ?_
  simp only [List.forall_mem_cons]
  refine ⟨.text _, Tree.textKeyed_record ?_, .text _, .text _, .text _, .text _, .bool _, .bool _,
    List.forall_mem_nil _⟩
  simp only [List.forall_mem_cons]
  exact ⟨.text _, .text _, .text _, List.forall_mem_nil _⟩

lemma textKeyed_body : body.TextKeyed := by
  refine Tree.textKeyed_record ?_
  simp only [List.forall_mem_cons]
  refine ⟨.text _, Tree.textKeyed_record fun f hf => ?_, .text _, List.forall_mem_nil _⟩
  obtain ⟨stage, -, rfl⟩ := List.mem_map.1 hf
  exact textKeyed_service stage

/-! ### What is rendered -/

/-- A compose file is what the template unfolds to, without nulls and rewritten for compose. -/
lemma exists_of_render (h : render c = .ok tree) : ∃ u, Unfolds (sectionTree c) body u ∧
    Tree.Corresponds (fun s s' => rewrite s = .ok s') u.dropNulls tree := by
  have hrender : (do
      let resolved ← resolve (defaults.overlay (context c)) body
      Resolution.rewriteAll resolved.dropNulls) = .ok tree := h
  obtain ⟨u, hu, hrewrite⟩ := Outcome.bind_eq_ok_iff.1 hrender
  rw [overlay_context] at hu
  refine ⟨u, unfolds_of_resolve hu, (Tree.mapTexts_eq_ok_iff fun p s s' => ?_).1 hrewrite⟩
  exact Outcome.mapError_eq_ok_iff

/-- A compose file has texts for keys. -/
lemma textKeyed_of_render (h : render c = .ok tree) : tree.TextKeyed := by
  obtain ⟨u, hu, hrewrite⟩ := exists_of_render h
  exact (hu.textKeyed (textKeyed_sectionTree c) textKeyed_body).dropNulls.corresponds hrewrite

/-- Where the template has a node that unfolds to a text, a compose file has a text. -/
lemma exists_text_of_render (h : render c = .ok tree) {t : Tree} (ht : body.Has names t)
    (htext : ∀ u, Unfolds (sectionTree c) t u → ∃ s, u = .text s) :
    ∃ s, tree.Has names (.text s) := by
  obtain ⟨u, hu, hrewrite⟩ := exists_of_render h
  obtain ⟨v, hv, hunfolds⟩ := hu.exists_has ht
  obtain ⟨s, rfl⟩ := htext v hunfolds
  obtain ⟨w, hw, hs⟩ := (hv.dropNulls rfl).corresponds hrewrite
  cases hs with
  | text _ => exact ⟨_, hw⟩

/-! ### The texts of a service -/

lemma body_has_service (stage : Stage) {t : Tree} (ht : (service stage).Has names t) :
    body.Has ("services" :: stage.label :: names) t := by
  refine .record rfl (.record ?_ ht)
  cases stage <;> rfl

/-- A reference to a path of the section unfolds to what stands there. -/
lemma unfolds_reference {path : String} {context node u : Tree}
    (hpieces : piecesOf ("$\x7b" ++ contextKey ++ "." ++ path ++ "\x7d") =
      [.reference (.ofNames names)])
    (hwalk : context.walk? names = some node) (h : Unfolds context (reference path) u) :
    Unfolds context node u := by
  cases h with
  | whole hwhole target h =>
    obtain rfl := Piece.reference.inj (List.cons.inj (hwhole.symm.trans hpieces)).1
    rw [Reference.target?_ofNames, hwalk] at target
    obtain rfl := Option.some.inj target
    exact h
  | parts _ _ _ hparts => exact absurd hpieces (hparts _)

section

variable {ctx : Context} {generator : Generator} {d : Document} {vars : String → Option String}
  {text : String} {source? : Option Path} {u : Tree}

variable (h : Compilation.Prepared ctx generator { d with source? } c)
  (hread : Document.ofText vars text = .ok d)
include h hread

/-- The texts of a compilation unfold to texts. -/
lemma exists_text_of_mem_stageTexts (stage : Stage) {s : String} (hs : s ∈ stageTexts c stage)
    (hu : Unfolds (sectionTree c) (.text s) u) : ∃ s', u = .text s' := by
  have hsettled := holds_stageTexts h Settled.stable hread
    (Document.holds_settled_of_ofText hread) stage s hs
  exact hu.exists_eq_text (Settled.ne_whole hsettled)

/-- What a stage makes is known by a text. -/
lemma exists_text_of_output {stage : Stage}
    (hu : Unfolds (sectionTree c) (reference (stage.path "image.output")) u) :
    ∃ s, u = .text s := by
  obtain ⟨output, houtput⟩ := (exists_images h).1 stage
  have hwalk : (sectionTree c).walk? [stage.key, "image", "output"] = some (.text output) := by
    have heq : outputTree c stage = .text output := by
      rw [outputTree, houtput]
      rfl
    rw [walk?_stageSection, ← heq]
    rfl
  apply exists_text_of_mem_stageTexts h hread stage (s := output)
  · simp [stageTexts, houtput]
  · exact unfolds_reference (by cases stage <;> decide) hwalk hu

/-- What a stage is built on is known by a text. -/
lemma exists_text_of_base {stage : Stage}
    (hu : Unfolds (sectionTree c) (reference (stage.path "image.base")) u) : ∃ s, u = .text s := by
  have hwalk : (sectionTree c).walk? [stage.key, "image", "base"] = some (baseTree c stage) := by
    rw [walk?_stageSection]
    rfl
  have hbase := unfolds_reference (by cases stage <;> decide) hwalk hu
  have hwritten {b : String} (hb : (c.view stage).image.base? = some b)
      (hu : Unfolds (sectionTree c) (.text b) u) : ∃ s, u = .text s :=
    exists_text_of_mem_stageTexts h hread stage (by simp [stageTexts, hb]) hu
  cases stage with
  | first =>
    obtain ⟨b, hb⟩ := (exists_images h).2
    rw [baseTree, hb] at hbase
    exact hwritten hb hbase
  | second =>
    rw [baseTree] at hbase
    -- without a base of its own the second stage is built on the output of the first
    cases hb : (c.view .second).image.base? with
    | some b =>
      rw [hb] at hbase
      exact hwritten hb hbase
    | none =>
      rw [hb] at hbase
      exact exists_text_of_output h hread hbase

/-- What a stage is built by is known in every compose file. -/
lemma exists_serviceTexts (hrender : render c = .ok tree) (stage : Stage) :
    (∃ s, tree.Has ["services", stage.label, "image"] (.text s)) ∧
      (∃ s, tree.Has ["services", stage.label, "build", "dockerfile"] (.text s)) ∧
      ∃ s, tree.Has ["services", stage.label, "build", "context"] (.text s) := by
  refine ⟨?_, ?_, ?_⟩
  · have himage : (service stage).Has ["image"] (reference (stage.path "image.output")) :=
      .record rfl (.here _)
    exact exists_text_of_render hrender (body_has_service stage himage) fun u hu =>
      exists_text_of_output h hread hu
  · have hdockerfile : (service stage).Has ["build", "dockerfile"]
        (.text (stage.label ++ "/Dockerfile")) := .record rfl (.record rfl (.here _))
    refine exists_text_of_render hrender (body_has_service stage hdockerfile) fun u hu => ?_
    refine hu.exists_eq_text (Settled.ne_whole (OpenerFree.of_bland ?_).settled)
    rw [String.toList_append, bland_append]
    exact ⟨bland_label stage, .literal rfl⟩
  · have hcontext : (service stage).Has ["build", "context"] (.text ".") :=
      .record rfl (.record rfl (.here _))
    refine exists_text_of_render hrender (body_has_service stage hcontext) fun u hu => ?_
    exact hu.exists_eq_text (Settled.ne_whole (OpenerFree.of_bland (.literal rfl)).settled)

/-- The build arguments in every compose file are texts, under the names that the compilation has
for them. -/
lemma exists_serviceArguments (hrender : render c = .ok tree) (stage : Stage) :
    ∃ arguments : List (String × String),
      arguments.map Prod.fst = baseImageName :: (argumentFields c stage).map Prod.fst ∧
      tree.Has ["services", stage.label, "build", "args"]
        (.record (arguments.map fun (name, s) => (name, .text s))) := by
  have harguments : (service stage).Has ["build", "args"] (reference (stage.path "build_args")) :=
    .record rfl (.record rfl (.here _))
  obtain ⟨u, hu, hrewrite⟩ := exists_of_render hrender
  obtain ⟨v, hv, hunfolds⟩ := hu.exists_has (body_has_service stage harguments)
  have hwalk : (sectionTree c).walk? [stage.key, "build_args"] = some (.record
      ((baseImageName, reference (stage.path "image.base")) :: argumentFields c stage)) := by
    rw [walk?_stageSection]
    rfl
  have hrecord := unfolds_reference (by cases stage <;> decide) hwalk hunfolds
  obtain ⟨fields, hnames, rfl⟩ := hrecord.exists_textFields (by
    rw [List.forall_mem_cons]
    constructor
    · intro v hv
      exact exists_text_of_base h hread hv
    · intro f hf v hv
      obtain ⟨a, ha, rfl⟩ := List.mem_map.1 hf
      exact exists_text_of_mem_stageTexts h hread stage (mem_stageTexts_of_argument ha) hv)
  have hdropped := hv.dropNulls rfl
  rw [Tree.dropNulls_textFields] at hdropped
  obtain ⟨w, hw, hcorresponds⟩ := hdropped.corresponds hrewrite
  obtain ⟨arguments, hsame, rfl⟩ := hcorresponds.exists_textFields
  exact ⟨arguments, hsame.trans hnames, hw⟩

end

end Layout

end TwoStage
