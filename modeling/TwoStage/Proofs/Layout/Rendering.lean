import TwoStage.Proofs.Layout.Section
import TwoStage.Proofs.Layout.Strings
import TwoStage.Proofs.Template.Resolution

/-!
# Rendering a compilation

The references of the template lead to the compilation's own images, arguments, lists and devices,
and from there nowhere else, as long as no text of the document looks like a reference. What comes
out is the texts of the compilation, each rewritten for compose.
-/

namespace TwoStage.Layout

open Text Yaml Template

/-! ### Plain texts -/

/-- What a reference with a path starts with. -/
def referenceOpener : List Char := Reference.opener ++ ['.']

/-- The text is settled, and no reference starts in it. -/
def Plain (cs : List Char) : Prop := Settled cs ∧ ¬ referenceOpener <:+: cs

lemma Plain.stable : Stable Plain :=
  Settled.stable.and
    (stable_excludes (c := '$') (w := "\x7bx-cfg.".toList) (.inl rfl) (by simp [separators]))

lemma Plain.referenceFree {cs : List Char} (h : Plain cs) : ReferenceFree cs := by
  intro r hr hin
  refine h.2 (List.IsInfix.trans ?_ hin)
  obtain ⟨n, names, hnames⟩ := List.exists_cons_of_ne_nil hr.ne_nil
  exact ⟨[], n ++ (names.flatMap fun n => '.' :: n) ++ ['\x7d'], by
    simp [Reference.source_toList, Reference.path, hnames, referenceOpener]⟩

lemma Plain.of_bland {cs : List Char} (h : Bland cs) : Plain cs := Plain.stable.bland h

abbrev IsPlain (t : Tree) : Prop := t.Holds (OnChars Plain)

lemma IsPlain.inert {t : Tree} (h : IsPlain t) : Inert t := fun s hs => (h s hs).referenceFree

/-! ### What the template resolves to -/

variable {c : Compilation} {stage : Stage} {room : Nat} {chain : List String}

/-- The texts of both stages and the volumes of a compilation are plain, and its images are the
given ones. -/
structure Renderable (c : Compilation) (base output : Stage → String) : Prop where
  name : Bland c.spec.project.name.toList
  output_eq : ∀ stage, (c.view stage).image.output? = some (output stage)
  first_eq : (c.view .first).image.base? = some (base .first)
  second_eq : ((c.view .second).image.base?).getD (output .first) = base .second
  output_plain : ∀ stage, OnChars Plain (output stage)
  base_plain : ∀ stage, OnChars Plain (base stage)
  environment : ∀ stage, ∀ s ∈ (c.view stage).environment.assignments, OnChars Plain s
  ports : ∀ stage, ∀ s ∈ (c.view stage).ports, OnChars Plain s
  volumes : ∀ stage, ∀ s ∈ (c.mounts stage).filterMap Mount.composeEntry?, OnChars Plain s
  arguments : ∀ stage, ∀ f ∈ argumentFields c stage, IsPlain f.2
  declared : IsPlain (volumesTree c)

/-- The texts of a compilation whose images are the given ones have the property. -/
structure TextsHold (P : String → Prop) (c : Compilation) (base output : Stage → String) :
    Prop where
  output : ∀ stage, P (output stage)
  base : ∀ stage, P (base stage)
  environment : ∀ stage, ∀ s ∈ (c.view stage).environment.assignments, P s
  ports : ∀ stage, ∀ s ∈ (c.view stage).ports, P s
  volumes : ∀ stage, ∀ s ∈ (c.mounts stage).filterMap Mount.composeEntry?, P s
  arguments : ∀ stage, ∀ f ∈ argumentFields c stage, f.2.Holds P
  declared : (volumesTree c).Holds P

lemma Renderable.textsHold {base output : Stage → String} (h : Renderable c base output) :
    TextsHold (OnChars Plain) c base output :=
  ⟨h.output_plain, h.base_plain, h.environment, h.ports, h.volumes, h.arguments, h.declared⟩

def body : Tree :=
  .record [
    ("name", reference "project.name"),
    ("services", .record (Stage.all.map fun stage => (stage.label, service stage))),
    ("volumes", reference "volumes")]

/-- The devices of a stage when references have been followed. -/
def devices (c : Compilation) (stage : Stage) : Tree :=
  if (c.view stage).device = .gpu then gpuDeploy else .null

/-- The fields of a service when references have been followed. -/
def resolvedFields (c : Compilation) (base output : Stage → String) (stage : Stage) :
    List (String × Tree) :=
  [("image", .text (output stage)),
    ("build", .record [
      ("context", .text "."),
      ("dockerfile", .text (stage.label ++ "/Dockerfile")),
      ("args", .record ((baseImageName, .text (base stage)) :: argumentFields c stage))]),
    ("environment", listTree (c.view stage).environment.assignments),
    ("ports", listTree (c.view stage).ports),
    ("volumes", listTree ((c.mounts stage).filterMap Mount.composeEntry?)),
    ("deploy", devices c stage),
    ("stdin_open", .bool true),
    ("tty", .bool true)]

/-- The service of a stage when references have been followed. -/
def resolvedService (c : Compilation) (base output : Stage → String) (stage : Stage) : Tree :=
  .record (resolvedFields c base output stage)

/-- The compose file when references have been followed. -/
def resolvedFile (c : Compilation) (base output : Stage → String) : Tree :=
  .record [
    ("name", .text c.spec.project.name),
    ("services", .record (Stage.all.map fun stage =>
      (stage.label, resolvedService c base output stage))),
    ("volumes", volumesTree c)]

lemma holds_gpuDeploy {P : String → Prop} (hbland : ∀ s, Bland s.toList → P s) :
    gpuDeploy.Holds P := by
  intro s hs
  have hmem : s ∈ ["nvidia", "all", "gpu"] := by simpa [gpuDeploy] using hs
  exact hbland s ((by decide : ∀ s ∈ ["nvidia", "all", "gpu"], Bland s.toList) s hmem)

lemma isPlain_gpuDeploy : IsPlain gpuDeploy := holds_gpuDeploy fun _ => Plain.of_bland

lemma holds_listTree {P : String → Prop} {items : List String} (h : ∀ s ∈ items, P s) :
    (listTree items).Holds P := by
  unfold listTree
  split
  · exact Tree.holds_null
  · exact Tree.holds_texts.2 h

/-- What the section has for a field of a stage. -/
lemma walk?_stageSection (c : Compilation) (stage : Stage) (rest : List String) :
    (sectionTree c).walk? (stage.key :: rest) = (stageSection c stage).walk? rest := by
  rw [sectionTree, Tree.walk?_record]
  cases stage <;> rfl

/-! ### Following the references of a stage -/

section

variable {base output : Stage → String}

lemma resolves_deploy (stage : Stage) :
    Resolves (follow (sectionTree c) (room + 2) []) (reference (stage.path "deploy"))
      (devices c stage) := by
  have hwalk : (sectionTree c).walk? [stage.key, "deploy"] = some (deployTree c stage) := by
    rw [walk?_stageSection]
    rfl
  refine resolves_reference [stage.key, "deploy"]
    (by cases stage <;> decide) rfl hwalk ?_
  unfold deployTree devices
  split
  · exact resolves_reference ["gpu_deploy"] (by decide)
      (by cases stage <;> decide) rfl isPlain_gpuDeploy.inert.resolves
  · exact (IsPlain.inert Tree.holds_null).resolves

lemma resolves_list (stage : Stage) {field : String} {items : List String}
    (hpieces : piecesOf ("$\x7b" ++ contextKey ++ "." ++ stage.path field ++ "\x7d") =
      [.reference (.ofNames [stage.key, field])])
    (hwalk : (stageSection c stage).walk? [field] = some (listTree items))
    (hitems : ∀ s ∈ items, OnChars Plain s) :
    Resolves (follow (sectionTree c) (room + 1) []) (reference (stage.path field))
      (listTree items) :=
  resolves_reference [stage.key, field] hpieces rfl
    ((walk?_stageSection c stage [field]).trans hwalk)
    (IsPlain.inert (holds_listTree hitems)).resolves

variable (h : Renderable c base output)
include h

lemma outputTree_eq (stage : Stage) : outputTree c stage = .text (output stage) := by
  rw [outputTree, h.output_eq]
  rfl

lemma resolves_output (stage : Stage) (hchain : chain.contains
      (Reference.ofNames [stage.key, "image", "output"]).name = false) :
    Resolves (follow (sectionTree c) (room + 1) chain)
      (reference (stage.path "image.output")) (.text (output stage)) := by
  refine resolves_reference [stage.key, "image", "output"]
    (by cases stage <;> decide) hchain ?_
    (IsPlain.inert (Tree.holds_text.2 (h.output_plain stage))).resolves
  rw [walk?_stageSection, ← outputTree_eq h]
  rfl

lemma baseTree_eq (stage : Stage) :
    baseTree c stage = .text (base stage) ∨ stage = .second ∧ base .second = output .first ∧
      baseTree c .second = reference (Stage.first.path "image.output") := by
  cases stage with
  | first =>
    rw [baseTree, h.first_eq]
    exact .inl rfl
  | second =>
    have hbase := h.second_eq
    rw [baseTree]
    cases hsecond : (c.view .second).image.base? with
    | some b =>
      rw [hsecond, Option.getD_some] at hbase
      exact .inl (by rw [hbase]; rfl)
    | none =>
      rw [hsecond, Option.getD_none] at hbase
      exact .inr ⟨rfl, hbase.symm, rfl⟩

/-- The base image of the second stage may be the output of the first, one reference further. -/
lemma resolves_base (stage : Stage) :
    Resolves
      (follow (sectionTree c) (room + 2) [(Reference.ofNames [stage.key, "build_args"]).name])
      (reference (stage.path "image.base")) (.text (base stage)) := by
  have hwalk : (sectionTree c).walk? [stage.key, "image", "base"] = some (baseTree c stage) := by
    rw [walk?_stageSection]
    rfl
  refine resolves_reference [stage.key, "image", "base"]
    (by cases stage <;> decide) (by cases stage <;> decide) hwalk ?_
  rcases baseTree_eq h stage with heq | ⟨rfl, hbase, heq⟩
  · rw [heq]
    exact (IsPlain.inert (Tree.holds_text.2 (h.base_plain stage))).resolves
  · rw [heq, hbase]
    exact resolves_output h .first (by decide)

lemma resolves_arguments (stage : Stage) :
    Resolves (follow (sectionTree c) (room + 3) []) (reference (stage.path "build_args"))
      (.record ((baseImageName, .text (base stage)) :: argumentFields c stage)) := by
  have hwalk : (sectionTree c).walk? [stage.key, "build_args"] = some (.record
      ((baseImageName, reference (stage.path "image.base")) :: argumentFields c stage)) := by
    rw [walk?_stageSection]
    rfl
  refine resolves_reference [stage.key, "build_args"]
    (by cases stage <;> decide) rfl hwalk (resolves_record (.cons ⟨rfl, ?_⟩ ?_))
  · exact resolves_base h stage
  · refine List.forall₂_same.2 fun f hf => ⟨rfl, ?_⟩
    exact (IsPlain.inert (h.arguments stage f hf)).resolves

lemma resolves_service (stage : Stage) :
    Resolves (follow (sectionTree c) (room + 3) []) (service stage)
      (resolvedService c base output stage) := by
  have hplain {s : String} (hs : Bland s.toList) :
      Resolves (follow (sectionTree c) (room + 3) []) (.text s) (.text s) :=
    (IsPlain.inert (Tree.holds_text.2 (Plain.of_bland hs))).resolves
  have hbool : Resolves (follow (sectionTree c) (room + 3) []) (.bool true) (.bool true) :=
    fun _ => by simp [resolveTree]
  have hdockerfile : Bland (stage.label ++ "/Dockerfile").toList := by
    rw [String.toList_append, bland_append]
    exact ⟨bland_label stage, .literal rfl⟩
  refine resolves_record
    (.cons ⟨rfl, resolves_output h stage rfl⟩
    (.cons ⟨rfl, resolves_record
      (.cons ⟨rfl, hplain (.literal rfl)⟩
      (.cons ⟨rfl, hplain hdockerfile⟩
      (.cons ⟨rfl, resolves_arguments h stage⟩ .nil)))⟩
    (.cons ⟨rfl, resolves_list stage (by cases stage <;> decide) rfl (h.environment stage)⟩
    (.cons ⟨rfl, resolves_list stage (by cases stage <;> decide) rfl (h.ports stage)⟩
    (.cons ⟨rfl, resolves_list stage (by cases stage <;> decide) rfl (h.volumes stage)⟩
    (.cons ⟨rfl, resolves_deploy stage⟩
    (.cons ⟨rfl, hbool⟩ (.cons ⟨rfl, hbool⟩ .nil))))))))

/-- Following all references of the template gives the texts of the compilation. -/
lemma resolves_body :
    Resolves (follow (sectionTree c) (room + 3) []) body (resolvedFile c base output) := by
  refine resolves_record
    (.cons ⟨rfl, resolves_reference ["project", "name"] (by decide) rfl rfl
      (IsPlain.inert (Tree.holds_text.2 (Plain.of_bland h.name))).resolves⟩
    (.cons ⟨rfl, resolves_record
      (.cons ⟨rfl, resolves_service h .first⟩ (.cons ⟨rfl, resolves_service h .second⟩ .nil))⟩
    (.cons ⟨rfl, resolves_reference ["volumes"] (by decide) rfl rfl
      h.declared.inert.resolves⟩ .nil)))

end

/-- The section has references enough to follow the longest chain in it. -/
lemma exists_referenceCount_eq (c : Compilation) :
    ∃ n, referenceCount (sectionTree c) = n + 2 := by
  have hbase (stage : Stage) : referencesIn ("$\x7b" ++ contextKey ++ "." ++
      stage.path "image.base" ++ "\x7d") = 1 := by
    cases stage <;> decide
  refine ⟨referenceCount (sectionTree c) - 2, ?_⟩
  rw [referenceCount_eq, ← List.sum_eq_foldr]
  simp only [sectionTree, stageSection, Tree.strings_record, List.flatMap_cons, List.flatMap_nil,
    reference, Tree.strings_text, List.map_append, List.sum_append, List.map_cons, List.map_nil,
    List.sum_cons, List.sum_nil, hbase]
  omega

/-- The template rendered with the context of a compilation. -/
lemma render_eq {base output : Stage → String} (h : Renderable c base output) :
    render c = Resolution.rewriteAll (resolvedFile c base output).dropNulls := by
  obtain ⟨n, hn⟩ := exists_referenceCount_eq c
  have hresolve : resolve (sectionTree c) body = .ok (resolvedFile c base output) := by
    rw [resolve, hn]
    exact resolves_body h ""
  change (do
    let resolved ← resolve (defaults.overlay (context c)) body
    Resolution.rewriteAll resolved.dropNulls) = _
  rw [overlay_context, hresolve]
  rfl

end TwoStage.Layout
