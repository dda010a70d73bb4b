import TwoStage.Proofs.Document.Characters
import TwoStage.Proofs.Layout.Rendering

/-!
# Fidelity of rendering

The compose file of a compilation has the compilation's images, variables, ports, volumes and build
arguments, in their order, each as it is rewritten for compose, and nothing else where they stand.
-/

namespace TwoStage.Layout

open Text Yaml Template

/-! ### What a faithful file is -/

/-- What a compose file has for a service, by a path of names between dots. -/
def serviceField? (t : Tree) (stage : Stage) (path : String) : Option Tree :=
  Template.get? t ("services." ++ stage.label ++ "." ++ path)

/-- What was found is the list of the texts, each rewritten, and nothing if there are none. -/
def IsRewriting (found : Option Tree) (items : List String) : Prop :=
  ∃ rs, items.mapM rewrite = .ok rs ∧ found = if items = [] then none else some (.texts rs)

/-- The image that a stage is built on: the second stage's own, or else what the first makes. -/
def baseImage? (c : Compilation) : Stage → Option String
  | .first  => (c.view .first).image.base?
  | .second => (c.view .second).image.base? <|> (c.view .first).image.output?

/-- The service of a stage in a compose file is the stage of the compilation. -/
structure Faithful (c : Compilation) (t : Tree) (stage : Stage) : Prop where
  image : ∃ output r, (c.view stage).image.output? = some output ∧ rewrite output = .ok r ∧
    serviceField? t stage "image" = some (.text r)
  environment : IsRewriting (serviceField? t stage "environment")
    (c.view stage).environment.assignments
  ports : IsRewriting (serviceField? t stage "ports") (c.view stage).ports
  volumes : IsRewriting (serviceField? t stage "volumes")
    ((c.mounts stage).filterMap Mount.composeEntry?)
  arguments : ∃ base rs, baseImage? c stage = some base ∧
    (("BASE_IMAGE", base) ::
        (BuildArguments.of (c.view stage) c.users (c.mounts stage)).entries).mapM
      (fun (name, value) => (rewrite value).map fun r => (name, r)) = .ok rs ∧
    serviceField? t stage "build.args" = some (.record (rs.map fun (name, r) => (name, .text r)))
  deploy : serviceField? t stage "deploy" =
    if (c.view stage).device = .gpu then some gpuDeploy else none

/-! ### Rewriting -/

/-- A text rewritten for compose, if it can be. -/
def rewritten (s : String) : String := (rewrite s).toOption.getD s

lemma Settled.rewrite_eq {s : String} (h : Settled s.toList) : rewrite s = .ok (rewritten s) := by
  obtain ⟨r, hr⟩ := h.exists_rewrite
  rw [rewritten, hr]
  rfl

lemma rewritten_of_openerFree {s : String} (h : OpenerFree s.toList) : rewritten s = s := by
  rw [rewritten, h.rewrite_eq]
  rfl

/-- A tree of plain strings is rewritten string by string. -/
lemma rewriteAll_eq {t : Tree} (h : IsPlain t) :
    Resolution.rewriteAll t = .ok (t.mapStrings rewritten) :=
  Tree.mapTextsAt_eq "" t fun s hs path => by
    rw [Resolution.markerAt, Settled.rewrite_eq (h s hs).1]
    rfl

lemma mapM_rewrite_eq {items : List String} (h : ∀ s ∈ items, OnChars Plain s) :
    items.mapM rewrite = .ok (items.map rewritten) := by
  rw [Outcome.mapM_eq_ok_iff, List.forall₂_map_right_iff, List.forall₂_same]
  exact fun s hs => Settled.rewrite_eq (h s hs).1

variable {c : Compilation} {base output : Stage → String}

/-! ### The file as it is rendered -/

section

variable {P : String → Prop} (hbland : ∀ s, Bland s.toList → P s) (h : TextsHold P c base output)
include hbland h

lemma holds_resolvedService (stage : Stage) : (resolvedService c base output stage).Holds P := by
  have hliteral {s : String} (hs : Bland s.toList) : Tree.Holds P (.text s) :=
    Tree.holds_text.2 (hbland s hs)
  have hdockerfile : Bland (stage.label ++ "/Dockerfile").toList := by
    rw [String.toList_append, bland_append]
    exact ⟨bland_label stage, .literal rfl⟩
  have hdevices : (devices c stage).Holds P := by
    unfold devices
    split
    · exact holds_gpuDeploy hbland
    · exact Tree.holds_null
  have hbool : Tree.Holds P (.bool true) := by simp [Tree.Holds]
  simp only [resolvedService, resolvedFields, Tree.holds_record, List.forall_mem_cons]
  exact ⟨Tree.holds_text.2 (h.output stage),
    ⟨hliteral (.literal rfl), hliteral hdockerfile,
      ⟨Tree.holds_text.2 (h.base stage), h.arguments stage⟩, List.forall_mem_nil _⟩,
    holds_listTree (h.environment stage), holds_listTree (h.ports stage),
    holds_listTree (h.volumes stage), hdevices, hbool, hbool, List.forall_mem_nil _⟩

lemma holds_resolvedFile (hname : Bland c.spec.project.name.toList) :
    (resolvedFile c base output).Holds P := by
  have hservice := holds_resolvedService hbland h
  simp only [resolvedFile, Stage.all, List.map_cons, List.map_nil, Tree.holds_record,
    List.forall_mem_cons]
  exact ⟨Tree.holds_text.2 (hbland _ hname),
    ⟨hservice .first, hservice .second, List.forall_mem_nil _⟩, h.declared, List.forall_mem_nil _⟩

end

section

variable (h : Renderable c base output)
include h

lemma isPlain_resolvedFile : IsPlain (resolvedFile c base output) :=
  holds_resolvedFile (fun _ => Plain.of_bland) h.textsHold h.name

/-- The compose file of a compilation is what its references lead to, rewritten. -/
lemma render_eq_rewritten :
    render c = .ok ((resolvedFile c base output).dropNulls.mapStrings rewritten) := by
  rw [render_eq h, rewriteAll_eq (Tree.Holds.dropNulls (isPlain_resolvedFile h))]

end

/-! ### Finding fields -/

variable (c base output)

lemma walk?_service (stage : Stage) (name : String) (rest : List String) :
    ((resolvedFile c base output).dropNulls.mapStrings rewritten).walk?
        ("services" :: stage.label :: name :: rest) =
      ((resolvedService c base output stage).dropNulls.mapStrings rewritten).walk?
        (name :: rest) := by
  have hservices : ([("name", Tree.text c.spec.project.name),
      ("services", .record (Stage.all.map fun stage =>
        (stage.label, resolvedService c base output stage))),
      ("volumes", volumesTree c)] : List (String × Tree)).lookup "services" =
      some (.record (Stage.all.map fun stage =>
        (stage.label, resolvedService c base output stage))) := rfl
  have hstage : (Stage.all.map fun stage =>
      (stage.label, resolvedService c base output stage)).lookup stage.label =
      some (resolvedService c base output stage) := by
    cases stage <;> rfl
  rw [resolvedFile, Tree.walk?_changed _ _ _ (by simp), hservices, Option.bind_some,
    Tree.present?_record, Option.bind_some,
    Tree.walk?_changed _ _ _ (by simp [Stage.all, Stage.label]), hstage, Option.bind_some,
    resolvedService, Tree.present?_record, Option.bind_some]

variable {c base output}

/-- A field of a service is the one with references followed, if that is not null. -/
lemma serviceField?_eq {stage : Stage} {path : String} (name : String) (rest : List String)
    {t : Tree}
    (hpath : split '.' ("services." ++ stage.label ++ "." ++ path) =
      "services" :: stage.label :: name :: rest)
    (hfield : (resolvedFields c base output stage).lookup name = some t) :
    serviceField? ((resolvedFile c base output).dropNulls.mapStrings rewritten) stage path =
      t.present?.bind fun t => (t.mapStrings rewritten).walk? rest := by
  have hnodup : ((resolvedFields c base output stage).map Prod.fst).Nodup := by
    simp [resolvedFields]
  rw [serviceField?, Template.get?, hpath, walk?_service, resolvedService,
    Tree.walk?_changed _ _ _ hnodup, hfield, Option.bind_some]

/-- A list of a service is rewritten text by text. -/
lemma isRewriting_serviceField? {stage : Stage} {name : String} {items : List String}
    (hpath : split '.' ("services." ++ stage.label ++ "." ++ name) =
      ["services", stage.label, name])
    (hfield : (resolvedFields c base output stage).lookup name = some (listTree items))
    (hitems : ∀ s ∈ items, OnChars Plain s) :
    IsRewriting (serviceField? ((resolvedFile c base output).dropNulls.mapStrings rewritten)
      stage name) items := by
  refine ⟨items.map rewritten, mapM_rewrite_eq hitems, ?_⟩
  rw [serviceField?_eq _ _ hpath hfield]
  cases items with
  | nil => rfl
  | cons item items =>
    have hlist : listTree (item :: items) = .texts (item :: items) := rfl
    rw [hlist, Tree.present?_texts, Option.bind_some, Tree.mapStrings_texts, Tree.walk?_nil,
      if_neg (List.cons_ne_nil _ _)]

/-- The build arguments of a service, the template's own in front. -/
lemma serviceField?_arguments (c : Compilation) (base output : Stage → String) (stage : Stage) :
    serviceField? ((resolvedFile c base output).dropNulls.mapStrings rewritten) stage "build.args" =
      some (.record (((baseImageName, base stage) ::
        (BuildArguments.of (c.view stage) c.users (c.mounts stage)).entries).map
          fun (name, value) => (name, .text (rewritten value)))) := by
  have hfields : (baseImageName, Tree.text (base stage)) :: argumentFields c stage =
      ((baseImageName, base stage) ::
        (BuildArguments.of (c.view stage) c.users (c.mounts stage)).entries).map
          fun (name, value) => (name, .text value) := rfl
  rw [serviceField?_eq "build" ["args"] (by cases stage <;> decide) rfl,
    Tree.present?_record, Option.bind_some, Tree.walk?_changed _ _ _ (by simp)]
  change ((Tree.record ((baseImageName, Tree.text (base stage)) ::
    argumentFields c stage)).present?).bind _ = _
  rw [hfields, Tree.present?_record, Tree.dropNulls_textFields, Option.bind_some, Tree.walk?_nil,
    Tree.mapStrings_record, List.map_map]
  rfl

lemma mapStrings_gpuDeploy : gpuDeploy.dropNulls.mapStrings rewritten = gpuDeploy := by
  have hdrop : gpuDeploy.dropNulls = gpuDeploy := by rfl
  have hdriver : rewritten "nvidia" = "nvidia" := rewritten_of_openerFree (.of_bland (.literal rfl))
  have hcount : rewritten "all" = "all" := rewritten_of_openerFree (.of_bland (.literal rfl))
  have hcapability : rewritten "gpu" = "gpu" := rewritten_of_openerFree (.of_bland (.literal rfl))
  rw [hdrop, gpuDeploy]
  simp only [Tree.mapStrings_record, Tree.mapStrings_texts, List.map_cons, List.map_nil,
    Tree.mapStrings, Tree.mapItemStrings, hdriver, hcount, hcapability]

lemma baseImage?_eq (h : Renderable c base output) (stage : Stage) :
    baseImage? c stage = some (base stage) := by
  cases stage with
  | first => exact h.first_eq
  | second =>
    have hbase := h.second_eq
    rw [baseImage?, h.output_eq]
    cases hsecond : (c.view .second).image.base? <;> simpa [hsecond] using hbase

lemma faithful (h : Renderable c base output) (stage : Stage) :
    Faithful c ((resolvedFile c base output).dropNulls.mapStrings rewritten) stage where
  image := by
    refine ⟨output stage, rewritten (output stage), h.output_eq stage,
      Settled.rewrite_eq (h.output_plain stage).1, ?_⟩
    rw [serviceField?_eq "image" [] (by cases stage <;> decide) rfl,
      Tree.present?_text]
    rfl
  environment := isRewriting_serviceField? (by cases stage <;> decide) rfl
    (h.environment stage)
  ports := isRewriting_serviceField? (by cases stage <;> decide) rfl (h.ports stage)
  volumes := isRewriting_serviceField? (by cases stage <;> decide) rfl (h.volumes stage)
  arguments := by
    have hvalue {name s : String} (hs : OnChars Plain s) :
        (rewrite s).map (fun r => (name, r)) = .ok (name, rewritten s) := by
      rw [Settled.rewrite_eq hs.1]
      rfl
    have harguments : ((baseImageName, base stage) ::
        (BuildArguments.of (c.view stage) c.users (c.mounts stage)).entries).mapM
          (fun (name, value) => (rewrite value).map fun r => (name, r)) =
        .ok (((baseImageName, base stage) ::
          (BuildArguments.of (c.view stage) c.users (c.mounts stage)).entries).map
            fun (name, value) => (name, rewritten value)) := by
      rw [Outcome.mapM_eq_ok_iff, List.forall₂_map_right_iff, List.forall₂_same,
        List.forall_mem_cons]
      refine ⟨hvalue (h.base_plain stage), fun a ha => hvalue ?_⟩
      exact Tree.holds_text.1 (h.arguments stage (a.1, .text a.2) (List.mem_map_of_mem ha))
    refine ⟨base stage, _, baseImage?_eq h stage, harguments, ?_⟩
    rw [serviceField?_arguments, List.map_map]
    rfl
  deploy := by
    rw [serviceField?_eq "deploy" [] (by cases stage <;> decide) rfl,
      devices]
    split
    · exact congrArg some mapStrings_gpuDeploy
    · rfl

/-! ### Compilations of a document -/

/-- The directories of the host have no opener but those that the document wrote. -/
def HostsAsWritten (d : Document) (c : Compilation) : Prop :=
  ∀ stage, ∀ m ∈ c.mounts stage, ∀ hostPath, m.target = .bind hostPath →
    OpenerFree hostPath.toList ∨ ∃ s ∈ d.tree.strings, hostPath = trim s

variable {ctx : Context} {generator : Generator} {d : Document} {vars : String → Option String}
  {text : String} {source? : Option Path}

lemma plain_of_openerFree {cs : List Char} (h : OpenerFree cs) : Plain cs :=
  ⟨h.settled, fun hin => h .config (List.IsInfix.trans ⟨[], "x-cfg.".toList, rfl⟩ hin)⟩

/-- The images of a compilation are known. -/
lemma exists_images (h : Compilation.Prepared ctx generator { d with source? } c) :
    (∀ stage, ∃ output, (c.view stage).image.output? = some output) ∧
      ∃ base, (c.view .first).image.base? = some base := by
  obtain ⟨section₁, first, second, -, -, -, hbase, heq⟩ := Spec.ofDocument_eq_ok_iff.1 h.spec
  obtain ⟨base, hbase⟩ := Option.isSome_iff_exists.1 hbase
  refine ⟨fun stage => ?_, base, ?_⟩
  · rw [Compilation.view_eq h, heq]
    cases stage
    · exact ⟨_, rfl⟩
    · exact ⟨_, rfl⟩
  · rw [Compilation.view_eq h, heq]
    exact hbase

/-! ### The texts of a compilation -/

/-- What is declared is a volume that a stage mounts. -/
lemma exists_mount_of_mem_volumes {e : String × VolumeDeclaration} (h : e ∈ (volumes c).entries) :
    ∃ stage, ∃ m ∈ c.mounts stage, VolumeDeclaration.ofMount? m = some e := by
  obtain ⟨m, hm, hdeclared⟩ := List.mem_filterMap.1 (OrderedMap.mem_of_mem_ofList h)
  obtain ⟨stage, -, hm⟩ := List.mem_flatMap.1 hm
  exact ⟨stage, m, hm, hdeclared⟩

/-- The only text of a declaration is the name of its volume. -/
lemma volumeName?_of_ofMount? {m : Mount} {key s : String} {v : VolumeDeclaration}
    (h : VolumeDeclaration.ofMount? m = some (key, v)) (hs : s ∈ v.toTree.strings) :
    volumeName? m = some s := by
  unfold VolumeDeclaration.ofMount? at h
  split at h
  next key' name external htarget =>
    obtain ⟨-, rfl⟩ := Prod.mk.inj (Option.some.inj h)
    rw [volumeName?, htarget]
    cases external <;> by_cases hname : name = key' <;>
      simp_all [VolumeDeclaration.toTree, Tree.fieldIf]
  next => simp at h

/-- The names of volumes are among the texts of the stages. -/
lemma holds_volumesTree {P : String → Prop} (htexts : ∀ stage, ∀ s ∈ stageTexts c stage, P s) :
    (volumesTree c).Holds P := by
  unfold volumesTree
  split
  · exact Tree.holds_null
  · refine Tree.holds_record.2 fun f hf => ?_
    obtain ⟨⟨key, v⟩, hv, rfl⟩ := List.mem_map.1 hf
    intro s hs
    obtain ⟨stage, m, hm, hdeclared⟩ := exists_mount_of_mem_volumes hv
    exact htexts stage s (mem_stageTexts_of_volumeName? hm (volumeName?_of_ofMount? hdeclared hs))

/-- All texts in a compose file are those of a stage or the entries of its mounts. -/
lemma textsHold {P : String → Prop}
    (houtput : ∀ stage, (c.view stage).image.output? = some (output stage))
    (hfirst : (c.view .first).image.base? = some (base .first))
    (hsecond : ((c.view .second).image.base?).getD (output .first) = base .second)
    (htexts : ∀ stage, ∀ s ∈ stageTexts c stage, P s)
    (hentries : ∀ stage, ∀ s ∈ (c.mounts stage).filterMap Mount.composeEntry?, P s) :
    TextsHold P c base output := by
  have hmade (stage : Stage) : P (output stage) :=
    htexts stage _ (by simp [stageTexts, houtput])
  constructor
  case output => exact hmade
  case base =>
    intro stage
    cases stage with
    | first => exact htexts .first _ (by simp [stageTexts, hfirst])
    | second =>
      rw [← hsecond]
      cases hbase : (c.view .second).image.base? with
      | none => exact hmade .first
      | some b => exact htexts .second b (by simp [stageTexts, hbase])
  case environment => exact fun stage s hs => htexts stage s (by simp [stageTexts, hs])
  case ports => exact fun stage s hs => htexts stage s (by simp [stageTexts, hs])
  case volumes => exact hentries
  case arguments =>
    intro stage f hf
    obtain ⟨a, ha, rfl⟩ := List.mem_map.1 hf
    exact Tree.holds_text.2 (htexts stage a.2 (mem_stageTexts_of_argument ha))
  case declared => exact holds_volumesTree htexts

/-- The entries of all mounts have a stable property, if the directories of the host have it. -/
lemma holds_composeEntries {R : List Char → Prop} (hR : Stable R)
    (h : Compilation.Prepared ctx generator { d with source? } c)
    (hread : Document.ofText vars text = .ok d) (htree : d.tree.Holds (OnChars R)) (stage : Stage)
    (hhosts : ∀ m ∈ c.mounts stage, ∀ hostPath, m.target = .bind hostPath → R hostPath.toList) :
    ∀ s ∈ (c.mounts stage).filterMap Mount.composeEntry?, OnChars R s := by
  intro s hs
  obtain ⟨m, hm, hentry⟩ := List.mem_filterMap.1 hs
  cases htarget : m.target with
  | volume key name external =>
    have hvolume : volumeText? m = some s := by
      simpa [volumeText?, Mount.composeEntry?, htarget] using hentry
    exact holds_stageTexts h hR hread htree stage s (mem_stageTexts_of_volumeText? hm hvolume)
  | bind hostPath =>
    obtain rfl : hostPath ++ ":" ++ m.destination = s := by
      simpa [Mount.composeEntry?, htarget] using hentry
    have hdestination := (holds_mounts h hR hread htree stage m hm).destination
    show R _
    simp only [String.toList_append, List.append_assoc]
    exact hR.seam (c := ':') (by decide) (hhosts m hm hostPath htarget) hdestination
  | inImage => simp [Mount.composeEntry?, htarget] at hentry

section

variable (h : Compilation.Prepared ctx generator { d with source? } c)
  (hread : Document.ofText vars text = .ok d)
  (hfree : ∀ s ∈ d.tree.strings, ¬ referenceOpener <:+: s.toList)
include hread hfree

lemma isPlain_tree : d.tree.Holds (OnChars Plain) := fun s hs =>
  ⟨Document.holds_settled_of_ofText hread s hs, hfree s hs⟩

/-- Directories of the host that are as written are plain. -/
lemma plain_of_hostsAsWritten (hhosts : HostsAsWritten d c) {stage : Stage} {m : Mount}
    (hm : m ∈ c.mounts stage) {hostPath : String} (htarget : m.target = .bind hostPath) :
    Plain hostPath.toList := by
  rcases hhosts stage m hm hostPath htarget with hpath | ⟨written, hwritten, rfl⟩
  · exact plain_of_openerFree hpath
  · rw [trim, String.toList_ofList]
    exact Plain.stable.trimmed (isPlain_tree hread hfree written hwritten)

include h in
lemma exists_renderable (hhosts : HostsAsWritten d c) :
    ∃ base output, Renderable c base output := by
  obtain ⟨himages, first, hfirst⟩ := exists_images h
  choose output houtput using himages
  have hplain := isPlain_tree hread hfree
  let base : Stage → String
    | .first  => first
    | .second => (c.view .second).image.base?.getD (output .first)
  have htexts : TextsHold (OnChars Plain) c base output := by
    apply textsHold houtput hfirst rfl (holds_stageTexts h Plain.stable hread hplain)
    intro stage
    apply holds_composeEntries Plain.stable h hread hplain stage
    intro m hm hostPath htarget
    exact plain_of_hostsAsWritten hread hfree hhosts hm htarget
  exact ⟨_, output, {
    name := (h.spec_holds Plain.stable hread hplain).project
    output_eq := houtput
    first_eq := hfirst
    second_eq := rfl
    output_plain := htexts.output
    base_plain := htexts.base
    environment := htexts.environment
    ports := htexts.ports
    volumes := htexts.volumes
    arguments := htexts.arguments
    declared := htexts.declared }⟩

end

/-- Rendering succeeds on a compilation of a document without references, both services are as the
compilation has them, and the section of the template is gone. -/
theorem exists_faithful_render (hread : Document.ofText vars text = .ok d)
    (hprepare : Compilation.prepare ctx generator { d with source? } = .ok c)
    (hfree : ∀ s ∈ d.tree.strings, ¬ referenceOpener <:+: s.toList)
    (hhosts : HostsAsWritten d c) :
    ∃ fields, render c = .ok (.record fields) ∧ contextKey ∉ fields.map Prod.fst ∧
      ∀ stage, Faithful c (.record fields) stage := by
  obtain ⟨base, output, h⟩ :=
    exists_renderable (Compilation.prepared_of_prepare hprepare) hread hfree hhosts
  have hrender := render_eq_rewritten h
  have hfaithful := faithful h
  rw [resolvedFile, Tree.dropNulls_record, Tree.mapStrings_record] at hrender hfaithful
  refine ⟨_, hrender, fun hmem => ?_, hfaithful⟩
  rw [List.map_map] at hmem
  obtain ⟨f, hf, hname⟩ := List.mem_map.1 hmem
  obtain ⟨g, hg, hpresent⟩ := List.mem_filterMap.1 hf
  obtain ⟨t, -, rfl⟩ := Option.map_eq_some_iff.1 hpresent
  simp only [List.mem_cons, List.not_mem_nil, or_false] at hg
  rcases hg with rfl | rfl | rfl <;> simp [contextKey] at hname

/-- A variable with a marker for compose, and a directory of the host. -/
theorem exists_faithful_render_of_host : ∃ d c fields,
    Document.ofText (fun _ => none) ("stage_1:\n image:\n  base: a\n environment:\n" ++
      " - 'A=\x7b\x7bB\x7d\x7d'\n mount:\n  m:\n   type: host\n   host_path: /h\n   dst_path: /m") =
        .ok d ∧
    Compilation.prepare .bare .none { d with source? := none } = .ok c ∧
    render c = .ok (.record fields) ∧ ∀ stage, Faithful c (.record fields) stage := by
  have hrun : ((Document.ofText (fun _ => none) ("stage_1:\n image:\n  base: a\n environment:\n" ++
      " - 'A=\x7b\x7bB\x7d\x7d'\n mount:\n  m:\n   type: host\n   host_path: /h\n   dst_path: /m")
      ).toOption.bind fun d =>
        (Compilation.prepare .bare .none { d with source? := none }).toOption.map fun c =>
          (d.tree.strings.all fun s => decide ('$' ∉ s.toList)) &&
            Stage.all.all fun stage => (c.mounts stage).all fun m =>
              decide (m.target = .bind "/h")) = some true := by
    rw [Document.ofText_eq_ofChars, String.toList_append, String.toList_ofList,
      String.toList_ofList]
    decide +kernel
  obtain ⟨d, hd, hrun⟩ := Outcome.toOption_bind_eq_some_iff.1 hrun
  obtain ⟨c, hc, hrun⟩ := Outcome.toOption_map_eq_some_iff.1 hrun
  rw [Bool.and_eq_true] at hrun
  obtain ⟨hdollar, hmounts⟩ := hrun
  have hfree : ∀ s ∈ d.tree.strings, ¬ referenceOpener <:+: s.toList := fun s hs hin =>
    of_decide_eq_true (List.all_eq_true.1 hdollar s hs) (hin.subset (by decide))
  have hhosts : HostsAsWritten d c := by
    intro stage m hm hostPath htarget
    have hstage := List.all_eq_true.1 hmounts stage (by cases stage <;> decide)
    have hbind := of_decide_eq_true (List.all_eq_true.1 hstage m hm)
    obtain rfl := MountTarget.bind.inj (htarget.symm.trans hbind)
    exact .inl (.of_bland (.literal rfl))
  obtain ⟨fields, hrender, -, hfaithful⟩ := exists_faithful_render hd hc hfree hhosts
  exact ⟨d, c, fields, hd, hc, hrender, hfaithful⟩

end TwoStage.Layout
