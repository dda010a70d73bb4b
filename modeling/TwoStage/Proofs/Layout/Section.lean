import TwoStage.Layout
import TwoStage.Proofs.Yaml.Record

/-!
# The section of a layout

The context of a compilation laid over the defaults of the template, written out: every field is the
compilation's own where it has one, and nothing is lost on the way.
-/

namespace TwoStage.Layout

open Text Yaml Decimal

/-- A list in the section: nothing if it has no items. -/
def listTree (items : List String) : Tree := if items.isEmpty then .null else .texts items

def baseTree (c : Compilation) : Stage → Tree
  | .first  => ((c.view .first).image.base?.map .text).getD .null
  | .second =>
    ((c.view .second).image.base?.map .text).getD (reference (Stage.first.path "image.output"))

def outputTree (c : Compilation) (stage : Stage) : Tree :=
  ((c.view stage).image.output?.map .text).getD .null

/-- The name of the argument that the template itself sets. -/
def baseImageName : String := "BASE_IMAGE"

def argumentFields (c : Compilation) (stage : Stage) : List (String × Tree) :=
  (BuildArguments.of (c.view stage) c.users (c.mounts stage)).entries.map fun (name, v) =>
    (name, .text v)

def deployTree (c : Compilation) (stage : Stage) : Tree :=
  if (c.view stage).device = .gpu then reference "gpu_deploy" else .null

def stageSection (c : Compilation) (stage : Stage) : Tree :=
  .record [
    ("image", .record [("base", baseTree c stage), ("output", outputTree c stage)]),
    ("build_args",
      .record ((baseImageName, reference (stage.path "image.base")) :: argumentFields c stage)),
    ("environment", listTree (c.view stage).environment.assignments),
    ("ports", listTree (c.view stage).ports),
    ("volumes", listTree ((c.mounts stage).filterMap Mount.composeEntry?)),
    ("deploy", deployTree c stage)]

def volumesTree (c : Compilation) : Tree :=
  if (volumes c).isEmpty then .null
  else .record ((volumes c).entries.map fun (key, v) => (key, v.toTree))

/-- The section that the references of the template lead into. -/
def sectionTree (c : Compilation) : Tree :=
  .record [
    ("project", .record [("name", .text c.spec.project.name)]),
    ("gpu_deploy", gpuDeploy),
    (Stage.first.key, stageSection c .first),
    (Stage.second.key, stageSection c .second),
    ("volumes", volumesTree c)]

/-! ### Build arguments -/

/-- No argument has the name of the template's own. -/
def Fresh (arguments : List BuildArguments.Argument) : Prop :=
  ∀ a ∈ arguments, a.1 ≠ baseImageName

section

open BuildArguments

lemma Fresh.append {as bs : List Argument} (ha : Fresh as) (hb : Fresh bs) : Fresh (as ++ bs) :=
  List.forall_mem_append.2 ⟨ha, hb⟩

lemma fresh_argumentIf {name : String} {value : Option String} (h : name ≠ baseImageName) :
    Fresh (argumentIf name value) := by
  cases value with
  | none => simp [argumentIf, Fresh]
  | some v => simpa [argumentIf, Fresh] using h

/-- The arguments of a user start with another letter. -/
lemma fresh_user (i : Nat) (u : KeyedUser) : Fresh (user i u) := by
  have hname (field : String) : "SSH_USER_" ++ natText i ++ "_" ++ field ≠ baseImageName := by
    intro h
    have hhead := congrArg (fun s => s.toList.head?) h
    simp [baseImageName, String.toList_append] at hhead
  refine Fresh.append (Fresh.append (Fresh.append (Fresh.append (Fresh.append ?_
    (fresh_argumentIf (hname _))) (fresh_argumentIf (hname _))) (fresh_argumentIf (hname _)))
    (fresh_argumentIf (hname _))) (fresh_argumentIf (hname _))
  intro a ha
  obtain rfl := List.mem_singleton.1 ha
  exact hname _

lemma fresh_ssh (settings : Option Ssh) (users : List KeyedUser) : Fresh (ssh settings users) := by
  unfold ssh
  split
  next => simp [Fresh]
  next s =>
    split
    next =>
      refine Fresh.append ?_ fun a ha => ?_
      · simp [Fresh, baseImageName]
      · obtain ⟨as, has, ha⟩ := List.mem_flatten.1 ha
        obtain ⟨i, hi, rfl⟩ := List.mem_mapIdx.1 has
        exact fresh_user i _ a ha
    next => simp [Fresh]

lemma fresh_network (proxy : Proxy) (apt : Apt) : Fresh (network proxy apt) := by
  refine Fresh.append (Fresh.append (Fresh.append (Fresh.append (Fresh.append (Fresh.append
    ?_ ?_) ?_) ?_) ?_) ?_) ?_
  all_goals exact fresh_argumentIf (by decide)

lemma fresh_of (view : StageView) (users : List KeyedUser) (mounts : List Mount) :
    Fresh (of view users mounts).entries := by
  refine fun a ha => Fresh.append (Fresh.append (Fresh.append (Fresh.append ?_
    (fresh_network _ _)) (fresh_ssh _ _)) (fresh_argumentIf (by decide)))
    (fresh_argumentIf (by decide)) a (OrderedMap.mem_of_mem_ofList ha)
  simp [Fresh, baseImageName]

end

/-! ### Laying the context over the defaults -/

variable (c : Compilation) (stage : Stage)

lemma map_fst_argumentFields :
    (argumentFields c stage).map Prod.fst =
      (BuildArguments.of (c.view stage) c.users (c.mounts stage)).keys := by
  rw [argumentFields, List.map_map]
  rfl

/-- The arguments come behind the one of the template. -/
lemma overlay_arguments (base : Tree) :
    (Tree.record [(baseImageName, base)]).overlay
        (Environment.toTree (BuildArguments.of (c.view stage) c.users (c.mounts stage))) =
      .record ((baseImageName, base) :: argumentFields c stage) := by
  rw [Environment.toTree, Tree.overlay_record]
  congr 1
  refine Tree.foldl_layField_of_nodup [(baseImageName, base)] (argumentFields c stage) ?_
  rw [List.cons_append, List.nil_append, List.map_cons, List.nodup_cons, map_fst_argumentFields]
  refine ⟨fun hmem => ?_, OrderedMap.nodup_keys_ofList _⟩
  obtain ⟨a, ha, heq⟩ := List.mem_map.1 hmem
  exact fresh_of _ _ _ a ha heq

lemma overlay_image (base : Tree) (image : Image) :
    (Tree.record [("base", base), ("output", .null)]).overlay image.toTree =
      .record [("base", (image.base?.map .text).getD base),
        ("output", (image.output?.map .text).getD .null)] := by
  rw [Image.toTree, Tree.overlay_record]
  obtain ⟨base?, output?⟩ := image
  cases base? <;> cases output? <;>
    simp [Tree.fieldIf, Tree.layField, Tree.overlay]

/-- Fields that may be left out take the places of the nulls among the defaults. -/
lemma foldl_layField_optional (image arguments : Tree)
    (environment? ports? volumes? deploy? : Option Tree) :
    (Tree.fieldIf "environment" environment? ++ Tree.fieldIf "ports" ports? ++
      Tree.fieldIf "volumes" volumes? ++ Tree.fieldIf "deploy" deploy?).foldl Tree.layField
        [("image", image), ("build_args", arguments), ("environment", .null), ("ports", .null),
          ("volumes", .null), ("deploy", .null)] =
      [("image", image), ("build_args", arguments), ("environment", environment?.getD .null),
        ("ports", ports?.getD .null), ("volumes", volumes?.getD .null),
        ("deploy", deploy?.getD .null)] := by
  cases environment? <;> cases ports? <;> cases volumes? <;> cases deploy? <;>
    simp [Tree.fieldIf, Tree.layField, Tree.overlay_null_left]

lemma listTree_eq (items : List String) :
    listTree items = (if items.isEmpty then none else some (Tree.texts items)).getD .null := by
  unfold listTree
  split <;> rfl

/-- The context of a stage laid over defaults in which it has a base image. -/
lemma overlay_stageContext (base : Tree) :
    (stageDefaults stage base).overlay (stageContext c stage) =
      .record [
        ("image", .record [("base", ((c.view stage).image.base?.map .text).getD base),
          ("output", outputTree c stage)]),
        ("build_args", .record ((baseImageName, reference (stage.path "image.base")) ::
          argumentFields c stage)),
        ("environment", listTree (c.view stage).environment.assignments),
        ("ports", listTree (c.view stage).ports),
        ("volumes", listTree ((c.mounts stage).filterMap Mount.composeEntry?)),
        ("deploy", deployTree c stage)] := by
  have hdeploy : deployTree c stage = (if (c.view stage).device = .gpu then
      some (reference "gpu_deploy") else none).getD .null := by
    unfold deployTree
    split <;> rfl
  have hlay : [("image", (c.view stage).image.toTree), ("build_args", Environment.toTree
      (BuildArguments.of (c.view stage) c.users (c.mounts stage)))].foldl Tree.layField
        [("image", .record [("base", base), ("output", .null)]),
          ("build_args", .record [(baseImageName, reference (stage.path "image.base"))]),
          ("environment", .null), ("ports", .null), ("volumes", .null), ("deploy", .null)] =
      [("image", .record [("base", ((c.view stage).image.base?.map .text).getD base),
          ("output", outputTree c stage)]),
        ("build_args", .record ((baseImageName, reference (stage.path "image.base")) ::
          argumentFields c stage)),
        ("environment", .null), ("ports", .null), ("volumes", .null), ("deploy", .null)] := by
    simp only [List.foldl_cons, List.foldl_nil, Tree.layField, if_true, String.reduceEq, if_false,
      overlay_image, overlay_arguments, outputTree]
  rw [hdeploy, listTree_eq, listTree_eq, listTree_eq, ← foldl_layField_optional, ← hlay,
    ← List.foldl_append, stageDefaults, stageContext, Tree.overlay_record]
  simp only [listField, List.append_assoc, baseImageName]

/-- The section of a stage is its context over its defaults. -/
lemma overlay_stageDefaults :
    (stageDefaults .first .null).overlay (stageContext c .first) = stageSection c .first ∧
      (stageDefaults .second (reference (Stage.first.path "image.output"))).overlay
        (stageContext c .second) = stageSection c .second :=
  ⟨overlay_stageContext c .first _, overlay_stageContext c .second _⟩

lemma overlay_project :
    (Tree.record [("name", .text Project.fallbackName)]).overlay c.spec.project.toTree =
      .record [("name", .text c.spec.project.name)] := by
  rw [Project.toTree, Tree.overlay_record]
  rfl

lemma volumesTree_eq :
    volumesTree c = (if (volumes c).isEmpty then none else
      some (Tree.record ((volumes c).entries.map fun (key, v) => (key, v.toTree)))).getD .null := by
  unfold volumesTree
  split <;> rfl

/-- The context of a compilation over the defaults of the template is the section. -/
lemma overlay_context : defaults.overlay (context c) = sectionTree c := by
  obtain ⟨hfirst, hsecond⟩ := overlay_stageDefaults c
  rw [defaults, context, Tree.overlay_record, sectionTree, volumesTree_eq]
  cases (if (volumes c).isEmpty then none
    else some (Tree.record ((volumes c).entries.map fun (key, v) => (key, v.toTree)))) with
  | none =>
    simp only [Stage.all, Stage.key, List.map_cons, List.map_nil, Tree.fieldIf, Option.map_none,
      Option.toList_none, List.append_nil, List.cons_append, List.nil_append, List.foldl_cons,
      List.foldl_nil, Tree.layField, if_true, String.reduceEq, if_false, hfirst, hsecond,
      overlay_project, Option.getD_none]
  | some t =>
    simp only [Stage.all, Stage.key, List.map_cons, List.map_nil, Tree.fieldIf, Option.map_some,
      Option.toList_some, List.cons_append, List.nil_append, List.foldl_cons, List.foldl_nil,
      Tree.layField, if_true, String.reduceEq, if_false, hfirst, hsecond, overlay_project,
      Option.getD_some, Tree.overlay_null_left]

end TwoStage.Layout
