import TwoStage.Proofs.Artifact.Emitted
import TwoStage.Proofs.Document.Characters
import TwoStage.Proofs.Shell.Reading

/-!
# The build script

The build script of a single artifact says the same as the compose file. Behind its first lines it
has one command for each stage, and a shell that takes these apart into words reads the file, the
tag, the arguments and the context that the compose file has for the service of the stage.
-/

namespace TwoStage

open Text Yaml

namespace Emission

def buildScriptHead : String :=
  "#!/bin/sh\n# Builds both stages without compose. " ++ notice ++
    "\nset -e\ncd \"$(dirname \"$0\")\"\n"

/-- The words of the command that builds an image by a file, under a tag, with arguments by their
names and in a context. -/
def buildCommand (file tag : String) (arguments : List (String × String)) (context : String) :
    List String :=
  ["docker", "build", "--file", file, "--tag", tag] ++
    arguments.flatMap (fun (name, value) => ["--build-arg", name ++ "=" ++ value]) ++ [context]

/-- A compose file builds the service of a stage by a file, under a tag, with arguments by their
names and in a context. -/
structure Builds (tree : Tree) (stage : Stage) (file tag : String)
    (arguments : List (String × String)) (context : String) : Prop where
  file : serviceField? tree stage "build.dockerfile" = some (.text file)
  tag : serviceField? tree stage "image" = some (.text tag)
  arguments : serviceField? tree stage "build.args" =
    some (.record (arguments.map fun (name, value) => (name, .text value)))
  context : serviceField? tree stage "build.context" = some (.text context)

/-- The words are the command that builds what the compose file builds for a stage. -/
def IsBuildOf (tree : Tree) (stage : Stage) (words : List String) : Prop :=
  ∃ file tag arguments context, Builds tree stage file tag arguments context ∧
    words = buildCommand file tag arguments context

variable {tree : Tree} {stage : Stage} {file tag context : String}
  {arguments : List (String × String)}

/-! ### Words -/

namespace Builds

/-- No argument is left out of the words or added to them. -/
lemma argumentsOf_eq (h : Builds tree stage file tag arguments context) :
    argumentsOf tree stage =
      arguments.flatMap fun (name, value) => ["--build-arg", name ++ "=" ++ value] := by
  rw [argumentsOf, h.arguments]
  simp only [Tree.record, List.flatMap_map]
  rfl

lemma buildWords_eq (h : Builds tree stage file tag arguments context) :
    buildWords tree stage = .ok (buildCommand file tag arguments context) := by
  rw [buildWords, serviceText_eq_ok h.file, serviceText_eq_ok h.tag,
    serviceText_eq_ok h.context, h.argumentsOf_eq]
  rfl

end Builds

lemma IsBuildOf.buildWords_eq {words : List String} (h : IsBuildOf tree stage words) :
    buildWords tree stage = .ok words := by
  obtain ⟨file, tag, arguments, context, hbuilds, rfl⟩ := h
  exact hbuilds.buildWords_eq

lemma IsBuildOf.ne_nil {words : List String} (h : IsBuildOf tree stage words) : words ≠ [] := by
  obtain ⟨file, tag, arguments, context, -, rfl⟩ := h
  simp [buildCommand]

/-- Commands on lines of their own, each behind an empty one. -/
def commandLines (commands : List (List String)) : String :=
  String.join (commands.map fun words => "\n" ++ Shell.command words ++ "\n")

/-- The script has the commands of both stages. -/
lemma buildScript_eq {words : Stage → List String}
    (h : ∀ stage, IsBuildOf tree stage (words stage)) :
    buildScript tree = .ok (buildScriptHead ++ commandLines [words .first, words .second]) := by
  have hwords : (Stage.all.mapM fun stage => buildWords tree stage) = .ok (Stage.all.map words) :=
    Outcome.mapM_eq_map fun stage _ => (h stage).buildWords_eq
  rw [buildScript, hwords]
  rfl

/-- The commands are read back from the script. -/
lemma readCommands_commandLines {words : Stage → List String}
    (h : ∀ stage, IsBuildOf tree stage (words stage)) :
    Shell.readCommands (commandLines [words .first, words .second]) =
      some [words .first, words .second] := by
  apply Shell.readCommands_join
  simp [(h .first).ne_nil, (h .second).ne_nil]

end Emission

/-! ### The script of a compilation -/

namespace Compilation.Prepared

open Emission

variable {ctx : Context} {generator : Generator} {d : Document} {c : Compilation}
  {vars : String → Option String} {text : String} {source? : Option Path} {tree : Tree}

variable (h : Prepared ctx generator { d with source? } c)
  (hread : Document.ofText vars text = .ok d) (hrender : Layout.render c = .ok tree)
include h hread hrender

/-- Both stages are built as the compose file says. -/
lemma exists_isBuildOf (stage : Stage) : ∃ words, IsBuildOf tree stage words := by
  obtain ⟨⟨tag, htag⟩, ⟨file, hfile⟩, ⟨context, hcontext⟩⟩ :=
    Layout.exists_serviceTexts h hread hrender stage
  obtain ⟨arguments, -, harguments⟩ := Layout.exists_serviceArguments h hread hrender stage
  refine ⟨_, file, tag, arguments, context, ?_, rfl⟩
  constructor
  case file => exact serviceField?_eq_some (by cases stage <;> decide) hfile
  case tag => exact serviceField?_eq_some (by cases stage <;> decide) htag
  case arguments => exact serviceField?_eq_some (by cases stage <;> decide) harguments
  case context => exact serviceField?_eq_some (by cases stage <;> decide) hcontext

/-- In single-artifact mode the build script is emitted, with a command for each stage. -/
lemma exists_buildScript (hmode : ctx.mode = .singleArtifact) :
    ∃ artifacts, ∃ words : Stage → List String, (∀ stage, IsBuildOf tree stage (words stage)) ∧
      emit c tree = .ok artifacts ∧ artifacts.get? (Path.ofString buildScriptName) =
        some ⟨Path.ofString buildScriptName,
          buildScriptHead ++ commandLines [words .first, words .second], .executable⟩ := by
  choose words hwords using h.exists_isBuildOf hread hrender
  obtain ⟨items, hfiles⟩ := h.exists_files hread hrender
  obtain ⟨hnodup, hdown⟩ := h.paths_of_files hread hfiles
  have hmem : (⟨Path.ofString buildScriptName,
      buildScriptHead ++ commandLines [words .first, words .second], .executable⟩ : Artifact) ∈
        items := by
    obtain ⟨compose, -, build, hbuild, rfl⟩ := files_eq_ok_iff.1 hfiles
    have hsingle : c.mode = .singleArtifact := h.mode.trans hmode
    rcases buildFiles_eq_ok_iff.1 hbuild with ⟨hcompose, -⟩ | ⟨-, contents, hcontents, rfl⟩
    · simp [hsingle] at hcompose
    · obtain rfl := Except.ok.inj ((buildScript_eq hwords).symm.trans hcontents)
      exact List.mem_append_right _ (List.mem_singleton_self _)
  refine ⟨⟨items⟩, words, hwords, ?_, Artifacts.get?_eq_of_mem hnodup hdown hmem⟩
  rw [emit, hfiles, Except.map, Artifacts.ofList_eq hnodup hdown]

end Compilation.Prepared

namespace Emission

variable {ctx : Context} {generator : Generator} {d : Document} {c : Compilation}
  {vars : String → Option String} {text : String} {source? : Option Path} {tree : Tree}

/-- Whatever is rendered as a single artifact is emitted with a build script, in which a shell reads
two commands behind the first lines: they build what the compose file builds for the stages. -/
theorem exists_buildScript_emit (hread : Document.ofText vars text = .ok d)
    (hprepare : Compilation.prepare ctx generator { d with source? } = .ok c)
    (hmode : ctx.mode = .singleArtifact) (hrender : Layout.render c = .ok tree) :
    ∃ artifacts commands first second, emit c tree = .ok artifacts ∧
      artifacts.get? (Path.ofString buildScriptName) =
        some ⟨Path.ofString buildScriptName, buildScriptHead ++ commands, .executable⟩ ∧
      Shell.readCommands commands = some [first, second] ∧
      IsBuildOf tree .first first ∧ IsBuildOf tree .second second := by
  obtain ⟨artifacts, words, hwords, hemit, hget⟩ :=
    (Compilation.prepared_of_prepare hprepare).exists_buildScript hread hrender hmode
  exact ⟨artifacts, _, words .first, words .second, hemit, hget, readCommands_commandLines hwords,
    hwords .first, hwords .second⟩

/-- A single artifact with quotes, blanks and a line end in a text. -/
theorem exists_buildScript_emit_of_quotes : ∃ d c tree artifacts commands first second,
    Document.ofText (fun _ => none) "stage_1:\n image:\n  base: \"it's a\\n b\"" = .ok d ∧
    Compilation.prepare { Context.bare with mode := .singleArtifact } .none
      { d with source? := none } = .ok c ∧
    Layout.render c = .ok tree ∧ emit c tree = .ok artifacts ∧
    artifacts.get? (Path.ofString buildScriptName) =
      some ⟨Path.ofString buildScriptName, buildScriptHead ++ commands, .executable⟩ ∧
    Shell.readCommands commands = some [first, second] ∧
    IsBuildOf tree .first first ∧ IsBuildOf tree .second second ∧
    "BASE_IMAGE=it's a\n b" ∈ first := by
  have hrun : ((Document.ofText (fun _ => none)
      "stage_1:\n image:\n  base: \"it's a\\n b\"").toOption.bind fun d =>
      (Compilation.prepare { Context.bare with mode := .singleArtifact } .none
        { d with source? := none }).toOption.bind fun c =>
        (Layout.render c).toOption.bind fun tree =>
          (buildWords tree .first).toOption.map fun words =>
            decide ("BASE_IMAGE=it's a\n b" ∈ words)) = some true := by
    rw [Document.ofText_eq_ofChars, String.toList_ofList]
    decide +kernel
  obtain ⟨d, hd, hrun⟩ := Outcome.toOption_bind_eq_some_iff.1 hrun
  obtain ⟨c, hc, hrun⟩ := Outcome.toOption_bind_eq_some_iff.1 hrun
  obtain ⟨tree, htree, hrun⟩ := Outcome.toOption_bind_eq_some_iff.1 hrun
  obtain ⟨words, hwords, hmem⟩ := Outcome.toOption_map_eq_some_iff.1 hrun
  obtain ⟨artifacts, commands, first, second, hemit, hget, hread, hfirst, hsecond⟩ :=
    exists_buildScript_emit hd hc rfl htree
  obtain rfl := Except.ok.inj (hwords.symm.trans hfirst.buildWords_eq)
  exact ⟨d, c, tree, artifacts, commands, words, second, hd, hc, htree, hemit, hget, hread, hfirst,
    hsecond, of_decide_eq_true hmem⟩

end Emission

end TwoStage
