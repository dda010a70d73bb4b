import TwoStage.Proofs.Artifact.BuildScript
import TwoStage.Proofs.Artifact.Openers
import TwoStage.Proofs.Document.Characters
import TwoStage.Proofs.Layout.Openers

/-!
# Single artifacts have no variables

In single-artifact mode nothing is left to be substituted. The guardrail lets no opener of a
document through, and none comes about on the way: not in the compose file, nor in the words of the
build script, nor around these where they are quoted.
-/

namespace TwoStage

open Text Yaml

/-! ### Commands -/

lemma OpenerFree.intercalate {c : Char} (hc : c ≠ '$' ∧ c ≠ '\x7b') {parts : List (List Char)}
    (h : ∀ part ∈ parts, OpenerFree part) : OpenerFree ([c].intercalate parts) := by
  cases parts with
  | nil => exact .nil
  | cons part parts =>
    rw [intercalate_eq]
    induction parts generalizing part with
    | nil => simpa using h
    | cons next parts ih =>
      rw [List.forall_mem_cons] at h
      rw [List.flatMap_cons]
      exact h.1.append_cons hc (ih next h.2)

lemma OpenerFree.command {words : List String} (h : ∀ w ∈ words, OpenerFree w.toList) :
    OpenerFree (Shell.command words).toList := by
  rw [Shell.command, String.toList_intercalate]
  apply OpenerFree.intercalate (by decide)
  intro part hpart
  obtain ⟨word, hword, rfl⟩ := List.mem_map.1 hpart
  obtain ⟨w, hw, rfl⟩ := List.mem_map.1 hword
  exact (h w hw).word

namespace Emission

lemma exists_openerFree_buildScriptHead :
    ∃ cs, OpenerFree cs ∧ buildScriptHead.toList = cs ++ ['\n'] := by
  refine ⟨buildScriptHead.toList.dropLast, ?_, by decide +kernel⟩
  intro round
  cases round <;> decide +kernel

/-- Commands whose words have no openers are written without any. -/
lemma openerFree_buildScript {commands : List (List String)}
    (h : ∀ words ∈ commands, ∀ w ∈ words, OpenerFree w.toList) :
    OpenerFree (buildScriptHead ++ commandLines commands).toList := by
  have hlines : OpenerFree (String.join (buildScriptHead ::
      commands.map fun words => "\n" ++ Shell.command words ++ "\n")).toList := by
    apply OpenerFree.join_lines
    rw [List.forall_mem_cons]
    refine ⟨exists_openerFree_buildScriptHead, ?_⟩
    intro line hline
    obtain ⟨words, hwords, rfl⟩ := List.mem_map.1 hline
    refine ⟨['\n'] ++ (Shell.command words).toList, ?_, by simp⟩
    exact (OpenerFree.command (h words hwords)).of_bland_append (by decide)
  rw [commandLines, String.toList_append, String.toList_join]
  rwa [String.toList_join, List.flatMap_cons] at hlines

variable {tree : Tree} {stage : Stage} {words : List String}

/-- The words of a command are made of texts and keys of the compose file. -/
lemma IsBuildOf.openerFree (h : IsBuildOf tree stage words) (htree : Layout.HasNoOpeners tree) :
    ∀ w ∈ words, OpenerFree w.toList := by
  obtain ⟨file, tag, arguments, context, hbuilds, rfl⟩ := h
  have htext {name s : String} (hs : serviceField? tree stage name = some (.text s)) :
      OpenerFree s.toList :=
    Tree.holds_text.1 (htree.strings.of_walk? hs)
  have hvalues := Tree.holds_record.1 (htree.strings.of_walk? hbuilds.arguments)
  have hkeys := Tree.keysHold_record.1 (htree.keys.of_walk? hbuilds.arguments)
  have hargument : ∀ a ∈ arguments, ∀ w ∈ ["--build-arg", a.1 ++ "=" ++ a.2],
      OpenerFree w.toList := by
    intro a ha w hw
    have hkey := hkeys (a.1, .text a.2) (List.mem_map_of_mem ha)
    have hvalue := hvalues (a.1, .text a.2) (List.mem_map_of_mem ha)
    rcases List.mem_pair.1 hw with rfl | rfl
    · exact .of_bland (.literal rfl)
    · simp only [String.toList_append, List.append_assoc]
      exact hkey.1.append_cons (c := '=') (by decide) (Tree.holds_text.1 hvalue)
  have hliteral : ∀ w ∈ ["docker", "build", "--file", "--tag"], OpenerFree w.toList :=
    fun w hw => .of_bland ((by decide : ∀ w ∈ ["docker", "build", "--file", "--tag"],
      Bland w.toList) w hw)
  simp only [buildCommand, List.forall_mem_append, List.forall_mem_cons] at hliteral ⊢
  obtain ⟨hdocker, hbuild, hfile, htag, -⟩ := hliteral
  refine ⟨⟨⟨hdocker, hbuild, hfile, htext hbuilds.file, htag, htext hbuilds.tag,
    List.forall_mem_nil _⟩, ?_⟩, htext hbuilds.context, List.forall_mem_nil _⟩
  intro w hw
  obtain ⟨a, ha, hw⟩ := List.mem_flatMap.1 hw
  exact hargument a ha w hw

/-! ### All of a single artifact -/

variable {ctx : Context} {generator : Generator} {d : Document} {c : Compilation}
  {vars : String → Option String} {text : String} {source? : Option Path}

/-- A single artifact has no openers unless the host has some in its directories: neither in the
texts and keys of its compose file nor in its build script, as it is written and as a shell reads
its commands. -/
theorem hasNoOpeners_of_singleArtifact (hread : Document.ofText vars text = .ok d)
    (hprepare : Compilation.prepare ctx generator { d with source? } = .ok c)
    (hmode : ctx.mode = .singleArtifact) (hhosts : Layout.HostsAsWritten d c)
    (hrender : Layout.render c = .ok tree) :
    Layout.HasNoOpeners tree ∧ ∃ artifacts commands first second, emit c tree = .ok artifacts ∧
      artifacts.get? (Path.ofString buildScriptName) =
        some ⟨Path.ofString buildScriptName, buildScriptHead ++ commands, .executable⟩ ∧
      OpenerFree (buildScriptHead ++ commands).toList ∧
      Shell.readCommands commands = some [first, second] ∧
      ∀ word ∈ first ++ second, OpenerFree word.toList := by
  have h := Compilation.prepared_of_prepare hprepare
  have htree := Layout.hasNoOpeners_of_render h hread (h.openerFree_tree hread hmode) hhosts hrender
  obtain ⟨artifacts, words, hwords, hemit, hget⟩ := h.exists_buildScript hread hrender hmode
  have hfree (stage : Stage) := (hwords stage).openerFree htree
  refine ⟨htree, artifacts, _, words .first, words .second, hemit, hget, ?_,
    readCommands_commandLines hwords, ?_⟩
  · apply openerFree_buildScript
    simp only [List.forall_mem_cons]
    exact ⟨hfree .first, hfree .second, List.forall_mem_nil _⟩
  · rw [List.forall_mem_append]
    exact ⟨hfree .first, hfree .second⟩

/-- A single artifact with a directory of the host, and with quotes and a brace behind a blank. -/
theorem hasNoOpeners_of_singleArtifact_of_host : ∃ d c tree artifacts commands first second,
    Document.ofText (fun _ => none) ("stage_1:\n image:\n  base: \"it's $ \x7ba\x7d\"\n" ++
      " mount:\n  m:\n   type: host\n   host_path: h\n   dst_path: /m") = .ok d ∧
    Compilation.prepare { Context.bare with mode := .singleArtifact } .none
      { d with source? := none } = .ok c ∧
    Layout.HostsAsWritten d c ∧
    Layout.render c = .ok tree ∧ Layout.HasNoOpeners tree ∧ emit c tree = .ok artifacts ∧
    artifacts.get? (Path.ofString buildScriptName) =
      some ⟨Path.ofString buildScriptName, buildScriptHead ++ commands, .executable⟩ ∧
    OpenerFree (buildScriptHead ++ commands).toList ∧
    Shell.readCommands commands = some [first, second] ∧
    ∀ word ∈ first ++ second, OpenerFree word.toList := by
  have hrun : ((Document.ofText (fun _ => none)
      ("stage_1:\n image:\n  base: \"it's $ \x7ba\x7d\"\n" ++
        " mount:\n  m:\n   type: host\n   host_path: h\n   dst_path: /m")).toOption.bind fun d =>
      (Compilation.prepare { Context.bare with mode := .singleArtifact } .none
        { d with source? := none }).toOption.bind fun c =>
        (Layout.render c).toOption.map fun _ => true) = some true := by
    rw [Document.ofText_eq_ofChars, String.toList_append, String.toList_ofList,
      String.toList_ofList]
    decide +kernel
  obtain ⟨d, hd, hrun⟩ := Outcome.toOption_bind_eq_some_iff.1 hrun
  obtain ⟨c, hc, hrun⟩ := Outcome.toOption_bind_eq_some_iff.1 hrun
  obtain ⟨tree, htree, -⟩ := Outcome.toOption_map_eq_some_iff.1 hrun
  have hctx : ({ Context.bare with mode := .singleArtifact } : Context).AddsNoOpener := by
    apply Context.AddsNoOpener.of_entries
    · exact .of_bland (by decide)
    · simp [Context.bare]
    · simp [Context.bare, Files.empty]
  have h := Compilation.prepared_of_prepare hc
  have hhosts := Layout.hostsAsWritten_of_addsNoOpener h hd (h.openerFree_tree hd rfl) hctx
  obtain ⟨hfree, artifacts, commands, first, second, hscript⟩ :=
    hasNoOpeners_of_singleArtifact hd hc rfl hhosts htree
  exact ⟨d, c, tree, artifacts, commands, first, second, hd, hc, hhosts, htree, hfree, hscript⟩

end Emission

end TwoStage
