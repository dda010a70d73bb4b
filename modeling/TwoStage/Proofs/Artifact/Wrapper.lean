import TwoStage.Proofs.Artifact.Openers
import TwoStage.Proofs.Shell.Reading

/-!
# The lines of a wrapper

A wrapper runs the scripts that were declared for its hook and nothing else: behind its head it has
a line for each entry, in order. An entry is split at its first blank, and nothing of it is lost but
blanks; the script is one word to a shell, and the arguments stand as they were written.
-/

namespace TwoStage.Emission

open Text

/-! ### Splitting an entry -/

/-- An entry without the blanks around it is a script, which has no blanks, and perhaps arguments
behind some blanks. -/
structure IsSplit (entry script arguments : String) : Prop where
  script_noBlank : ∀ c ∈ script.toList, isBlank c = false
  arguments_head : ∀ c ∈ arguments.toList.head?, isBlank c = false
  trim_eq : trim entry = script ∧ arguments = "" ∨
    ∃ blanks : String, blanks ≠ "" ∧ (∀ c ∈ blanks.toList, isBlank c = true) ∧ arguments ≠ "" ∧
      trim entry = script ++ blanks ++ arguments

lemma isSplit_splitEntry (entry : String) :
    IsSplit entry (splitEntry entry).1 (splitEntry entry).2 := by
  unfold splitEntry
  split
  next script rest hcut =>
    obtain ⟨c, hc, heq⟩ := eq_of_cutAt? hcut
    obtain ⟨bs, hbs, hrest⟩ := exists_append_trimLeft rest
    have hblanks : ∀ b ∈ c :: bs, isBlank b = true := List.forall_mem_cons.2 ⟨hc, hbs⟩
    -- A text without blanks around it does not end in a blank, so that arguments stand behind one.
    have hne : trimLeft rest ≠ [] := fun hnil => by
      rw [hnil, List.append_nil] at hrest
      have hlast := List.getLast?_eq_some_getLast (List.cons_ne_nil c bs)
      have hend : (trimBoth entry.toList).getLast? = some ((c :: bs).getLast (by simp)) := by
        rw [heq, hrest, List.getLast?_append, hlast]
        rfl
      have hblank := isBlank_last_trimBoth entry.toList _ hend
      rw [hblanks _ (List.getLast_mem _)] at hblank
      exact absurd hblank (by simp)
    refine ⟨?_, ?_, .inr ⟨String.ofList (c :: bs), ?_, ?_, ?_, ?_⟩⟩
    · rw [String.toList_ofList]
      exact forall_of_cutAt? hcut
    · rw [String.toList_ofList]
      exact isBlank_head_trimLeft rest
    · exact fun h => List.cons_ne_nil c bs (by simpa using congrArg String.toList h)
    · rwa [String.toList_ofList]
    · exact fun h => hne (by simpa using congrArg String.toList h)
    · rw [trim, heq, ← String.ofList_append, ← String.ofList_append, List.append_assoc,
        List.cons_append, ← hrest]
  next hcut =>
    refine ⟨?_, by simp, .inl ⟨rfl, rfl⟩⟩
    rw [trim, String.toList_ofList]
    exact forall_of_cutAt?_eq_none hcut

/-! ### The line of an entry -/

/-- The line runs the script of the entry: behind what runs it stands one word, which a shell reads
as the path of the script, and then the arguments as they are. -/
structure Runs (hook : Hook) (entry line : String) : Prop where
  isSplit : IsSplit entry (splitEntry entry).1 (splitEntry entry).2
  line_eq : ∃ word, Shell.readCommands word = some [[scriptInContainer (splitEntry entry).1]] ∧
    line = runner hook ++ " " ++ word ++
      (if (splitEntry entry).2 = "" then "" else " " ++ (splitEntry entry).2)

/-- A shell reads a word that was written for it as one word. -/
lemma readCommands_word (s : String) : Shell.readCommands (Shell.word s) = some [[s]] := by
  rw [Shell.readCommands, Shell.word, String.toList_ofList, Shell.Reader.start,
    Shell.Reader.feed_wordChars]
  simp [Shell.Reader.finish, Shell.Reader.endCommand, Shell.Reader.endWord]

/-! ### No line end within a line -/

lemma IsSplit.notMem {entry script arguments : String} (h : IsSplit entry script arguments)
    (hentry : '\n' ∉ entry.toList) : '\n' ∉ script.toList ∧ '\n' ∉ arguments.toList := by
  have htrim : '\n' ∉ (trim entry).toList := fun hmem => by
    rw [trim, String.toList_ofList] at hmem
    exact hentry ((trimBoth_isInfix _).subset hmem)
  refine ⟨fun hmem => absurd (h.script_noBlank _ hmem) (by decide), fun hmem => ?_⟩
  rcases h.trim_eq with ⟨-, rfl⟩ | ⟨blanks, -, -, -, heq⟩
  · simp at hmem
  · rw [heq, String.toList_append] at htrim
    exact htrim (List.mem_append_right _ hmem)

lemma notMem_scriptInContainer {script : String} (h : '\n' ∉ script.toList) :
    '\n' ∉ (scriptInContainer script).toList := by
  unfold scriptInContainer
  split
  · exact h
  · have hdrop : '\n' ∉ dropDotSlash script.toList := fun hmem =>
      h ((dropDotSlash_suffix _).subset hmem)
    simpa [containerRoot] using hdrop

lemma notMem_word {s : String} (h : '\n' ∉ s.toList) : '\n' ∉ (Shell.word s).toList := by
  rw [Shell.word, String.toList_ofList, Shell.wordChars]
  split
  · exact h
  · have hquoted : ∀ c ∈ s.toList, '\n' ∉ Shell.quoteChar c := by
      intro c hc hmem
      unfold Shell.quoteChar at hmem
      split at hmem
      · simp at hmem
      · exact h (List.mem_singleton.1 hmem ▸ hc)
    simpa using hquoted

/-- An entry without a line end has a line of its own. -/
lemma exists_runLine_eq (hook : Hook) {entry : String} (h : '\n' ∉ entry.toList) :
    ∃ line, Runs hook entry line ∧ '\n' ∉ line.toList ∧ runLine hook entry = line ++ "\n" := by
  have hsplit := isSplit_splitEntry entry
  obtain ⟨hscript, harguments⟩ := hsplit.notMem h
  refine ⟨_, ⟨hsplit, _, readCommands_word _, rfl⟩, ?_, rfl⟩
  have hrunner : '\n' ∉ (runner hook).toList := by cases hook <;> decide
  have hword := notMem_word (notMem_scriptInContainer hscript)
  split
  · simp [hrunner, hword]
  · simp [hrunner, hword, harguments]

lemma exists_lines (hook : Hook) {entries : List String} (h : ∀ e ∈ entries, '\n' ∉ e.toList) :
    ∃ lines, List.Forall₂ (Runs hook) entries lines ∧ (∀ l ∈ lines, '\n' ∉ l.toList) ∧
      entries.map (runLine hook) = lines.map fun l => l ++ "\n" := by
  induction entries with
  | nil => exact ⟨[], .nil, by simp, rfl⟩
  | cons entry entries ih =>
    rw [List.forall_mem_cons] at h
    obtain ⟨line, hruns, hline, heq⟩ := exists_runLine_eq hook h.1
    obtain ⟨lines, hall, hlines, hrest⟩ := ih h.2
    exact ⟨line :: lines, .cons hruns hall, List.forall_mem_cons.2 ⟨hline, hlines⟩, by
      rw [List.map_cons, List.map_cons, heq, hrest]⟩

/-! ### The wrapper -/

def headLines (stage : Stage) (hook : Hook) : List String :=
  ["#!/bin/bash", "# " ++ hook.key ++ " scripts of " ++ stage.label ++ ". " ++ notice, "set -e"]

lemma wrapperHead_eq (stage : Stage) (hook : Hook) :
    wrapperHead stage hook = String.join ((headLines stage hook).map fun l => l ++ "\n") := by
  have hfirst : "#!/bin/bash\n# " = "#!/bin/bash" ++ "\n" ++ "# " := by decide
  have hlast : "\nset -e\n" = "\n" ++ "set -e" ++ "\n" := by decide
  unfold wrapperHead headLines
  rw [hfirst, hlast]
  simp only [List.map_cons, List.map_nil, String.join_cons, String.join_nil, String.append_assoc,
    String.append_empty]

lemma notMem_headLines (stage : Stage) (hook : Hook) :
    ∀ l ∈ headLines stage hook, '\n' ∉ l.toList := by
  have hkey : '\n' ∉ hook.key.toList := by cases hook <;> decide
  have hlabel : '\n' ∉ stage.label.toList := by cases stage <;> decide
  simp [headLines, hkey, hlabel, notice]

/-- A wrapper is its three head lines and one line for each entry of its hook, in order, each of
which runs what its entry says. -/
theorem split_wrapper (view : StageView) (hook : Hook)
    (h : ∀ entry ∈ view.scripts.entries hook, '\n' ∉ entry.toList) :
    ∃ lines, split '\n' (wrapper view hook) = headLines view.stage hook ++ lines ++ [""] ∧
      List.Forall₂ (Runs hook) (view.scripts.entries hook) lines := by
  obtain ⟨lines, hall, hlines, heq⟩ := exists_lines hook h
  refine ⟨lines, ?_, hall⟩
  rw [wrapper, wrapperHead_eq, heq, ← String.join_append, ← List.map_append]
  exact split_join_lines (List.forall_mem_append.2 ⟨notMem_headLines _ _, hlines⟩)

/-- A login runs two scripts, one of which needs quotes and has arguments. -/
theorem split_wrapper_of_login :
    let view : StageView :=
      { stage := .second, image := .empty, proxy := .empty, apt := .empty, environment := .empty,
        bakeEnvironment := false, ports := [], device := .cpu,
        scripts := { Scripts.empty with onUserLogin := ["  ./it's\u3000-a  '$b' ", "/x"] },
        ssh? := none }
    (∀ entry ∈ view.scripts.entries .onUserLogin, '\n' ∉ entry.toList) ∧
      ∃ lines, split '\n' (wrapper view .onUserLogin) =
          headLines .second .onUserLogin ++ lines ++ [""] ∧
        List.Forall₂ (Runs .onUserLogin) ["  ./it's\u3000-a  '$b' ", "/x"] lines := by
  intro view
  have h : ∀ entry ∈ view.scripts.entries .onUserLogin, '\n' ∉ entry.toList := by decide
  exact ⟨h, split_wrapper view .onUserLogin h⟩

end TwoStage.Emission
