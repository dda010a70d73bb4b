import TwoStage.Merge
import TwoStage.Proofs.Environment.Forms
import TwoStage.Proofs.Shell.Reading

/-!
# The profile script

A shell that runs the profile script exports the variables, each with its value as it is, and does
nothing else. The script is read as any other, but for one thing: in a command that assigns values a
tilde stands for a directory also where a value begins. What a value holds is read back from quotes,
or has no character that means anything.
-/

namespace TwoStage

open Text

namespace Shell

/-! ### Scripts that export -/

/-- The characters behind which a value or a part of one begins, in a word that assigns it. -/
def valueSigns : List Char := ['=', ':']

namespace Reader

/-- The word that is read is at the start of a value or of a part of one. -/
def beginsValue (r : Reader) : Bool := (r.word?.bind List.getLast?).any valueSigns.contains

/-- Read a character of a command that assigns values. Outside of quotes, a tilde at the start of a
value stands for a directory. -/
def stepAssigning (r : Reader) (c : Char) : Option Reader :=
  if c = '~' ∧ r.place = .bare ∧ r.beginsValue then none else r.step c

/-- Read characters of commands that assign values. -/
def feedAssigning (r : Reader) (cs : List Char) : Option Reader := cs.foldlM stepAssigning r

end Reader

/-- The name and the value of an operand that assigns one. -/
def assignment? (operand : String) : Option (String × String) :=
  match cutAt? (· == '=') operand.toList with
  | some (name, value) =>
    if isVariableName name then some (String.ofList name, String.ofList value) else none
  | none => none

/-- What a command exports, if it assigns values to exported variables and does nothing else. -/
def exportsOfCommand : List String → Option (List (String × String))
  | "export" :: operand :: operands => (operand :: operands).mapM assignment?
  | _                               => none

/-- What a script exports, in order, if it can be read and does nothing else. A text with a zero
byte is no script. -/
def exportsOf (script : String) : Option (List (String × String)) :=
  if '\x00' ∈ script.toList then none
  else do
    let commands ← (Reader.start.feedAssigning script.toList).bind Reader.finish
    return (← commands.mapM exportsOfCommand).flatten

/-! ### Reading values -/

namespace Reader

variable {r r' : Reader} {cs : List Char}

lemma feedAssigning_cons (r : Reader) (c : Char) (cs : List Char) :
    r.feedAssigning (c :: cs) = (r.stepAssigning c).bind fun r' => r'.feedAssigning cs :=
  List.foldlM_cons

/-- What is read first does not change how the rest is read. -/
lemma feedAssigning_append_of_eq (h : r.feedAssigning cs = some r') (cs' : List Char) :
    r.feedAssigning (cs ++ cs') = r'.feedAssigning cs' := by
  have happend : r.feedAssigning (cs ++ cs') =
      (r.feedAssigning cs).bind fun r' => r'.feedAssigning cs' := List.foldlM_append
  rw [happend, h, Option.bind_some]

/-- Without a tilde it makes no difference whether values are assigned. -/
lemma feedAssigning_eq_feed (h : '~' ∉ cs) (r : Reader) : r.feedAssigning cs = r.feed cs := by
  induction cs generalizing r with
  | nil => rfl
  | cons c cs ih =>
    rw [List.mem_cons, not_or] at h
    have hstep : r.stepAssigning c = r.step c := if_neg fun htilde => h.1 htilde.1.symm
    rw [feedAssigning_cons, feed_cons, hstep]
    exact Option.bind_congr fun r' _ => ih h.2 r'

lemma stepAssigning_of_ne_bare (h : r.place ≠ .bare) (c : Char) :
    r.stepAssigning c = r.step c := if_neg fun htilde => h htilde.2.1

/-- A quoted character is read as it is, be it a tilde or not. -/
lemma feedAssigning_quoteChar (commands : List (List String)) (words : List String)
    (done : List Char) (c : Char) :
    (Reader.mk .single commands words (some done)).feedAssigning (quoteChar c) =
      some ⟨.single, commands, words, some (done ++ [c])⟩ := by
  by_cases hc : c = '\''
  · rw [hc, feedAssigning_eq_feed (by decide)]
    simp [quoteChar, step, stepBare, beginWord, push]
  · have hstep : (Reader.mk .single commands words (some done)).stepAssigning c =
        some ⟨.single, commands, words, some (done ++ [c])⟩ := by
      rw [stepAssigning_of_ne_bare (by simp)]
      simp [step, hc, push]
    rw [quoteChar, if_neg hc, feedAssigning_cons, hstep]
    rfl

/-- Quoted characters are read up to the closing quote. -/
lemma feedAssigning_quoted (commands : List (List String)) (words : List String)
    (done cs : List Char) :
    (Reader.mk .single commands words (some done)).feedAssigning (cs.flatMap quoteChar ++ ['\'']) =
      some ⟨.bare, commands, words, some (done ++ cs)⟩ := by
  induction cs generalizing done with
  | nil =>
    rw [List.flatMap_nil, List.nil_append, feedAssigning_eq_feed (by decide)]
    simp [step]
  | cons c cs ih =>
    rw [List.flatMap_cons, List.append_assoc,
      feedAssigning_append_of_eq (feedAssigning_quoteChar commands words done c), ih]
    simp

/-- A value that is written for the shell is read as what it was written for. -/
lemma feedAssigning_wordChars (commands : List (List String)) (words : List String)
    (done cs : List Char) :
    (Reader.mk .bare commands words (some done)).feedAssigning (wordChars cs) =
      some ⟨.bare, commands, words, some (done ++ cs)⟩ := by
  unfold wordChars
  split
  next hbare =>
    simp only [isBare, Bool.and_eq_true, Bool.not_eq_true', List.isEmpty_eq_false_iff,
      List.all_eq_true, List.contains_eq_mem, decide_eq_false_iff_not] at hbare
    rw [feedAssigning_eq_feed fun htilde => hbare.2 '~' htilde (by decide),
      feed_of_notMem_specials rfl hbare.1 hbare.2]
    rfl
  next =>
    have hopen : (Reader.mk .bare commands words (some done)).feedAssigning ['\''] =
        some ⟨.single, commands, words, some done⟩ := by
      rw [feedAssigning_eq_feed (by decide)]
      simp [step, stepBare, beginWord]
    rw [List.append_assoc, feedAssigning_append_of_eq hopen, feedAssigning_quoted]

/-! ### Reading exports -/

/-- Up to its value, an export is read as it stands. -/
lemma feedAssigning_name (commands : List (List String)) {name : List Char}
    (h : isVariableName name = true) :
    (Reader.mk .bare commands [] none).feedAssigning ("export ".toList ++ name ++ ['=']) =
      some ⟨.bare, commands, ["export"], some (name ++ ['='])⟩ := by
  have hspecial : ∀ c ∈ name, c ∉ specials := fun c hc hmem => by
    have hplain : ∀ d ∈ specials, d.isAlphanum = false ∧ d ≠ '_' := by simp [specials]
    exact not_mem_of_isVariableName h (hplain c hmem).1 (hplain c hmem).2 hc
  have hne : name ≠ [] := fun hnil => by simp [hnil, isVariableName] at h
  have hcommand : (Reader.mk .bare commands [] none).feed "export ".toList =
      some ⟨.bare, commands, ["export"], none⟩ := by
    simp [step, stepBare, push, endWord, operators]
  have hname : (Reader.mk .bare commands ["export"] none).feed name =
      some ⟨.bare, commands, ["export"], some name⟩ := feed_of_notMem_specials rfl hne hspecial
  have htilde : '~' ∉ "export ".toList ++ name ++ ['='] := by
    have hnot : '~' ∉ name := fun hmem => hspecial '~' hmem (by decide)
    simp [hnot]
  rw [feedAssigning_eq_feed htilde, List.append_assoc, feed_append_of_eq hcommand,
    feed_append_of_eq hname]
  simp [step, stepBare, push, operators]

/-- The line of an export is read as a command with one operand. -/
lemma feedAssigning_exportLine (commands : List (List String)) {name value : String}
    (h : isVariableName name.toList = true) :
    (Reader.mk .bare commands [] none).feedAssigning (Environment.exportLine name value).toList =
      some ⟨.bare, commands ++ [["export", name ++ "=" ++ value]], [], none⟩ := by
  have hchars : (Environment.exportLine name value).toList =
      "export ".toList ++ name.toList ++ ['='] ++ (wordChars value.toList ++ ['\n']) := by
    simp [Environment.exportLine, word, String.toList_append]
  rw [hchars, feedAssigning_append_of_eq (feedAssigning_name commands h),
    feedAssigning_append_of_eq (feedAssigning_wordChars _ _ _ _),
    feedAssigning_eq_feed (by decide)]
  have hoperand : String.ofList (name.toList ++ ['='] ++ value.toList) = name ++ "=" ++ value := by
    rw [← String.toList_inj]
    simp [String.toList_append]
  simp [step, stepBare, endCommand, endWord, ← hoperand]

/-- Lines of exports are read as commands in the same order. -/
lemma feedAssigning_exportLines (commands : List (List String)) {es : List (String × String)}
    (h : ∀ v ∈ es, isVariableName v.1.toList = true) :
    (Reader.mk .bare commands [] none).feedAssigning
        (es.flatMap fun (name, value) => (Environment.exportLine name value).toList) =
      some ⟨.bare, commands ++ es.map fun (name, value) => ["export", name ++ "=" ++ value], [],
        none⟩ := by
  induction es generalizing commands with
  | nil => simp [feedAssigning]
  | cons v es ih =>
    rw [List.forall_mem_cons] at h
    rw [List.flatMap_cons, feedAssigning_append_of_eq (feedAssigning_exportLine commands h.1),
      ih _ h.2]
    simp

end Reader

/-- A word holds no characters but those of the text, quotes and backslashes. -/
lemma notMem_wordChars {c : Char} {cs : List Char} (hc : c ∉ ['\'', '\\']) (h : c ∉ cs) :
    c ∉ wordChars cs := by
  have hquote : ∀ d ∈ cs, c ∉ quoteChar d := fun d hd => by
    unfold quoteChar
    split
    next => simp_all
    next => simpa using (ne_of_mem_of_not_mem hd h).symm
  simp only [List.mem_cons, List.not_mem_nil, or_false, not_or] at hc
  unfold wordChars
  split
  next => exact h
  next => simpa [hc.1] using hquote

lemma exportsOfCommand_eq {name value : String} (h : isVariableName name.toList = true) :
    exportsOfCommand ["export", name ++ "=" ++ value] = some [(name, value)] := by
  have hsign : ∀ c ∈ name.toList, (c == '=') = false := fun c hc => by
    simpa using ne_of_mem_of_not_mem hc (not_mem_of_isVariableName h (by decide) (by decide))
  have hcut : cutAt? (· == '=') (name ++ "=" ++ value).toList =
      some (name.toList, value.toList) := by
    rw [String.toList_append, String.toList_append, List.append_assoc]
    exact cutAt?_append (by decide) hsign
  have hassign : assignment? (name ++ "=" ++ value) = some (name, value) := by
    rw [assignment?, hcut]
    simp [h]
  rw [exportsOfCommand, List.mapM_cons, hassign, List.mapM_nil]
  rfl

/-- Commands that each export a variable export all of them in their order. -/
lemma mapM_exportsOfCommand {es : List (String × String)}
    (h : ∀ v ∈ es, isVariableName v.1.toList = true) :
    (es.map fun (name, value) => ["export", name ++ "=" ++ value]).mapM exportsOfCommand =
      some (es.map fun v => [v]) := by
  induction es with
  | nil => rfl
  | cons v es ih =>
    rw [List.forall_mem_cons] at h
    rw [List.map_cons, List.mapM_cons, exportsOfCommand_eq h.1, ih h.2]
    rfl

end Shell

/-! ### The script of an environment -/

open Shell

/-- The environments that come from documents: that of a section, and one on top of another. -/
inductive Environment.Documented : Environment → Prop
  | ofSection {path : String} {s : EnvironmentSection} {e : Environment}
      (h : s.environment path = .ok e) : Documented e
  | exportAll {e f : Environment} (he : Documented e) (hf : Documented f) :
      Documented (e.exportAll f)

/-- The environments of a checked document: those of its stages, and both of them merged. -/
def Spec.environments (s : Spec) : List Environment :=
  [s.first.environment, s.second.environment, (Merged.ofSpec s).environment]

namespace Environment.Documented

variable {e : Environment}

lemma isVariableName_of_mem (h : e.Documented) :
    ∀ v ∈ e.entries, isVariableName v.1.toList = true := by
  induction h with
  | ofSection h => exact EnvironmentSection.isVariableName_of_environment h
  | exportAll _ _ ihe ihf =>
    intro v hv
    exact (OrderedMap.mem_of_mem_insertAll hv).elim (ihe v) (ihf v)

lemma nodup_keys (h : e.Documented) : e.keys.Nodup := by
  induction h with
  | ofSection h => exact EnvironmentSection.nodup_of_environment h
  | exportAll _ _ ihe _ => exact OrderedMap.nodup_keys_insertAll ihe _

end Environment.Documented

namespace Spec

variable {dir : Path} {d : Document} {s : Spec}

lemma documented_stage (h : ofDocument dir d = .ok s) (stage : Stage) :
    (s.stage stage).environment.Documented := by
  obtain ⟨t, image, heq, ⟨-, rfl⟩ | ⟨x, -, hread⟩⟩ := stage_of_ofDocument h stage
  · have hempty : (EnvironmentSection.list []).environment "" = .ok .empty := rfl
    rw [heq]
    exact .ofSection hempty
  · rw [heq]
    exact .ofSection (StageSpec.ofSection_eq_ok_iff.1 hread).environment

lemma documented_of_mem_environments (h : ofDocument dir d = .ok s) :
    ∀ e ∈ s.environments, e.Documented := by
  intro e he
  have hfirst := documented_stage h .first
  have hsecond := documented_stage h .second
  simp only [environments, List.mem_cons, List.not_mem_nil, or_false] at he
  rcases he with rfl | rfl | rfl
  · exact hfirst
  · exact hsecond
  · exact hfirst.exportAll hsecond

end Spec

namespace Environment

lemma toList_profileScript (e : Environment) : e.profileScript.toList =
    "#!/bin/sh\n# generated by stagecraft, do not edit\n".toList ++
      e.entries.flatMap fun (name, value) => (exportLine name value).toList := by
  have hlines : (String.join (e.entries.map fun (name, value) => exportLine name value)).toList =
      e.entries.flatMap fun (name, value) => (exportLine name value).toList := by
    rw [String.toList_join, List.flatMap_map]
  exact String.toList_append.trans (congrArg (_ ++ ·) hlines)

/-- The comment at the head of the script is read over. -/
lemma feedAssigning_header : Reader.start.feedAssigning
    "#!/bin/sh\n# generated by stagecraft, do not edit\n".toList = some Reader.start :=
  (Reader.feedAssigning_eq_feed (by decide) Reader.start).trans rfl

lemma zero_notMem_profileScript {e : Environment}
    (hname : ∀ v ∈ e.entries, isVariableName v.1.toList = true)
    (hzero : ∀ v ∈ e.entries, '\x00' ∉ v.2.toList) : '\x00' ∉ e.profileScript.toList := by
  have hline : ∀ v ∈ e.entries, '\x00' ∉ (exportLine v.1 v.2).toList := fun v hv => by
    have hleft : '\x00' ∉ v.1.toList :=
      not_mem_of_isVariableName (hname v hv) (by decide) (by decide)
    have hright : '\x00' ∉ wordChars v.2.toList := notMem_wordChars (by decide) (hzero v hv)
    have hword : (word v.2).toList = wordChars v.2.toList := by simp [word]
    simp [exportLine, String.toList_append, hleft, hright, hword]
  rw [toList_profileScript, List.mem_append, List.mem_flatMap, not_or, not_exists]
  exact ⟨by decide, fun v hv => hline v hv.1 hv.2⟩

/-- A shell that runs the profile script of a documented environment exports its variables, each
once and with its value, and does nothing else. -/
lemma Documented.exportsOf_eq {e : Environment} (h : e.Documented)
    (hzero : ∀ v ∈ e.entries, '\x00' ∉ v.2.toList) :
    exportsOf e.profileScript = some e.entries := by
  have hname := h.isVariableName_of_mem
  have hread : Reader.start.feedAssigning e.profileScript.toList =
      some ⟨.bare, e.entries.map fun (name, value) => ["export", name ++ "=" ++ value], [],
        none⟩ := by
    rw [toList_profileScript, Reader.feedAssigning_append_of_eq feedAssigning_header, Reader.start,
      Reader.feedAssigning_exportLines _ hname, List.nil_append]
  have hfinish : (Reader.mk .bare (e.entries.map fun (name, value) =>
      ["export", name ++ "=" ++ value]) [] none).finish =
      some (e.entries.map fun (name, value) => ["export", name ++ "=" ++ value]) := rfl
  have hflatten : (e.entries.map fun v => [v]).flatten = e.entries := by
    rw [← List.flatMap_def, List.flatMap_singleton']
  rw [exportsOf, if_neg (zero_notMem_profileScript hname hzero), hread, Option.bind_some, hfinish]
  change ((_ : List _).mapM exportsOfCommand).bind _ = _
  rw [mapM_exportsOfCommand hname]
  exact congrArg some hflatten

/-- A shell that runs the profile script of an environment from documents, such as those of a
checked document, exports its variables, each once and with its value, and does nothing else. -/
theorem exportsOf_profileScript {e : Environment}
    (h : e.Documented ∨ ∃ dir d s, Spec.ofDocument dir d = .ok s ∧ e ∈ s.environments)
    (hzero : ∀ v ∈ e.entries, '\x00' ∉ v.2.toList) :
    exportsOf e.profileScript = some e.entries ∧ e.keys.Nodup := by
  have hdocumented : e.Documented := by
    rcases h with h | ⟨dir, d, s, hs, he⟩
    · exact h
    · exact Spec.documented_of_mem_environments hs e he
  exact ⟨hdocumented.exportsOf_eq hzero, hdocumented.nodup_keys⟩

/-- Values hold quotes, what a shell would expand, blanks, line breaks and signs of comments. -/
theorem exportsOf_profileScript_of_specials :
    let e : Environment := ⟨[("A", "it\'s $HOME"), ("B", ""), ("C", "~/x:~"), ("D", "#\n`id`"),
      ("E", "a\\b;\tc"), ("F", "plain")]⟩
    exportsOf e.profileScript = some e.entries ∧ e.keys.Nodup := by
  intro e
  have hread : (EnvironmentSection.list ["A=it\'s $HOME", "B=", "C=~/x:~", "D=#\n`id`",
      "E=a\\b;\tc", "F=plain"]).environment "stage_1.environment" = .ok e := by rfl
  exact exportsOf_profileScript (.inl (.ofSection hread)) (by decide)

end Environment

end TwoStage
