import TwoStage.Proofs.Text.Split
import TwoStage.Shell

/-!
# Reading commands as a shell does

A reader takes the commands of a script apart into their words by the rules of a POSIX shell: blanks
end words and line ends end commands, and quotes are removed. It stops at whatever would make more
of a word than its characters, such as expansions and patterns, and at all operators. A word that
was written for the shell is read as the text that it was written for.
-/

namespace TwoStage.Shell

open Text

/-! ### The reader -/

/-- Where in a script a reader stands. -/
inductive Place
  /-- Outside of quotes. -/
  | bare
  /-- Behind a backslash outside of quotes. -/
  | escaped
  /-- Between single quotes. -/
  | single
  /-- Between double quotes. -/
  | double
  /-- Behind a backslash between double quotes. -/
  | doubleEscaped
  /-- In a comment. -/
  | comment
deriving DecidableEq, Repr

/-- What has been read of a script: its commands so far, the words so far of the one that is read,
and the characters so far of a word that has begun. -/
structure Reader where
  place : Place
  commands : List (List String)
  words : List String
  word? : Option (List Char)
deriving DecidableEq, Repr

/-- The characters that are operators, start an expansion or are part of a pattern. -/
def operators : List Char := ['|', '&', ';', '<', '>', '(', ')', '$', '\x60', '*', '?', '[']

/-- The characters that start an expansion, between double quotes as well. -/
def expansions : List Char := ['$', '\x60']

/-- The characters that lose their meaning behind a backslash between double quotes. -/
def escapable : List Char := ['$', '\x60', '"', '\\']

namespace Reader

def start : Reader := ⟨.bare, [], [], none⟩

/-- Begin a word, unless one has begun. -/
def beginWord (r : Reader) : Reader := { r with word? := some (r.word?.getD []) }

/-- Add characters to the word that has begun, or begin one. -/
def push (r : Reader) (cs : List Char) : Reader := { r with word? := some (r.word?.getD [] ++ cs) }

/-- End the word that has begun, if any. -/
def endWord (r : Reader) : Reader :=
  match r.word? with
  | none    => r
  | some cs => { r with words := r.words ++ [String.ofList cs], word? := none }

/-- End the command that is read, if it has words. -/
def endCommand (r : Reader) : Reader :=
  if r.endWord.words = [] then r.endWord
  else { r.endWord with commands := r.commands ++ [r.endWord.words], words := [] }

/-- Read a character outside of quotes. A hash begins a comment where a word could begin, and a
tilde stands for a directory there. -/
def stepBare (r : Reader) (c : Char) : Option Reader :=
  if c = '\n' then some r.endCommand
  else if c = ' ' ∨ c = '\t' then some r.endWord
  else if c = '\\' then some { r with place := .escaped }
  else if c = '\'' then some { r.beginWord with place := .single }
  else if c = '"' then some { r.beginWord with place := .double }
  else if c ∈ operators then none
  else if c = '#' ∧ r.word? = none then some { r with place := .comment }
  else if c = '~' ∧ r.word? = none then none
  else some (r.push [c])

/-- Read a character, if it is one that can be read. A backslash takes a line end out. -/
def step (r : Reader) (c : Char) : Option Reader :=
  match r.place with
  | .bare          => r.stepBare c
  | .escaped       =>
    some { (if c = '\n' then r else r.push [c]) with place := .bare }
  | .single        =>
    if c = '\'' then some { r with place := .bare } else some (r.push [c])
  | .double        =>
    if c = '"' then some { r with place := .bare }
    else if c = '\\' then some { r with place := .doubleEscaped }
    else if c ∈ expansions then none
    else some (r.push [c])
  | .doubleEscaped =>
    some { (if c = '\n' then r else r.push (if c ∈ escapable then [c] else ['\\', c])) with
      place := .double }
  | .comment       =>
    if c = '\n' then some { r.endCommand with place := .bare } else some r

def feed (r : Reader) (cs : List Char) : Option Reader := cs.foldlM step r

/-- The commands of a script that has been read to its end, which is no place between quotes. -/
def finish (r : Reader) : Option (List (List String)) :=
  if r.place = .bare ∨ r.place = .comment then some r.endCommand.commands else none

end Reader

/-- The commands of a script by their words, if it can be read. -/
def readCommands (script : String) : Option (List (List String)) :=
  (Reader.start.feed script.toList).bind Reader.finish

namespace Reader

variable {r r' : Reader} {cs : List Char}

@[simp]
lemma feed_nil (r : Reader) : r.feed [] = some r := rfl

@[simp]
lemma feed_cons (r : Reader) (c : Char) (cs : List Char) :
    r.feed (c :: cs) = (r.step c).bind fun r' => r'.feed cs := List.foldlM_cons

lemma feed_append (r : Reader) (cs cs' : List Char) :
    r.feed (cs ++ cs') = (r.feed cs).bind fun r' => r'.feed cs' := List.foldlM_append

/-- What is read first does not change how the rest is read. -/
lemma feed_append_of_eq (h : r.feed cs = some r') (cs' : List Char) :
    r.feed (cs ++ cs') = r'.feed cs' := by
  rw [feed_append, h, Option.bind_some]

/-! ### Words -/

/-- Every character that means something to a reader is special where words are written. -/
lemma notMem_of_notMem_specials {c : Char} (h : c ∉ specials) :
    c ∉ ['\n', ' ', '\t', '\\', '\'', '"', '#', '~'] ∧ c ∉ operators := by
  have hspecial :
      ∀ d ∈ ['\n', ' ', '\t', '\\', '\'', '"', '#', '~'] ++ operators, d ∈ specials := by
    simp [operators, specials]
  rw [List.forall_mem_append] at hspecial
  exact ⟨fun hmem => h (hspecial.1 c hmem), fun hmem => h (hspecial.2 c hmem)⟩

lemma step_of_notMem_specials {c : Char} (hplace : r.place = .bare) (h : c ∉ specials) :
    r.step c = some (r.push [c]) := by
  obtain ⟨hplain, hoperator⟩ := notMem_of_notMem_specials h
  simp only [List.mem_cons, List.not_mem_nil, or_false, not_or] at hplain
  rw [step, hplace]
  simp [stepBare, hplain, hoperator]

@[simp]
lemma push_push (r : Reader) (cs cs' : List Char) : (r.push cs).push cs' = r.push (cs ++ cs') := by
  simp [push]

/-- Characters without a meaning to the shell are read as they stand. -/
lemma feed_of_notMem_specials (hplace : r.place = .bare) (hne : cs ≠ [])
    (h : ∀ c ∈ cs, c ∉ specials) : r.feed cs = some (r.push cs) := by
  induction cs generalizing r with
  | nil => exact absurd rfl hne
  | cons c cs ih =>
    rw [List.forall_mem_cons] at h
    rw [feed_cons, step_of_notMem_specials hplace h.1, Option.bind_some]
    by_cases hcs : cs = []
    · rw [hcs, feed_nil]
    · have hpush : (r.push [c]).place = .bare := hplace
      rw [ih hpush hcs h.2, push_push]
      rfl

/-- Quoted characters are read up to the closing quote. -/
lemma feed_quoted (commands : List (List String)) (words : List String) (done cs : List Char) :
    (Reader.mk .single commands words (some done)).feed (cs.flatMap quoteChar ++ ['\'']) =
      some ⟨.bare, commands, words, some (done ++ cs)⟩ := by
  induction cs generalizing done with
  | nil => simp [step]
  | cons c cs ih =>
    rw [List.flatMap_cons, List.append_assoc]
    have hread : (Reader.mk .single commands words (some done)).feed (quoteChar c) =
        some ⟨.single, commands, words, some (done ++ [c])⟩ := by
      by_cases hc : c = '\''
      · simp [quoteChar, hc, step, stepBare, beginWord, push]
      · simp [quoteChar, hc, step, push]
    rw [feed_append_of_eq hread, ih, List.append_assoc]
    rfl

/-- A word that is written for the shell is read as what it was written for. -/
lemma feed_wordChars (commands : List (List String)) (words : List String) (cs : List Char) :
    (Reader.mk .bare commands words none).feed (wordChars cs) =
      some ⟨.bare, commands, words, some cs⟩ := by
  unfold wordChars
  split
  next hbare =>
    simp only [isBare, Bool.and_eq_true, Bool.not_eq_true', List.isEmpty_eq_false_iff,
      List.all_eq_true, List.contains_eq_mem, decide_eq_false_iff_not] at hbare
    exact feed_of_notMem_specials rfl hbare.1 hbare.2
  next =>
    have hopen : (Reader.mk .bare commands words none).feed ['\''] =
        some ⟨.single, commands, words, some []⟩ := by
      simp [step, stepBare, beginWord]
    rw [List.append_assoc, feed_append_of_eq hopen, feed_quoted]
    rfl

/-! ### Commands -/

/-- The words of a command are read one by one, the last up to the end of the line. -/
lemma feed_words (commands : List (List String)) (words : List String) (done : List Char)
    (rest : List String) :
    (Reader.mk .bare commands words (some done)).feed
        ((rest.map fun w => wordChars w.toList).flatMap (' ' :: ·) ++ ['\n']) =
      some ⟨.bare, commands ++ [words ++ String.ofList done :: rest], [], none⟩ := by
  induction rest generalizing words done with
  | nil => simp [step, stepBare, endCommand, endWord]
  | cons w rest ih =>
    have hblank : (Reader.mk .bare commands words (some done)).feed [' '] =
        some ⟨.bare, commands, words ++ [String.ofList done], none⟩ := by
      simp [step, stepBare, endWord]
    rw [List.map_cons, List.flatMap_cons, List.append_assoc, ← List.singleton_append (x := ' '),
      List.append_assoc, feed_append_of_eq hblank, feed_append_of_eq (feed_wordChars _ _ _), ih,
      String.ofList_toList, List.append_assoc]
    rfl

/-- A command that is written on a line is read as its words. -/
lemma feed_command (commands : List (List String)) {words : List String} (hne : words ≠ []) :
    (Reader.mk .bare commands [] none).feed ((command words).toList ++ ['\n']) =
      some ⟨.bare, commands ++ [words], [], none⟩ := by
  obtain ⟨w, rest, rfl⟩ := List.exists_cons_of_ne_nil hne
  have hchars : (command (w :: rest)).toList =
      wordChars w.toList ++ (rest.map fun w => wordChars w.toList).flatMap (' ' :: ·) := by
    rw [command, String.toList_intercalate, List.map_map]
    simp only [List.map_cons, Function.comp_def, word, String.toList_ofList]
    exact intercalate_eq _ _
  rw [hchars, List.append_assoc, feed_append_of_eq (feed_wordChars _ _ _), feed_words,
    String.ofList_toList, List.nil_append]

end Reader

/-- Commands that are written behind empty lines are read as their words. -/
lemma readCommands_join {commands : List (List String)} (hne : ∀ words ∈ commands, words ≠ []) :
    readCommands (String.join (commands.map fun words => "\n" ++ command words ++ "\n")) =
      some commands := by
  -- for any commands that were read before, so that a line can be put behind them
  have hfeed (before : List (List String)) :
      (Reader.mk .bare before [] none).feed
          (commands.flatMap fun words => '\n' :: ((command words).toList ++ ['\n'])) =
        some ⟨.bare, before ++ commands, [], none⟩ := by
    induction commands generalizing before with
    | nil => simp
    | cons words commands ih =>
      rw [List.forall_mem_cons] at hne
      have hline : (Reader.mk .bare before [] none).feed
          ('\n' :: ((command words).toList ++ ['\n'])) =
          some ⟨.bare, before ++ [words], [], none⟩ := by
        rw [Reader.feed_cons]
        exact Reader.feed_command before hne.1
      rw [List.flatMap_cons, Reader.feed_append_of_eq hline, ih hne.2, List.append_assoc]
      rfl
  have hchars : (String.join (commands.map fun words => "\n" ++ command words ++ "\n")).toList =
      commands.flatMap fun words => '\n' :: ((command words).toList ++ ['\n']) := by
    rw [String.toList_join, List.flatMap_map]
    simp [String.toList_append]
  rw [readCommands, hchars, Reader.start, hfeed]
  rfl

example : readCommands "\n'it'\\''s' a\\ b \"c d\" # e\n" = some [["it's", "a b", "c d"]] := by
  decide

end TwoStage.Shell
