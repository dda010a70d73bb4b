import TwoStage.Command.Basic

/-!
# The command line

The words of a command line are read from left to right. A word that starts with two dashes is an
option by its long name, with a value behind an equals sign or in the next word; one that starts
with a single dash is a row of short options, the last of which may take the rest of the word as its
value. Two dashes alone end the options. The first fault ends the reading, and so does a request for
help.

A variable stands in for an option that is not given.
-/

namespace TwoStage

/-! ### Options -/

/-- What an option is there for. -/
inductive OptionKind
  /-- To be given or not. -/
  | flag
  /-- To be given any number of times. -/
  | counter
  /-- To give a path, which cannot be empty. -/
  | path
  /-- To give any text. -/
  | text
  | help
  | version
deriving DecidableEq, Repr

/-- An option by its names. -/
structure OptionRule where
  long : String
  short? : Option Char
  kind : OptionKind
  standIn? : Option String
deriving DecidableEq, Repr

/-- An option that takes a value. -/
def OptionRule.takesValue (r : OptionRule) : Bool :=
  match r.kind with
  | .path => true
  | .text => true
  | _     => false

/-- Why a command line is not carried out. -/
inductive UsageError
  | unknownOption (word : String)
  | missingValue (option : String)
  | unexpectedValue (option value : String)
  | repeatedOption (option : String)
  | emptyValue (option : String)
  | unexpectedOperand (word : String)
  | noBoolean (name value : String)
  | missingCommand
  | unknownCommand (name : String)
deriving DecidableEq, Repr

def UsageError.message : UsageError → String
  | .unknownOption word           => "unexpected argument '" ++ word ++ "' found"
  | .missingValue option          =>
    "a value is required for '" ++ option ++ "' but none was supplied"
  | .unexpectedValue option value =>
    "unexpected value '" ++ value ++ "' for '" ++ option ++ "' found; no more were expected"
  | .repeatedOption option        =>
    "the argument '" ++ option ++ "' cannot be used multiple times"
  | .emptyValue option            =>
    "a value is required for '" ++ option ++ "' but none was supplied"
  | .unexpectedOperand word       => "unexpected argument '" ++ word ++ "' found"
  | .noBoolean name value         =>
    "invalid value '" ++ value ++ "' for '" ++ name ++ "': true and false are possible values"
  | .missingCommand               => "a command is required"
  | .unknownCommand name          => "unrecognized subcommand '" ++ name ++ "'"

/-- Why the reading ends before there is a command. -/
inductive Interruption
  | usage (cause : UsageError)
  | help
  | version
deriving DecidableEq, Repr

/-- The result of reading words. -/
abbrev Reading := Except Interruption

/-- End the reading with a fault. -/
def Reading.fail {α : Type} (cause : UsageError) : Reading α := .error (.usage cause)

/-! ### Words -/

/-- The options and the operands read so far. -/
structure Words where
  options : List (OptionRule × String)
  operands : List String
deriving Repr

namespace Words

def empty : Words := ⟨[], []⟩

/-- How often an option was given. -/
def count (ws : Words) (long : String) : Nat :=
  (ws.options.filter fun (r, _) => r.long = long).length

/-- The value given for an option. -/
def value? (ws : Words) (long : String) : Option String :=
  (ws.options.find? fun (r, _) => r.long = long).map Prod.snd

/-- Take note of an option with its value, which is empty if it takes none. -/
def add (ws : Words) (rule : OptionRule) (value : String) : Reading Words :=
  match rule.kind with
  | .help    => .error .help
  | .version => .error .version
  | .counter => .ok { ws with options := ws.options ++ [(rule, value)] }
  | kind     =>
    if 0 < ws.count rule.long then .fail (.repeatedOption ("--" ++ rule.long))
    else if kind = .path && value = "" then .fail (.emptyValue ("--" ++ rule.long))
    else .ok { ws with options := ws.options ++ [(rule, value)] }

/-- Take note of an operand. -/
def addOperand (ws : Words) (word : String) : Words := { ws with operands := ws.operands ++ [word] }

/-- Read a row of short options. The last one may still need a value. -/
def readRow (rules : List OptionRule) (ws : Words) : List Char → Reading (Words × Option OptionRule)
  | []      => .ok (ws, none)
  | c :: cs =>
    match rules.find? fun r => r.short? = some c with
    | none      => .fail (.unknownOption (String.ofList ['-', c]))
    | some rule =>
      if rule.takesValue then
        match cs with
        | []        => .ok (ws, some rule)
        | '=' :: cs => (ws.add rule (String.ofList cs)).map fun ws => (ws, none)
        | cs        => (ws.add rule (String.ofList cs)).map fun ws => (ws, none)
      else (ws.add rule "").bind fun ws => ws.readRow rules cs

/-- Read an option by its long name. It may still need a value. -/
def readLong (rules : List OptionRule) (ws : Words) (body : List Char) :
    Reading (Words × Option OptionRule) :=
  let name := String.ofList (body.takeWhile (· != '='))
  match rules.find? fun r => r.long = name, body.dropWhile (· != '=') with
  | none,      _          => .fail (.unknownOption ("--" ++ name))
  | some rule, _ :: value =>
    if rule.takesValue then
      (ws.add rule (String.ofList value)).map fun ws => (ws, none)
    else .fail (.unexpectedValue ("--" ++ name) (String.ofList value))
  | some rule, []         =>
    if rule.takesValue then .ok (ws, some rule)
    else (ws.add rule "").map fun ws => (ws, none)

/-- The word is an option, or the end of the options. -/
def isOption (word : String) : Bool :=
  match word.toList with
  | '-' :: _ :: _ => true
  | _             => false

/-- Read one option. It may still need a value. -/
def readOption (rules : List OptionRule) (ws : Words) (word : String) :
    Reading (Words × Option OptionRule) :=
  match word.toList with
  | '-' :: '-' :: body => ws.readLong rules body
  | _ :: row           => ws.readRow rules row
  | []                 => .ok (ws, none)

/-- Read words, with as many operands as there is room for. Without a number the first operand ends
the reading, as the end of the options does, and the words from there on are left. -/
def read (rules : List OptionRule) (room? : Option Nat) (ws : Words) :
    List String → Reading (Words × List String)
  | []           => .ok (ws, [])
  | word :: rest =>
    if word = "--" then .ok (ws, word :: rest)
    else if isOption word then
      match ws.readOption rules word with
      | .error e            => .error e
      | .ok (ws, none)      => ws.read rules room? rest
      | .ok (ws, some rule) =>
        match rest with
        | []            => .fail (.missingValue ("--" ++ rule.long))
        | value :: rest =>
          if isOption value then .fail (.missingValue ("--" ++ rule.long))
          else
            match ws.add rule value with
            | .error e => .error e
            | .ok ws   => ws.read rules room? rest
    else
      match room? with
      | none         => .ok (ws, word :: rest)
      | some 0       => .fail (.unexpectedOperand word)
      | some (n + 1) => (ws.addOperand word).read rules (some n) rest

/-- Read all words, with at most so many operands. -/
def readAll (rules : List OptionRule) (room : Nat) (words : List String) : Reading Words := do
  let (ws, left) ← empty.read rules (some room) words
  let ws := (left.drop 1).foldl addOperand ws
  match ws.operands.drop room with
  | []        => return ws
  | word :: _ => .fail (.unexpectedOperand word)

/-! ### Values -/

/-- The value of an option, or else of the variable that stands in for it. -/
def valueOr (ws : Words) (vars : String → Option String) (rule : OptionRule) : Option String :=
  ws.value? rule.long <|> rule.standIn?.bind vars

def path (ws : Words) (vars : String → Option String) (rule : OptionRule) (standard : String) :
    Reading Path :=
  match ws.valueOr vars rule with
  | some "" => .fail (.emptyValue ("--" ++ rule.long))
  | some s  => .ok (Path.ofString s)
  | none    => .ok (Path.ofString standard)

/-- A flag, which its variable gives in words. -/
def flag (ws : Words) (vars : String → Option String) (rule : OptionRule) : Reading Bool :=
  if 0 < ws.count rule.long then .ok true
  else
    match rule.standIn?.bind vars with
    | some "true"  => .ok true
    | some "false" => .ok false
    | some s       => .fail (.noBoolean ("--" ++ rule.long) s)
    | none         => .ok false

end Words

/-! ### Commands -/

namespace OptionRule

def verbose : OptionRule := ⟨"verbose", some 'v', .counter, none⟩

def quiet : OptionRule := ⟨"quiet", some 'q', .flag, none⟩

def help : OptionRule := ⟨"help", some 'h', .help, none⟩

def version : OptionRule := ⟨"version", some 'V', .version, none⟩

/-- The document, or a directory from which on it is looked for. -/
def file : OptionRule := ⟨"file", some 'f', .path, some "STAGECRAFT_PROJECT_DIR"⟩

def strictHostPaths : OptionRule :=
  ⟨"strict-host-paths", none, .flag, some "STAGECRAFT_STRICT_HOST_PATHS"⟩

def singleArtifact : OptionRule :=
  ⟨"single-artifact", none, .flag, some "STAGECRAFT_SINGLE_ARTIFACT"⟩

def dryRun : OptionRule := ⟨"dry-run", none, .flag, none⟩

def format : OptionRule := ⟨"format", none, .text, none⟩

def base : OptionRule := ⟨"base", none, .text, none⟩

def name : OptionRule := ⟨"name", none, .text, none⟩

def template : OptionRule := ⟨"template", none, .text, none⟩

def common : List OptionRule := [verbose, quiet, help]

def leading : List OptionRule := common ++ [version]

def project : List OptionRule := common ++ [file, strictHostPaths]

end OptionRule

namespace Command

def readProject (vars : String → Option String) (ws : Words) : Reading ProjectOptions := do
  return ⟨← ws.path vars .file ".", ← ws.flag vars .strictHostPaths⟩

/-- The form of the result. -/
def readMode (vars : String → Option String) (ws : Words) : Reading OutputMode := do
  return if ← ws.flag vars .singleArtifact then .singleArtifact else .compose

/-- Read the words of a command by its name. -/
def ofWords (vars : String → Option String) (name : String) (words : List String) :
    Reading (Words × Command) :=
  match name with
  | "configure" => do
    let ws ← Words.readAll (OptionRule.project ++ [.singleArtifact, .dryRun]) 0 words
    return (ws, .configure (← readProject vars ws) (← readMode vars ws) (← ws.flag vars .dryRun))
  | "show"      => do
    let ws ← Words.readAll (OptionRule.project ++ [.format]) 0 words
    return (ws, .display (← readProject vars ws) (ws.value? "format" == some "yaml"))
  | "check"     => do
    let ws ← Words.readAll (OptionRule.project ++ [.singleArtifact]) 0 words
    return (ws, .check (← readProject vars ws) (← readMode vars ws))
  | "init"      => do
    let ws ← Words.readAll (OptionRule.common ++ [.base, .name, .template]) 1 words
    let dir := ws.operands.headD "."
    if dir = "" then Reading.fail (.emptyValue "path")
    return (ws, .start (Path.ofString dir)
      ⟨(ws.value? "base").getD "ubuntu:24.04", ws.value? "name",
        ws.value? "template" == some Starter.minimalName⟩)
  | name        => .fail (.unknownCommand name)

def names : List String := ["configure", "show", "check", "init", "help"]

/-- Read the names of the commands that help is asked for. -/
def readHelp (words : List String) : Interruption :=
  match words.find? fun word => !names.contains word with
  | some word => .usage (.unknownCommand word)
  | none      => .help

/-- The verbosity that options ask for; those behind the command win over those in front of it. -/
def verbosity (before behind : Words) : Verbosity where
  quiet := 0 < before.count "quiet" + behind.count "quiet"
  level := if 0 < behind.count "verbose" then behind.count "verbose" else before.count "verbose"

/-- Read a command line. -/
def ofArguments (vars : String → Option String) (words : List String) :
    Reading (Verbosity × Command) := do
  match ← Words.empty.read OptionRule.leading none words with
  | (_, [])                => .fail .missingCommand
  | (_, "help" :: rest)    => .error (readHelp rest)
  | (before, name :: rest) =>
    let (behind, command) ← ofWords vars name rest
    return (verbosity before behind, command)

end Command

end TwoStage
