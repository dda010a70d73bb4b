/-!
# Words of a shell command

A text is written so that a POSIX shell reads it back as one word. A text without a character that
means something to the shell stands as it is; any other goes between single quotes, where a single
quote closes them, stands escaped, and opens them again.
-/

namespace TwoStage.Shell

/-- The characters that a bare word may not hold. -/
def specials : List Char :=
  ['|', '&', ';', '<', '>', '(', ')', '$', '\x60', '\\', '"', ' ', '\t', '*', '?', '[', '#', '~',
    '=', '%', '\n', '\'']

/-- The characters stand for themselves without quotes. -/
def isBare (cs : List Char) : Bool := !cs.isEmpty && cs.all fun c => !specials.contains c

/-- How a character stands between single quotes. -/
def quoteChar (c : Char) : List Char := if c = '\'' then ['\'', '\\', '\'', '\''] else [c]

def wordChars (cs : List Char) : List Char :=
  if isBare cs then cs else ['\''] ++ cs.flatMap quoteChar ++ ['\'']

def word (s : String) : String := String.ofList (wordChars s.toList)

def command (words : List String) : String := " ".intercalate (words.map word)

end TwoStage.Shell
