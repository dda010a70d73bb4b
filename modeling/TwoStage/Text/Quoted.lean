import TwoStage.Text.Shapeless

/-!
# Quoted texts

A text between double quotes, on one line: a quote and a backslash are escaped, four control
characters have a letter, and every other character without a shape of its own is written by its
number.
-/

namespace TwoStage.Text

def hexDigits (n : Nat) : List Char := Nat.toDigits 16 n

/-- How one character stands inside the quotes. -/
def quoteChar (c : Char) : List Char :=
  match c with
  | '\x00' => ['\\', '0']
  | '\t'   => ['\\', 't']
  | '\r'   => ['\\', 'r']
  | '\n'   => ['\\', 'n']
  | '\\'   => ['\\', '\\']
  | '"'    => ['\\', '"']
  | c      =>
    if isShapeless c then ['\\', 'u', '\x7b'] ++ hexDigits c.toNat ++ ['\x7d'] else [c]

def quoted (s : String) : String :=
  String.ofList (['"'] ++ s.toList.flatMap quoteChar ++ ['"'])

end TwoStage.Text
