/-!
# Colours on a terminal

Parts of a report are painted, if the terminal can show colours, by a sequence of control characters
before the part and one behind it.
-/

namespace TwoStage

/-- How a part of a report is painted. -/
inductive Paint
  | bold
  | dimmed
  | green
  | yellow
  | cyan
deriving DecidableEq, Repr

namespace Paint

def code : Paint → String
  | .bold   => "1"
  | .dimmed => "2"
  | .green  => "32"
  | .yellow => "33"
  | .cyan   => "36"

def apply (colours : Bool) (paint : Paint) (s : String) : String :=
  if colours then "\x1b[" ++ paint.code ++ "m" ++ s ++ "\x1b[0m" else s

/-- Colours are shown. A variable that forces them wins over one that forbids them, and that one
over what the output is. -/
def isShown (vars : String → Option String) (terminal : Bool) : Bool :=
  match vars "CLICOLOR_FORCE", vars "NO_COLOR" with
  | some "0", some _ => false
  | some "0", none   => wanted
  | some _,   _      => true
  | none,     some _ => false
  | none,     none   => wanted
where
  /-- Colours are wanted where they can be shown. -/
  wanted : Bool := terminal && vars "CLICOLOR" != some "0"

end Paint

end TwoStage
