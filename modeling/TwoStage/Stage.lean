/-!
# The two stages

A document describes two images: the first is built on a base image, the second on the first.
-/

namespace TwoStage

/-- One of the two images. -/
inductive Stage
  | first
  | second
deriving DecidableEq, Repr

namespace Stage

/-- Both stages, in the order in which they are built. -/
def all : List Stage := [.first, .second]

def key : Stage → String
  | .first  => "stage_1"
  | .second => "stage_2"

/-- What the stage's service, directory and volumes are named by. -/
def label : Stage → String
  | .first  => "stage-1"
  | .second => "stage-2"

def path (s : Stage) (field : String) : String := s.key ++ "." ++ field

end Stage

end TwoStage
