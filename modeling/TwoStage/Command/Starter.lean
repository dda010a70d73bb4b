import TwoStage.Discovery
import TwoStage.Marker
import TwoStage.Text.Quoted

/-!
# Documents to start from

A new document names a base image and, if asked, the project. The standard one shows in comments
what else a document can say; the minimal one has nothing else.
-/

namespace TwoStage

open Text

/-- What a new document says. -/
structure Starter where
  base : String
  name? : Option String
  minimal : Bool
deriving DecidableEq, Repr

namespace Starter

/-- The name of the form without comments. -/
def minimalName : String := "minimal"

/-- A text as a scalar in double quotes. -/
def scalar (s : String) : String := quoted s

/-- The section that names the project, in comments if there is no name. -/
def projectLines (s : Starter) : List String :=
  match s.name? with
  | some name => ["project:", "  name: " ++ scalar name]
  | none      => ["# project:", "#   name: my-project"]

def imageLines (s : Starter) : List String :=
  ["stage_1:", "  image:", "    base: " ++ scalar s.base]

/-- The lines of the version and the project, and the blank line behind them. -/
def headLines (s : Starter) : List String := ["api: stagecraft/v0"] ++ s.projectLines ++ [""]

def minimalLines (s : Starter) : List String := s.headLines ++ s.imageLines

/-- What a standard document says about markers. -/
def markerLines : List String :=
  [ "# stagecraft two-stage image configuration",
    "#",
    "# " ++ Round.wrap .config "NAME" ++ " and " ++ Round.wrap .config "NAME:-default" ++
      " are replaced from the environment",
    "# when 'stagecraft configure' runs. " ++ Round.wrap .compose "NAME" ++ " and " ++
      Round.wrap .compose "NAME:-default",
    "# are handed to compose and replaced when the compose file is used.",
    "" ]

/-- What else the first stage can have. -/
def firstStageLines : List String :=
  [ "  # ssh:",
    "  #   host_port: 2222",
    "  #   users:",
    "  #     me:",
    "  #       password: \"" ++ Round.wrap .compose "SSH_PASSWORD" ++ "\"",
    "  #       pubkey_file: \"~\"",
    "  # apt:",
    "  #   repo_source: tuna",
    "  # environment:",
    "  #   - LANG=C.UTF-8",
    "  # custom:",
    "  #   on_build:",
    "  #     - stage-1/custom/install.sh",
    "" ]

/-- A second stage, and what it can have. -/
def secondStageLines : List String :=
  [ "# Runtime image, built on top of stage_1",
    "stage_2:",
    "  # ports:",
    "  #   - \"" ++ Round.wrap .compose "WEB_PORT:-8080" ++ ":80\"",
    "  # storage:",
    "  #   data: \x7btype: auto-volume\x7d",
    "  # mount:",
    "  #   src: \x7btype: host, host_path: ./src, dst_path: /src\x7d",
    "  # custom:",
    "  #   on_entry:",
    "  #     - stage-2/custom/entry.sh",
    "  environment: []" ]

def standardLines (s : Starter) : List String :=
  markerLines ++ s.headLines ++ ["# Base image, holds the slow-changing toolchain"] ++
    s.imageLines ++ firstStageLines ++ secondStageLines

def document (s : Starter) : String :=
  let lines := if s.minimal then s.minimalLines else s.standardLines
  String.join (lines.map fun line => line ++ "\n")

end Starter

end TwoStage
