import TwoStage.Yaml.Decode

/-!
# Lifecycle hooks

A stage attaches scripts to the moments of an image's life: while it is built, when a container of
it runs for the first time or at all, when a user logs in, and as the entry point.
-/

namespace TwoStage

open Yaml

/-- A moment that scripts are attached to. -/
inductive Hook
  | onBuild
  | onFirstRun
  | onEveryRun
  | onUserLogin
  | onEntry
deriving DecidableEq, Repr

namespace Hook

def all : List Hook := [.onBuild, .onFirstRun, .onEveryRun, .onUserLogin, .onEntry]

/-- The hooks whose scripts are run by a generated wrapper. -/
def wrapped : List Hook := [.onBuild, .onFirstRun, .onEveryRun, .onUserLogin]

def key : Hook → String
  | .onBuild     => "on_build"
  | .onFirstRun  => "on_first_run"
  | .onEveryRun  => "on_every_run"
  | .onUserLogin => "on_user_login"
  | .onEntry     => "on_entry"

/-- The scripts run while the image is built. -/
def isBuildTime : Hook → Bool
  | .onBuild => true
  | _        => false

end Hook

/-- The scripts of a stage, each a path with its arguments behind it. -/
structure Scripts where
  onBuild : List String
  onFirstRun : List String
  onEveryRun : List String
  onUserLogin : List String
  onEntry : List String
deriving DecidableEq, Repr

namespace Scripts

def empty : Scripts := ⟨[], [], [], [], []⟩

def entries (s : Scripts) : Hook → List String
  | .onBuild     => s.onBuild
  | .onFirstRun  => s.onFirstRun
  | .onEveryRun  => s.onEveryRun
  | .onUserLogin => s.onUserLogin
  | .onEntry     => s.onEntry

/-- The scripts with those of one hook replaced. -/
def set (s : Scripts) (hook : Hook) (es : List String) : Scripts :=
  match hook with
  | .onBuild     => { s with onBuild := es }
  | .onFirstRun  => { s with onFirstRun := es }
  | .onEveryRun  => { s with onEveryRun := es }
  | .onUserLogin => { s with onUserLogin := es }
  | .onEntry     => { s with onEntry := es }

def isEmpty (s : Scripts) : Bool := Hook.all.all fun hook => (s.entries hook).isEmpty

/-- The scripts of `s`, then those of `t`, at every hook. -/
def append (s t : Scripts) : Scripts where
  onBuild     := s.onBuild ++ t.onBuild
  onFirstRun  := s.onFirstRun ++ t.onFirstRun
  onEveryRun  := s.onEveryRun ++ t.onEveryRun
  onUserLogin := s.onUserLogin ++ t.onUserLogin
  onEntry     := s.onEntry ++ t.onEntry

def fields : List (Decode.Field Scripts) :=
  Hook.all.map fun hook =>
    Decode.field hook.key (Decode.items Decode.text) fun es s => s.set hook es

def decode : Tree → Decoded Scripts := Decode.record "CustomScripts" true fields [] empty

/-- The scripts as a tree; hooks without any are left out. -/
def toTree (s : Scripts) : Tree :=
  .record (Hook.all.flatMap fun hook =>
    Tree.fieldIf hook.key
      (if (s.entries hook).isEmpty then none else some (.texts (s.entries hook))))

end Scripts

end TwoStage
