import TwoStage.Error
import TwoStage.Yaml.Texts

/-!
# The two rounds over a document

The config round replaces the markers in every text of a document and then refuses a document that
still has one, for a replaced text is not looked at again. The compose round rewrites what is left
for compose.
-/

namespace TwoStage.Resolution

open Yaml

/-- Name the place of a marker that cannot be read. -/
def markerAt (path : String) {α : Type} (r : Except MarkerError α) : Outcome α :=
  r.mapError (.malformedMarker path)

def substituteAll (vars : String → Option String) (t : Tree) : Outcome Tree :=
  t.mapTexts fun path s => markerAt path (substitute vars s)

def firstConfigMarker? (s : String) : Except MarkerError (Option String) :=
  (segments s).map fun ss =>
    ((markersOf ss).find? fun m => m.round = .config).map fun m => String.ofList m.name

/-- Refuse a text that has a config marker. -/
def refuseLeftover (path s : String) : Outcome Unit := do
  match ← markerAt path (firstConfigMarker? s) with
  | some name => .error (.unresolvedVariable path name)
  | none      => .ok ()

/-- Refuse a tree that has a config marker. -/
def refuseLeftovers (t : Tree) : Outcome Unit :=
  t.textsOf.forM fun (path, s) => refuseLeftover path s

/-- Run the config round over a document. -/
def resolve (vars : String → Option String) (t : Tree) : Outcome Tree := do
  let t ← substituteAll vars t
  refuseLeftovers t
  return t

def rewriteAll (t : Tree) : Outcome Tree :=
  t.mapTexts fun path s => markerAt path (rewrite s)

end TwoStage.Resolution
