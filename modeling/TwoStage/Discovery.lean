import TwoStage.Error
import TwoStage.Files.Change

/-!
# Finding the document

The document of a directory is looked for in the directory itself and then in the ones above it,
nearest first. The directory that holds it is the project.
-/

namespace TwoStage.Discovery

def documentName : String := "stagecraft.yaml"

/-- The path from which the search starts, seen from the working directory. -/
def startPath (workingDir start : Path) : Path :=
  if start.absolute then start else workingDir.join start

/-- Where the document of a directory may be, nearest first. -/
def candidates (start : Path) : List Path :=
  start.ancestors.map fun dir => dir.child documentName

/-- The document of a start path: the path itself if it is a file, else the nearest document. -/
def locate (fs : Files) (workingDir start : Path) : Outcome Path :=
  let start := startPath workingDir start
  if fs.hasFile start then .ok start
  else
    match (candidates start).find? fs.hasFile with
    | some path => .ok path
    | none      => .error (.notFoundInTree start)

/-- The directory that holds a document, with its links followed if it is there. -/
def projectDir (fs : Files) (document : Path) : Path :=
  let dir :=
    match document.parent? with
    | some dir => if dir.isEmpty then Path.ofString "." else dir
    | none     => Path.ofString "."
  match fs.canonicalize dir with
  | .ok path => path
  | .error _ => dir

end TwoStage.Discovery
