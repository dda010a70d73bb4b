import TwoStage.Error

/-!
# Published ports

A port is published as `HOST:CONTAINER`, as the container's port alone, or with an address before
both. Entries of a document are brought into one of these forms.
-/

namespace TwoStage.Port

open Text

/-- The part without the blanks around it, if anything is left. -/
def part? (cs : List Char) : Option (List Char) :=
  if trimBoth cs = [] then none else some (trimBoth cs)

/-- Join a host's port and a container's port, either of which may be missing. -/
def join (host container : Option (List Char)) : Option (List Char) :=
  match container.bind part?, host.bind part? with
  | none,           _         => none
  | some container, none      => some container
  | some container, some host => some (host ++ ':' :: container)

/-- The mapping of a host's port to a container's port. -/
def mapping (host container : Option String) : Option String :=
  (join (host.map String.toList) (container.map String.toList)).map String.ofList

/-- The form of an entry from which the blanks around it are gone. Nothing is published by an entry
of colons alone, and the entry needs a container port behind its last colon. -/
def normalizeTrimmed (entry : List Char) : Except Unit (Option (List Char)) :=
  if stripChar ':' entry = [] then .ok none
  else
    match cutLast? (· == ':') entry with
    | none                   => .ok (some entry)
    | some (host, container) =>
      if trimBoth container = [] then .error ()
      else if !host.contains ':' || stripChar ':' host = [] then
        .ok (join (some (stripChar ':' host)) (some container))
      else .ok (some entry)

/-- The form of an entry at a place of the document. -/
def normalize (path entry : String) : Outcome (Option String) :=
  let entry := trimBoth entry.toList
  match normalizeTrimmed entry with
  | .ok port  => .ok (port.map String.ofList)
  | .error () => .error (.schema path (.noContainerPort (String.ofList entry)))

/-- The forms of entries, the first of which has the given position. -/
def normalizeFrom (path : String) : Nat → List String → Outcome (List String)
  | _, []      => .ok []
  | i, e :: es => do
    let port ← normalize (FieldPath.item path i) e
    let ports ← normalizeFrom path (i + 1) es
    return port.toList ++ ports

def normalizeAll (path : String) (entries : List String) : Outcome (List String) :=
  normalizeFrom path 0 entries

end TwoStage.Port
