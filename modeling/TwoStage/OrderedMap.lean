/-!
# Maps in order of insertion

A map keeps its keys in the order in which they were first inserted. Inserting under a key that is
there already changes the value and leaves the key in its place.
-/

namespace TwoStage

/-- A finite map in order of insertion. -/
structure OrderedMap (α β : Type) where
  entries : List (α × β)
deriving DecidableEq, Repr

namespace OrderedMap

variable {α β : Type} [DecidableEq α]

def empty : OrderedMap α β := ⟨[]⟩

instance : Inhabited (OrderedMap α β) := ⟨empty⟩

def keys (m : OrderedMap α β) : List α := m.entries.map Prod.fst

def size (m : OrderedMap α β) : Nat := m.entries.length

def isEmpty (m : OrderedMap α β) : Bool := m.entries.isEmpty

def get? (m : OrderedMap α β) (k : α) : Option β := m.entries.lookup k

/-- Put an entry into a list of entries. -/
def insertEntry (k : α) (v : β) : List (α × β) → List (α × β)
  | []             => [(k, v)]
  | (k', v') :: es => if k' = k then (k', v) :: es else (k', v') :: insertEntry k v es

def insert (m : OrderedMap α β) (k : α) (v : β) : OrderedMap α β := ⟨insertEntry k v m.entries⟩

def insertAll (m : OrderedMap α β) (es : List (α × β)) : OrderedMap α β :=
  es.foldl (fun m (k, v) => m.insert k v) m

/-- The map of a list of entries, later ones winning. -/
def ofList (es : List (α × β)) : OrderedMap α β := empty.insertAll es

end OrderedMap

end TwoStage
