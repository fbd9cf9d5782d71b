/-!
# Tables

A table gives a value for each of its keys and keeps the keys in the order in which they first came.
Setting the value of a key that is there changes nothing else; a new key goes to the end.
-/

namespace Seamark

/-- Values by key, in the order in which the keys came. -/
structure Table (β : Type) where
  /-- The keys with their values. -/
  entries : List (String × β) := []
deriving DecidableEq, Repr

namespace Table

variable {β : Type}

/-- The value of a key. -/
def get? (t : Table β) (key : String) : Option β :=
  (t.entries.find? fun entry => entry.1 = key).map (·.2)

/-- Entries with the value of a key set. -/
def setIn (key : String) (value : β) : List (String × β) → List (String × β)
  | [] => [(key, value)]
  | entry :: entries =>
    if entry.1 = key then (key, value) :: entries else entry :: setIn key value entries

/-- The table with the value of a key set: in its place if it is there, else at the end. -/
def set (t : Table β) (key : String) (value : β) : Table β :=
  ⟨setIn key value t.entries⟩

/-- The table without a key. -/
def erase (t : Table β) (key : String) : Table β :=
  ⟨t.entries.filter fun entry => entry.1 ≠ key⟩

/-- The keys in order. -/
def keys (t : Table β) : List String :=
  t.entries.map (·.1)

/-- The table with the entries of another one set in it, one after the other. -/
def update (t other : Table β) : Table β :=
  other.entries.foldl (fun t entry => t.set entry.1 entry.2) t

/-- The table of the entries of a list; a key that comes again keeps its place and takes the later
value. -/
def ofList (entries : List (String × β)) : Table β :=
  update ⟨[]⟩ ⟨entries⟩

end Table

end Seamark
