/-!
# Entries

The rows of a flame graph are listed as a tree of entries, parents before their children:
the trace, below it the elements, below each element one function entry per depth.
-/

namespace StackProfile

inductive EntryKind where
  | trace
  | level
  | function
  | kernel
  deriving DecidableEq, Repr

/-- A row of the flame graph or a heading over some. Only function entries have a depth. -/
structure Entry where
  id : Int
  parentId : Int
  name : String
  start : Int := 0
  finish : Int := 0
  kind : EntryKind
  depth : Option Nat := none
  deriving DecidableEq, Repr

/-- The parent of an entry that has none. -/
def Entry.noParent : Int := -1

def Entry.isRoot (e : Entry) : Bool := e.parentId == noParent

/-- A list of entries, as sent to a client. -/
structure EntryList where
  entries : List Entry := []
  deriving DecidableEq, Repr

namespace EntryList

def entry? (l : EntryList) (id : Int) : Option Entry := l.entries.find? fun e => e.id == id

def childrenOf (l : EntryList) (id : Int) : List Entry :=
  l.entries.filter fun e => e.parentId == id

def ofKind (l : EntryList) (kind : EntryKind) : List Entry :=
  l.entries.filter fun e => e.kind == kind

end EntryList

end StackProfile
