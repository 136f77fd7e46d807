import StackProfile.CallTree

/-!
# Layout

Siblings lie one after the other on a timeline, the heaviest first and equally heavy
ones by name. Children lie inside the slot of their parent. Everything that positions a
node (ends of entries, rows, lookup by time) goes through `slots`, so independent
queries agree on where it is.
-/

namespace StackProfile

/-- A positioned node. `width` is its weight, cut off at the end of its parent. -/
structure Slot (α : Type) where
  tree : CallTree α
  start : Int
  width : Int

namespace Slot

variable {α : Type}

def finish (s : Slot α) : Int := satAdd s.start s.width

/-- Whether a time lies in the slot. The end does not. -/
def covers (s : Slot α) (time : Int) : Bool := s.start ≤ time && time < s.finish

end Slot

namespace Layout

variable {α : Type} [ToString α]

/-- Whether `a` may stand before `b` among siblings. -/
def inOrder (a b : CallTree α) : Bool :=
  b.weight < a.weight || (a.weight == b.weight && a.name ≤ b.name)

/-- Siblings by descending weight, then by name. -/
def ordered (trees : List (CallTree α)) : List (CallTree α) := trees.mergeSort inOrder

/-- The width of a tree of some weight at `cursor`, `none` at or past the limit. -/
def widthAt (limit : Option Int) (cursor weight : Int) : Option Int :=
  match limit with
  | none => some weight
  | some l => if l ≤ cursor then none else some (min weight (l - cursor))

omit [ToString α] in
/-- Slots for trees from `cursor` on. The cursor moves by the full weights. -/
def slotsFrom (limit : Option Int) (cursor : Int) : List (CallTree α) → List (Slot α)
  | [] => []
  | t :: ts =>
    match widthAt limit cursor t.weight with
    | none => []
    | some width => ⟨t, cursor, width⟩ :: slotsFrom limit (satAdd cursor t.weight) ts

/-- The slots of siblings from `start` on. With a limit, widths end there and siblings
that would start at or past it get no slot. -/
def slots (trees : List (CallTree α)) (start : Int) (limit : Option Int) : List (Slot α) :=
  slotsFrom limit start (ordered trees)

/-- The slots of the children of a positioned node. -/
def childSlots (s : Slot α) : List (Slot α) := slots s.tree.children s.start (some s.finish)

/-- The slot that covers `time`, `depth` levels below a row of slots. -/
def locateIn (time : Int) : Nat → List (Slot α) → Option (Slot α)
  | 0, level => level.find? fun s => s.covers time
  | depth + 1, level =>
    (level.find? fun s => s.covers time).bind fun s => locateIn time depth (childSlots s)

/-- The slot that covers `time` at a depth below the roots. -/
def locate (roots : List (CallTree α)) (depth : Nat) (time : Int) : Option (Slot α) :=
  locateIn time depth (slots roots 0 none)

/-- The node at a depth that is displayed at `time`. -/
def nodeAt? (roots : List (CallTree α)) (depth : Nat) (time : Int) : Option (CallTree α) :=
  (locate roots depth time).map Slot.tree

/-- Whether one of the times lies between `start` and `start + duration`, both included. -/
def touches (times : List Int) (start duration : Int) : Bool :=
  times.any fun t => start ≤ t && t ≤ satAdd start duration

end Layout

end StackProfile
