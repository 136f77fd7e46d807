/-!
# Sets of characters

A set is a list of ranges of code points, ascending, disjoint and not adjacent.
-/

namespace StackProfile.Pattern

/-- A set of code points as inclusive ranges. -/
structure CharSet where
  ranges : List (Nat × Nat)
  deriving DecidableEq, Repr

namespace CharSet

def none : CharSet := ⟨[]⟩

/-- The last code point. -/
def lastCode : Nat := 0x10FFFF

def any : CharSet := ⟨[(0, lastCode)]⟩

def single (c : Char) : CharSet := ⟨[(c.toNat, c.toNat)]⟩

def hasCode (s : CharSet) (n : Nat) : Bool := s.ranges.any fun r => r.1 ≤ n && n ≤ r.2

def has (s : CharSet) (c : Char) : Bool := s.hasCode c.toNat

/-- A range and ranges that start no earlier, joined where they touch. -/
def joinOnto (r : Nat × Nat) : List (Nat × Nat) → List (Nat × Nat)
  | [] => [r]
  | s :: rest =>
    if s.1 ≤ r.2 + 1 then joinOnto (r.1, max r.2 s.2) rest else r :: joinOnto s rest

/-- The set of all code points in some ranges. -/
def ofRanges (ranges : List (Nat × Nat)) : CharSet :=
  match (ranges.filter fun r => r.1 ≤ r.2).mergeSort fun a b => a.1 ≤ b.1 with
  | [] => none
  | r :: rest => ⟨joinOnto r rest⟩

def union (a b : CharSet) : CharSet := ofRanges (a.ranges ++ b.ranges)

/-- The ranges between the given ones, from `start` on. -/
def gaps (start : Nat) : List (Nat × Nat) → List (Nat × Nat)
  | [] => if start ≤ lastCode then [(start, lastCode)] else []
  | r :: rest => (if start < r.1 then [(start, r.1 - 1)] else []) ++ gaps (r.2 + 1) rest

def compl (s : CharSet) : CharSet := ⟨gaps 0 s.ranges⟩

def inter (a b : CharSet) : CharSet := (a.compl.union b.compl).compl

def diff (a b : CharSet) : CharSet := a.inter b.compl

def symmDiff (a b : CharSet) : CharSet := (a.diff b).union (b.diff a)

/-- Whether the set has no code point past ASCII. -/
def isAscii (s : CharSet) : Bool := s.ranges.all fun r => r.2 < 128

end CharSet

end StackProfile.Pattern
