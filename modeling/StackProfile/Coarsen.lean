import StackProfile.Frame
import StackProfile.Profile

/-!
# Coarser profiles

A profile can be cut off at a level of its hierarchy: the elements of that level take
over the trees of everything below them, merged. At level 0 one element holds all trees.
-/

namespace StackProfile

namespace Branch

variable {α ε : Type} [BEq α]

/-- The root trees of some branches, merged in their order. -/
def gather (bs : List (Branch α ε)) : List (CallTree α) :=
  (bs.flatMap trees).foldl CallTree.insert []

mutual

/-- The branch with `levels` levels kept below it. -/
def cutBelow : Nat → Branch α ε → Branch α ε
  | 0, b => .node b.element (gather b.all) []
  | n + 1, .node e ts bs => .node e (ts.foldl CallTree.insert []) (cutBelowIn n bs)

def cutBelowIn (levels : Nat) : List (Branch α ε) → List (Branch α ε)
  | [] => []
  | b :: bs => cutBelow levels b :: cutBelowIn levels bs

end

end Branch

/-- The profile with the first `level` levels of its hierarchy. Level 0 merges the trees
of all elements into the one element that stands for them. -/
def Profile.coarsen {α ε : Type} [BEq α] [Grouping ε] (p : Profile α ε) : Nat → Profile α ε
  | 0 => { p with roots := [.node Grouping.everything (Branch.gather p.branches) []] }
  | n + 1 => { p with roots := Branch.cutBelowIn n p.roots }

end StackProfile
