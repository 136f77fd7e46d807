import StackProfile.CallTree

/-!
# Profiles

A profile is a forest of elements (processes, threads and the like), each with the
root trees recorded for it. Elements stand in the order they were added in, and an
element that is already known stays where it is.
-/

namespace StackProfile

/-- An element with its root trees and the elements below it. -/
inductive Branch (α ε : Type) where
  | node (element : ε) (trees : List (CallTree α)) (children : List (Branch α ε))

namespace Branch

variable {α ε : Type}

def element : Branch α ε → ε
  | .node e _ _ => e

def trees : Branch α ε → List (CallTree α)
  | .node _ ts _ => ts

def children : Branch α ε → List (Branch α ε)
  | .node _ _ bs => bs

mutual

/-- The branches of a branch in depth-first order, the branch itself first. -/
def all : Branch α ε → List (Branch α ε)
  | .node e ts bs => .node e ts bs :: allIn bs

/-- The branches of a forest in depth-first order. -/
def allIn : List (Branch α ε) → List (Branch α ε)
  | [] => []
  | b :: bs => all b ++ allIn bs

end

mutual

/-- The parent of the first branch for `e` strictly below a branch. -/
def parentBelow? [DecidableEq ε] (e : ε) : Branch α ε → Option ε
  | .node p _ bs => if bs.any (fun b => b.element = e) then some p else parentIn? e bs

def parentIn? [DecidableEq ε] (e : ε) : List (Branch α ε) → Option ε
  | [] => none
  | b :: bs =>
    match parentBelow? e b with
    | some p => some p
    | none => parentIn? e bs

end

mutual

/-- The branch with `f` applied to the trees and the children of every branch for `e`. -/
def modify [DecidableEq ε] (e : ε) (f : Branch α ε → Branch α ε) : Branch α ε → Branch α ε
  | .node d ts bs =>
    if d = e then f (.node d ts bs) else .node d ts (modifyIn e f bs)

def modifyIn [DecidableEq ε] (e : ε) (f : Branch α ε → Branch α ε) :
    List (Branch α ε) → List (Branch α ε)
  | [] => []
  | b :: bs => modify e f b :: modifyIn e f bs

end

/-- The branch with one more child, without trees. -/
def sprout (child : ε) : Branch α ε → Branch α ε
  | .node e ts bs => .node e ts (bs ++ [.node child [] []])

/-- The branch with one more root tree. -/
def addTree [BEq α] (t : CallTree α) : Branch α ε → Branch α ε
  | .node e ts bs => .node e (CallTree.insert ts t) bs

end Branch

/-- Root trees grouped under a forest of elements. `extraTitles` names the extra
child sets of the trees by index. -/
structure Profile (α ε : Type) where
  roots : List (Branch α ε) := []
  extraTitles : List String := []

namespace Profile

variable {α ε : Type}

instance : Inhabited (Profile α ε) := ⟨{}⟩

/-- All branches, parents before their children. -/
def branches (p : Profile α ε) : List (Branch α ε) := Branch.allIn p.roots

/-- All elements, parents before their children. -/
def elements (p : Profile α ε) : List ε := p.branches.map Branch.element

/-- The elements that have no parent. -/
def rootElements (p : Profile α ε) : List ε := p.roots.map Branch.element

/-- Whether no trees are recorded at all. -/
def isEmpty (p : Profile α ε) : Bool := p.branches.all fun b => b.trees.isEmpty

variable [DecidableEq ε]

/-- The branch of an element, if the element is known. -/
def branch? (p : Profile α ε) (e : ε) : Option (Branch α ε) :=
  p.branches.find? fun b => b.element = e

def contains (p : Profile α ε) (e : ε) : Bool := (p.branch? e).isSome

/-- The elements right below an element. -/
def childrenOf (p : Profile α ε) (e : ε) : List ε :=
  ((p.branch? e).map fun b => b.children.map Branch.element).getD []

def parentOf (p : Profile α ε) (e : ε) : Option ε := Branch.parentIn? e p.roots

/-- The root trees of an element. -/
def treesOf (p : Profile α ε) (e : ε) : List (CallTree α) :=
  ((p.branch? e).map Branch.trees).getD []

/-- An element followed by everything below it, parents before their children. -/
def below (p : Profile α ε) (e : ε) : List ε :=
  ((p.branch? e).map fun b => b.all.map Branch.element).getD [e]

/-! ## Building -/

/-- The profile with the element as a root. Known elements stay where they are. -/
def addRoot (p : Profile α ε) (e : ε) : Profile α ε :=
  if p.contains e then p else { p with roots := p.roots ++ [.node e [] []] }

/-- The profile with the element below `parent`, which becomes a root first if it is
not known. Known elements stay where they are. -/
def addChild (p : Profile α ε) (parent e : ε) : Profile α ε :=
  if p.contains e then p
  else
    let q := p.addRoot parent
    { q with roots := Branch.modifyIn parent (Branch.sprout e) q.roots }

/-- The profile with one more root tree for the element, which becomes a root first if
it is not known. -/
def addTree [BEq α] (p : Profile α ε) (e : ε) (t : CallTree α) : Profile α ε :=
  let q := p.addRoot e
  { q with roots := Branch.modifyIn e (Branch.addTree t) q.roots }

end Profile

end StackProfile
