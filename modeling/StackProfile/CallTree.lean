import StackProfile.Saturate

/-!
# Weighted call trees

A node carries a payload, a weight, its children and any number of extra child
sets. Siblings with equal payloads are one node: a tree that is put among siblings
is absorbed by the sibling it equals, and stands last if there is none.

The weight of a node need not cover the weights of its children.
-/

namespace StackProfile

/-- A call tree. `height` is kept with every node: 1 for a leaf, one more than the
highest child otherwise. `extras` holds the extra child sets by index. -/
inductive CallTree (α : Type) where
  | node (payload : α) (weight : Int) (height : Nat) (children : List (CallTree α))
      (extras : List (List (CallTree α)))

namespace CallTree

variable {α β : Type}

def payload : CallTree α → α
  | .node p _ _ _ _ => p

def weight : CallTree α → Int
  | .node _ w _ _ _ => w

def height : CallTree α → Nat
  | .node _ _ h _ _ => h

def children : CallTree α → List (CallTree α)
  | .node _ _ _ cs _ => cs

def extras : CallTree α → List (List (CallTree α))
  | .node _ _ _ _ xs => xs

/-- The payload as text: it orders siblings and labels spans. -/
def name [ToString α] (t : CallTree α) : String := toString t.payload

/-- A node without children. A negative weight counts as 0. -/
def leaf (p : α) (w : Int) : CallTree α := .node p (max w 0) 1 [] []

instance [Inhabited α] : Inhabited (CallTree α) := ⟨leaf default 0⟩

/-- The heavier node. A negative weight counts as 0. -/
def addWeight (t : CallTree α) (w : Int) : CallTree α :=
  .node t.payload (satAdd t.weight (max w 0)) t.height t.children t.extras

/-- What the children leave of the weight, at least 0. -/
def ownWeight (t : CallTree α) : Int :=
  max (t.weight - satSum (t.children.map weight)) 0

/-- The extra child set at an index, empty if there is none. -/
def extraSet (t : CallTree α) (index : Nat) : List (CallTree α) := t.extras.getD index []

/-! ## Merging -/

/-- Puts `t` among siblings: the first one with an equal payload is replaced by what
`join` makes of it, and without one `t` becomes the last. -/
def settle [BEq α] (t : CallTree α) (join : CallTree α → CallTree α) :
    List (CallTree α) → List (CallTree α)
  | [] => [t]
  | s :: rest => if s.payload == t.payload then join s :: rest else s :: settle t join rest

/-- The height of a node of height `h` once it has the children `cs` as well. -/
def heightOver (h : Nat) (cs : List (CallTree α)) : Nat :=
  cs.foldl (fun h c => max h (c.height + 1)) h

mutual

/-- The first tree with the weight, children and extra sets of the second added to
its own. The payload of the second is dropped. -/
def absorb [BEq α] (t : CallTree α) : CallTree α → CallTree α
  | .node _ w _ cs xs =>
    .node t.payload (satAdd t.weight (max w 0)) (heightOver t.height cs)
      (absorbAll t.children cs) (absorbSets t.extras xs)

/-- Siblings with the trees of a second list settled among them one by one. -/
def absorbAll [BEq α] (siblings : List (CallTree α)) : List (CallTree α) → List (CallTree α)
  | [] => siblings
  | c :: cs => absorbAll (settle c (fun s => absorb s c) siblings) cs

/-- Extra sets joined index by index. Sets that are only there to reach an index get
no place at the end. -/
def absorbSets [BEq α] :
    List (List (CallTree α)) → List (List (CallTree α)) → List (List (CallTree α))
  | xs, [] => xs
  | [], y :: ys =>
    match absorbAll [] y, absorbSets [] ys with
    | [], [] => []
    | set, sets => set :: sets
  | x :: xs, y :: ys => absorbAll x y :: absorbSets xs ys

end

/-- Siblings with one more tree among them. -/
def insert [BEq α] (siblings : List (CallTree α)) (t : CallTree α) : List (CallTree α) :=
  settle t (fun s => s.absorb t) siblings

/-- The tree with one more child. -/
def graft [BEq α] (t child : CallTree α) : CallTree α :=
  .node t.payload t.weight (max t.height (child.height + 1)) (insert t.children child) t.extras

/-- The sets with `t` in the set at `index`, padded with empty sets up to there. -/
def insertAt [BEq α] (t : CallTree α) : Nat → List (List (CallTree α)) → List (List (CallTree α))
  | 0, [] => [insert [] t]
  | 0, x :: xs => insert x t :: xs
  | i + 1, [] => [] :: insertAt t i []
  | i + 1, x :: xs => x :: insertAt t i xs

/-- The tree with one more member in the extra set at `index`. -/
def graftExtra [BEq α] (t : CallTree α) (index : Nat) (member : CallTree α) : CallTree α :=
  .node t.payload t.weight t.height t.children (insertAt member index t.extras)

/-- Two trees that cannot be merged: their payloads, as texts, differ. -/
structure Mismatch where
  target : String
  other : String
  deriving DecidableEq, Repr

def Mismatch.message (m : Mismatch) : String :=
  s!"cannot merge `{m.other}` into `{m.target}`: objects differ"

/-- The first tree with the second absorbed, if the payloads are equal. -/
def merge [BEq α] [ToString α] (t other : CallTree α) : Except Mismatch (CallTree α) :=
  if t.payload == other.payload then .ok (t.absorb other) else .error ⟨t.name, other.name⟩

/-! ## Copies and comparison -/

mutual

/-- The tree with `f` applied to every payload, extra sets included. Nodes whose
payloads become equal stay apart. -/
def map (f : α → β) : CallTree α → CallTree β
  | .node p w h cs xs => .node (f p) w h (mapAll f cs) (mapSets f xs)

def mapAll (f : α → β) : List (CallTree α) → List (CallTree β)
  | [] => []
  | t :: ts => map f t :: mapAll f ts

def mapSets (f : α → β) : List (List (CallTree α)) → List (List (CallTree β))
  | [] => []
  | x :: xs => mapAll f x :: mapSets f xs

end

mutual

/-- Equal payloads, weights, heights, children and extra sets, in the same order. -/
def same [BEq α] : CallTree α → CallTree α → Bool
  | .node p w h cs xs, .node p' w' h' cs' xs' =>
    p == p' && w == w' && sameAll cs cs' && h == h' && sameSets xs xs'

def sameAll [BEq α] : List (CallTree α) → List (CallTree α) → Bool
  | [], [] => true
  | t :: ts, t' :: ts' => same t t' && sameAll ts ts'
  | _, _ => false

def sameSets [BEq α] : List (List (CallTree α)) → List (List (CallTree α)) → Bool
  | [], [] => true
  | x :: xs, x' :: xs' => sameAll x x' && sameSets xs xs'
  | _, _ => false

end

instance [BEq α] : BEq (CallTree α) := ⟨same⟩

end CallTree

end StackProfile
