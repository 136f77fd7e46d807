import StackProfile.Entry
import StackProfile.Layout
import StackProfile.Profile
import StackProfile.Rows

/-!
# Outlines

The entries of a profile: the trace, a level per element and, below the levels of its
sub-elements, a function entry per depth of the element's trees. Ids count from 0 in the
order of the list, so equal profiles have equal outlines.
-/

namespace StackProfile

/-- An entry, with the element and the depth that a function entry displays. -/
structure OutlineItem (ε : Type) where
  entry : Entry
  shows : Option (ε × Nat) := none

/-- The entries of a profile, and what the function entries among them display, by id. -/
structure Outline (ε : Type) where
  entries : List Entry
  functions : List (Int × ε × Nat)

namespace Outline

variable {α ε : Type}

/-- The timeline's end after some trees in layout order, and the end of each depth: where
the last root that reaches it ends. -/
def depthEndsFrom (cursor : Int) (ends : List Int) : List (CallTree α) → Int × List Int
  | [] => (cursor, ends)
  | t :: ts =>
    let cursor := satAdd cursor t.weight
    depthEndsFrom cursor (List.replicate t.height cursor ++ ends.drop t.height) ts

variable [ToString α]

/-- The end of the last root tree. -/
def lastEnd (trees : List (CallTree α)) : Int := (depthEndsFrom 0 [] (Layout.ordered trees)).1

/-- The ends of the depths of some root trees. -/
def depthEnds (trees : List (CallTree α)) : List Int :=
  (depthEndsFrom 0 [] (Layout.ordered trees)).2

mutual

/-- The latest end of the trees of an element and of everything below it. -/
def branchEnd : Branch α ε → Int
  | .node _ ts bs => max (forestEnd bs) (lastEnd ts)

/-- The latest end of some branches, at least 0. -/
def forestEnd : List (Branch α ε) → Int
  | [] => 0
  | b :: bs => max (branchEnd b) (forestEnd bs)

end

/-- The function entries of an element from an id on. -/
def functionItems (e : ε) (parentId : Int) (id depth : Nat) : List Int → List (OutlineItem ε)
  | [] => []
  | finish :: rest =>
    { entry := { id, parentId, name := toString depth, finish, kind := .function,
                 depth := some depth },
      shows := some (e, depth) } :: functionItems e parentId (id + 1) (depth + 1) rest

variable [ToString ε]

mutual

/-- The entries of an element and of everything below it, from an id on. -/
def branchItems (parentId : Int) (id : Nat) : Branch α ε → List (OutlineItem ε)
  | .node e ts bs =>
    let below := forestItems id (id + 1) bs
    { entry := { id, parentId, name := toString e, finish := max (forestEnd bs) (lastEnd ts),
                 kind := .level } } ::
      (below ++ functionItems e id (id + 1 + below.length) 0 (depthEnds ts))

/-- The entries of some elements under one parent, from an id on. -/
def forestItems (parentId : Int) (id : Nat) : List (Branch α ε) → List (OutlineItem ε)
  | [] => []
  | b :: bs =>
    let first := branchItems parentId id b
    first ++ forestItems parentId (id + first.length) bs

end

/-- The entries of a profile with what they display. -/
def items (p : Profile α ε) (traceName : String) : List (OutlineItem ε) :=
  { entry := { id := 0, parentId := Entry.noParent, name := traceName,
               finish := forestEnd p.roots, kind := .trace } } :: forestItems 0 1 p.roots

/-- The outline of a profile. -/
def of (p : Profile α ε) (traceName : String) : Outline ε :=
  let found := items p traceName
  ⟨found.map OutlineItem.entry,
    found.filterMap fun i => i.shows.map fun shown => (i.entry.id, shown)⟩

/-- The outline of a profile, `none` if the token is found cancelled: it is polled before
each element. -/
def build (p : Profile α ε) (traceName : String) (token : Token) : Option (Outline ε) :=
  if (List.range p.branches.length).any fun n => token.cancelledAt { polls := n } then none
  else some (of p traceName)

omit [ToString α] [ToString ε] in
/-- The element and the depth a function entry displays. -/
def shown? (o : Outline ε) (id : Int) : Option (ε × Nat) := o.functions.lookup id

omit [ToString α] [ToString ε] in
/-- The end of an entry. -/
def finish? (o : Outline ε) (id : Int) : Option Int :=
  (o.entries.find? fun e => e.id == id).map Entry.finish

end Outline

end StackProfile
