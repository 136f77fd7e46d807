import StackProfile.Filter
import StackProfile.Layout

/-!
# Rows

The rows of an element are built in one walk over its trees. What the walk will do is
known beforehand: `plan` lists its steps, which depend on the trees, the times and the
deepest row that is asked for. Carrying out a plan polls a cancellation token and stops
where the token says so. The row of a depth is read off the steps that were carried out,
so it does not depend on the rows of other depths.
-/

namespace StackProfile

/-- How far a query has come: how often it has polled its token and how many spans of
nodes it has made. -/
structure Progress where
  polls : Nat := 0
  spans : Nat := 0
  deriving DecidableEq, Repr

/-- A cancellation token, as the moments of a query at which it counts as cancelled. -/
structure Token where
  cancelledAt : Progress → Bool

namespace Token

/-- A token that is never cancelled. -/
def live : Token := ⟨fun _ => false⟩

/-- A token that was cancelled beforehand. -/
def cancelled : Token := ⟨fun _ => true⟩

/-- A token that is cancelled while the `n`-th span is made. -/
def afterSpans (n : Nat) : Token := ⟨fun p => max n 1 ≤ p.spans⟩

end Token

/-- A step of a walk: a look at the token, a node at its depth, or a gap at the depths
below `above` (all depths if there is none) down to `through`. -/
inductive Step (α : Type) where
  | poll
  | node (depth : Nat) (slot : Slot α)
  | gap (above : Option Nat) (through : Nat) (start duration : Int)

namespace Rows

variable {α : Type} [ToString α]

/-- The end of the last of some slots that follow each other from `start` on. -/
def endOf (start : Int) (slots : List (Slot α)) : Int :=
  (slots.getLast?.map Slot.finish).getD start

/-- The steps for a node and what is below it, down to the depth `limit`, which is at most
`levels` below. A node reaches as deep as it is high, and what it leaves uncovered, below
its reach and beside its children, is a gap. Nodes that touch none of the times are left
out with everything below them. -/
def planNode (times : List Int) : Nat → Nat → Nat → Slot α → List (Step α)
  | 0, depth, _, s => [.poll, .node depth s]
  | levels + 1, depth, limit, s =>
    if limit ≤ depth then [.poll, .node depth s]
    else
      let reach := depth + s.tree.height - 1
      let children := Layout.childSlots s
      let used := endOf s.start children
      let unused := s.finish - used
      .poll :: .node depth s :: .gap (some reach) limit s.start s.width ::
        (children.flatMap fun c =>
          if Layout.touches times c.start c.width then
            planNode times levels (depth + 1) (min limit reach) c
          else []) ++
        if 0 < unused && Layout.touches times used unused then
          [.gap (some depth) (min limit reach) used unused]
        else []

/-- The steps for the trees of an element, down to the deepest row. The rows are padded
up to `elementEnd`. -/
def plan (times : List Int) (deepest : Nat) (roots : List (CallTree α)) (elementEnd : Int) :
    List (Step α) :=
  let level := Layout.slots roots 0 none
  let cursor := endOf 0 level
  (level.flatMap fun s =>
    if Layout.touches times s.start s.width then planNode times deepest 0 deepest s else []) ++
  if cursor < elementEnd && Layout.touches times cursor (elementEnd - cursor) then
    [.gap none deepest cursor (elementEnd - cursor)]
  else []

/-- The steps that were carried out, how far the query has come with them, and whether the
token let all of them happen. -/
structure Outcome (α : Type) where
  done : List (Step α)
  progress : Progress
  finished : Bool

omit [ToString α] in
/-- Carries out steps until the token is found cancelled. A node counts as a span if its
depth is asked for. -/
def carryOut (token : Token) (wanted : Nat → Bool) (p : Progress) : List (Step α) → Outcome α
  | [] => ⟨[], p, true⟩
  | .poll :: rest =>
    if token.cancelledAt p then ⟨[], p, false⟩
    else
      let later := carryOut token wanted { p with polls := p.polls + 1 } rest
      { later with done := .poll :: later.done }
  | .node depth s :: rest =>
    let later := carryOut token wanted
      (if wanted depth then { p with spans := p.spans + 1 } else p) rest
    { later with done := .node depth s :: later.done }
  | .gap above through start duration :: rest =>
    let later := carryOut token wanted p rest
    { later with done := .gap above through start duration :: later.done }

/-- How the spans of nodes are made and which of them are kept. -/
structure Paint (α : Type) where
  span : Slot α → Span
  filters : Filters := {}

omit [ToString α] in
/-- What a step puts into the row of a depth. -/
def Paint.stepSpan? (paint : Paint α) (depth : Nat) : Step α → Option Span
  | .poll => none
  | .node d s =>
    if d = depth && paint.filters.accepts d (paint.span s) s.tree.weight then
      some (paint.span s)
    else none
  | .gap above through start duration =>
    let below := match above with
      | none => true
      | some a => a < depth
    if 0 < duration && below && depth ≤ through then some (.gap start duration) else none

omit [ToString α] in
/-- The row of a depth after some steps. -/
def Paint.row (paint : Paint α) (depth : Nat) (steps : List (Step α)) : List Span :=
  steps.filterMap (paint.stepSpan? depth)

/-- The greatest of the depths that are asked for, 0 if there are none. -/
def deepestOf (depths : List Nat) : Nat := depths.foldl max 0

end Rows

/-- A walk that can be repeated: the rows of the depths collect the spans of all runs, up
to where the token stopped one. -/
structure RowWalk (α : Type) where
  depths : List Nat
  times : List Int
  token : Token
  paint : Rows.Paint α
  done : List (Step α) := []
  progress : Progress := {}

namespace RowWalk

variable {α : Type} [ToString α]

/-- Walks over the trees of an element. The result is the end of the last root, `none` if
the token stopped the walk. -/
def run (w : RowWalk α) (roots : List (CallTree α)) (elementEnd : Int) :
    RowWalk α × Option Int :=
  let steps := Rows.plan w.times (Rows.deepestOf w.depths) roots elementEnd
  let outcome := Rows.carryOut w.token w.depths.contains w.progress steps
  ({ w with done := w.done ++ outcome.done, progress := outcome.progress },
    if outcome.finished then some (Rows.endOf 0 (Layout.slots roots 0 none)) else none)

omit [ToString α] in
/-- The rows by depth, in ascending order, each depth once. -/
def rows (w : RowWalk α) : List (Nat × List Span) :=
  ((w.depths.mergeSort).eraseDups).map fun d => (d, w.paint.row d w.done)

end RowWalk

end StackProfile
