import StackProfile.Coarsen
import StackProfile.Provider

/-!
# Comparing profiles

A profile is shown as it is, each node with its relative change from the node at the same
path of a base profile.
-/

namespace StackProfile

/-- An object with how much it changed. Changes compare and display as their objects. -/
structure Change (α : Type) where
  object : α
  difference : Float

namespace Change

variable {α : Type}

instance [BEq α] : BEq (Change α) := ⟨fun a b => a.object == b.object⟩

instance [ToString α] : ToString (Change α) := ⟨fun c => toString c.object⟩

end Change

namespace Comparison

variable {α ε : Type}

/-- The change from `base` to `other` as a part of `base`. From 0 it is 0 if nothing
changed, and NaN otherwise. -/
def relativeDifference (base other : Int) : Float :=
  if base = 0 then (if other = 0 then 0.0 else 0.0 / 0.0)
  else (Binary64.ofInt other - Binary64.ofInt base) / Binary64.ofInt base

/-- The change from a node that need not exist. New nodes have NaN. -/
def differenceFrom (base : Option (CallTree α)) (weight : Int) : Float :=
  match base with
  | none => 0.0 / 0.0
  | some b => relativeDifference b.weight weight

mutual

/-- A tree with the changes of its nodes from a base tree. Extra sets are left out. -/
def annotate [BEq α] (base : Option (CallTree α)) : CallTree α → CallTree (Change α)
  | .node p w _ cs _ =>
    (annotateAll ((base.map CallTree.children).getD []) cs).foldl CallTree.graft
      (CallTree.leaf ⟨p, differenceFrom base w⟩ w)

/-- Trees with the changes of their nodes. The base of a tree is the first one with an
equal payload. -/
def annotateAll [BEq α] (base : List (CallTree α)) :
    List (CallTree α) → List (CallTree (Change α))
  | [] => []
  | t :: ts => annotate (base.find? fun b => b.payload == t.payload) t :: annotateAll base ts

end

/-! ## Styles -/

/-- The number of shades on either side. -/
def heatSteps : Nat := 10

/-- The shade of a finite change: the tenths it amounts to, rounded up, from 1 to 10. -/
def shade (difference : Float) : Nat :=
  match Binary64.ratio? (difference.abs * 10.0) with
  | some r => min (max (Binary64.roundUp r.num r.den) 1) heatSteps
  | none => heatSteps

/-- The key of the style for a change: `equal`, or `less` or `more` with a shade. New nodes
have the last shade of `more`. -/
def heatKey (difference : Float) : String :=
  if difference.isNaN then s!"more{heatSteps}"
  else if difference == 0.0 then "equal"
  else if difference < 0.0 then s!"less{shade difference}"
  else s!"more{shade difference}"

/-- White for no change, greens for less and reds for more. -/
def heatSheet : StyleSheet :=
  let side (name : String) (hue : Float) :=
    (List.range heatSteps).map fun i =>
      let saturation := Binary64.ofInt (i + 1 : Nat) / 10.0
      (name ++ toString (i + 1), Style.filled (.ofHsv hue saturation 1.0))
  let styles := ("equal", Style.filled .white) :: (side "less" 120.0 ++ side "more" 0.0)
  ⟨styles.mergeSort fun a b => a.1 ≤ b.1⟩

/-- The palette of changes. -/
def palette : Palette (Change α) :=
  ⟨fun t => .reference (heatKey t.payload.difference), .mk fun _ => heatSheet⟩

/-! ## The provider -/

/-- The element that holds all compared trees. -/
def element : Frame := ⟨"diff"⟩

/-- A change as a signed percentage. -/
def formatDifference (v : MetricValue) : String :=
  match v.toFloat? with
  | some d => if d.isNaN then "new" else Binary64.toFixedSigned 1 (d * 100.0) ++ "%"
  | none => v.display

def differenceMetric : Metric :=
  { title := "Difference", quantity := .other, formatter := some formatDifference }

/-- The trees of `other`, merged over all its elements, with their changes from those of
`base`. -/
def profile [BEq α] [Grouping ε] [DecidableEq ε] (base other : Profile α ε) :
    Profile (Change α) Frame :=
  let trees (p : Profile α ε) := (p.coarsen 0).treesOf Grouping.everything
  (annotateAll (trees base) (trees other)).foldl (fun p t => p.addTree element t)
    (Profile.addRoot {} element)

/-- A provider of the differences between two profiles. -/
def provider [BEq α] [ToString α] [Grouping ε] [DecidableEq ε] (title : String)
    (base other : Profile α ε) : Provider (Change α) Frame :=
  { Provider.plain title (profile base other) [differenceMetric] with
    metricValue := fun t index =>
      if index = 0 then .ok (.float t.payload.difference)
      else Provider.noValue [differenceMetric] t index
    palette := some palette }

end Comparison

end StackProfile
