import StackProfile.CallTree
import StackProfile.Style

/-!
# Palettes

A palette gives every node a style by reference and has the style sheet that the
references point into.
-/

namespace StackProfile

/-- Styles for nodes, and the sheet they refer to, which is only made when it is wanted. -/
structure Palette (α : Type) where
  styleOf : CallTree α → Style
  sheet : Thunk StyleSheet

namespace Palette

/-- The 64-bit FNV-1a hash of the UTF-8 bytes of a text: the same on every run. -/
def stableHash (text : String) : UInt64 :=
  text.toUTF8.toList.foldl (fun h b => (h ^^^ b.toUInt64) * 0x100000001b3) 0xcbf29ce484222325

/-- The number of colours if nothing else is said. -/
def defaultSize : Nat := 20

/-- The number of colours of a palette that was asked for with some size: at least one. -/
def effectiveSize (size : Nat) : Nat := max size 1

/-- The key of the colour for a text in a palette of some size. -/
def keyFor (size : Nat) (text : String) : String :=
  toString ((stableHash text).toNat % effectiveSize size)

/-- The `i`-th colour of `n`: hues around the circle, every second one darker so that
neighbours can be told apart. -/
def hueColor (n i : Nat) : Color :=
  let hue := 360.0 * Binary64.ofInt i / Binary64.ofInt n
  .ofHsv hue 0.6 (if i % 2 = 0 then 0.95 else 0.8)

/-- The sheet of a palette of some size, sorted by key. -/
def hueSheet (size : Nat) : StyleSheet :=
  let n := effectiveSize size
  let styles := (List.range n).map fun i => (toString i, Style.filled (hueColor n i))
  ⟨styles.mergeSort fun a b => a.1 ≤ b.1⟩

/-- The palette of `size` hues. The colour of a node depends on its name alone. -/
def hues {α : Type} [ToString α] (size : Nat) : Palette α :=
  ⟨fun t => .reference (keyFor size t.name), .mk fun _ => hueSheet size⟩

end Palette

end StackProfile
