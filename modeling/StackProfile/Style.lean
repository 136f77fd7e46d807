import StackProfile.Color

/-!
# Styles

A style fills in properties by itself or refers to a named style of the style sheet.
Spans only refer, so a row of many spans shares a handful of styles.
-/

namespace StackProfile

/-- The value of a style property. -/
inductive StyleValue where
  | color (c : Color)
  deriving DecidableEq, Repr

/-- A style. `values` is sorted by property name, one value each. -/
structure Style where
  parent : Option String := none
  values : List (String × StyleValue) := []
  deriving DecidableEq, Repr

namespace Style

/-- The property that fills a span. -/
def background : String := "background-color"

/-- A style that only refers to a named one. -/
def reference (key : String) : Style := { parent := some key }

/-- A style that only has a fill colour. -/
def filled (c : Color) : Style := { values := [(background, .color c)] }

def isReference (s : Style) : Bool := s.parent.isSome && s.values.isEmpty

end Style

/-- Named styles, sorted by name, one style each. -/
structure StyleSheet where
  styles : List (String × Style) := []
  deriving DecidableEq, Repr

namespace StyleSheet

def style? (sheet : StyleSheet) (key : String) : Option Style := sheet.styles.lookup key

/-- The style a style refers to, or the style itself if it refers to none of the sheet. -/
def resolve (sheet : StyleSheet) (s : Style) : Style :=
  (s.parent.bind sheet.style?).getD s

end StyleSheet

end StackProfile
