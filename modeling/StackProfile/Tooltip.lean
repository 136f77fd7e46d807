/-!
# Tooltips
-/

namespace StackProfile

structure TooltipField where
  name : String
  value : String
  deriving DecidableEq, Repr

/-- What is known about a node, in the order it is to be shown. -/
structure Tooltip where
  fields : List TooltipField := []
  deriving DecidableEq, Repr

namespace Tooltip

def push (t : Tooltip) (name value : String) : Tooltip := ⟨t.fields ++ [⟨name, value⟩]⟩

/-- The value of the first field with a name. -/
def value? (t : Tooltip) (name : String) : Option String :=
  (t.fields.find? fun f => f.name == name).map TooltipField.value

def isEmpty (t : Tooltip) : Bool := t.fields.isEmpty

end Tooltip

end StackProfile
