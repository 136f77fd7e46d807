/-!
# Names of frames and groups

A `Frame` is one name of a stack: of a function, or of the thread or process the
stack belongs to. Frames are payloads of call trees and elements of a profile alike.
-/

namespace StackProfile

/-- A name taken from a stack. -/
structure Frame where
  name : String
  deriving DecidableEq, Repr, Inhabited

namespace Frame

instance : ToString Frame := ⟨name⟩

instance : Coe String Frame := ⟨mk⟩

instance : LT Frame := ⟨fun a b => a.name < b.name⟩

instance (a b : Frame) : Decidable (a < b) := inferInstanceAs (Decidable (a.name < b.name))

/-- Frames are ordered by the code points of their names. -/
instance : Ord Frame :=
  ⟨fun a b => if a.name < b.name then .lt else if a.name = b.name then .eq else .gt⟩

end Frame

/-- A type of elements that trees are grouped under, with the one element that stands
for all of them. -/
class Grouping (ε : Type) where
  everything : ε

instance : Grouping Frame := ⟨⟨"All"⟩⟩

end StackProfile
