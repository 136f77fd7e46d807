import StackProfile.Proofs.AlikeSession
import StackProfile.Proofs.AnnotatedTree
import StackProfile.Proofs.GrownTree

/-!
# Compared profiles

The provider of a comparison against an engine over `other` at level 0: node for node with
differences, and equal drawings up to `Answer.unadorned`.
-/

namespace StackProfile

open CallTree (nodesAt tallyAt mapAll bareAll Apart)

/-! ## Compared calls -/

namespace Comparison

variable {α ε : Type} [BEq α] [ToString α] [ToString ε] [Grouping ε] [DecidableEq ε]
  {base other : Profile α ε}

/-! ## The profile of a comparison -/

section Drawing

variable {title : String} {r : Recipe α ε} {config : Config}

end Drawing

end Comparison

end StackProfile
