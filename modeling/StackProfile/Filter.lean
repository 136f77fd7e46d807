import StackProfile.Pattern.Read
import StackProfile.Span

/-!
# Filters

Patterns per depth decide which spans of a row are kept. A span of a node passes when
every pattern for its depth matches its label or its weight. Gaps always pass.
-/

namespace StackProfile

/-- Predicates on texts by depth. -/
structure Filters where
  byDepth : List (Int × List (String → Bool)) := []

namespace Filters

/-- The key of the patterns that apply to every depth. -/
def everyDepth : Int := -1

/-- The predicates of patterns, or the first pattern that is malformed. -/
def compileAll : List String → Except String (List (String → Bool))
  | [] => .ok []
  | p :: ps =>
    match Pattern.compile? p with
    | none => .error p
    | some accepts => (compileAll ps).map (accepts :: ·)

/-- The filters of patterns by depth, or the first pattern that is malformed. -/
def compile : List (Int × List String) → Except String Filters
  | [] => .ok {}
  | (depth, ps) :: rest =>
    match compileAll ps with
    | .error p => .error p
    | .ok tests => (compile rest).map fun f => ⟨(depth, tests) :: f.byDepth⟩

def isEmpty (f : Filters) : Bool := f.byDepth.all fun d => d.2.isEmpty

/-- The predicates that apply to a depth. -/
def testsAt (f : Filters) (depth : Nat) : List (String → Bool) :=
  let keyed (key : Int) := (f.byDepth.lookup key).getD []
  keyed everyDepth ++ keyed (min depth maxTime)

/-- Whether a span at a depth, of a node of some weight, is kept. -/
def accepts (f : Filters) (depth : Nat) (s : Span) (weight : Int) : Bool :=
  s.isGap || (f.testsAt depth).all fun test => test (s.label.getD "") || test (toString weight)

end Filters

end StackProfile
