import StackProfile.Pattern.CharSet

/-!
# Regular expressions

Matching takes derivatives: what is left of an expression once a character was read.
Assertions look at the characters on both sides of a position, so whether an expression
matches the empty text depends on the position.
-/

namespace StackProfile.Pattern

/-- A condition on a position. `word` is the set of characters that make up words. -/
inductive Assertion where
  | textStart
  | textEnd
  | lineStart
  | lineEnd
  | carriedLineStart
  | carriedLineEnd
  | boundary (word : CharSet)
  | notBoundary (word : CharSet)
  | wordStart (word : CharSet)
  | wordEnd (word : CharSet)
  | notAfterWord (word : CharSet)
  | notBeforeWord (word : CharSet)
  deriving DecidableEq, Repr

/-- A position: the characters before and after it, if there are any. -/
structure Place where
  before : Option Char
  after : Option Char

/-- Whether an assertion holds at a position. -/
def Assertion.holds (p : Place) : Assertion → Bool
  | textStart => p.before.isNone
  | textEnd => p.after.isNone
  | lineStart => p.before.isNone || p.before == some '\n'
  | lineEnd => p.after.isNone || p.after == some '\n'
  | carriedLineStart =>
    p.before.isNone || p.before == some '\n' ||
      (p.before == some '\r' && p.after != some '\n')
  | carriedLineEnd =>
    p.after.isNone || p.after == some '\r' || (p.after == some '\n' && p.before != some '\r')
  | boundary w => p.before.any w.has != p.after.any w.has
  | notBoundary w => p.before.any w.has == p.after.any w.has
  | wordStart w => !p.before.any w.has && p.after.any w.has
  | wordEnd w => p.before.any w.has && !p.after.any w.has
  | notAfterWord w => !p.before.any w.has
  | notBeforeWord w => !p.after.any w.has

/-- Regular expressions. `times r low extra` is `low` to `low + extra` copies of `r`. -/
inductive Regex where
  | never
  | empty
  | set (s : CharSet)
  | look (a : Assertion)
  | seq (a b : Regex)
  | alt (a b : Regex)
  | star (r : Regex)
  | times (r : Regex) (low extra : Nat)
  deriving DecidableEq, Repr

namespace Regex

/-- A sequence, simplified where one part matches nothing or only the empty text. -/
def andThen : Regex → Regex → Regex
  | never, _ => never
  | _, never => never
  | empty, b => b
  | a, empty => a
  | a, b => seq a b

/-- Whether an expression is among the alternatives of another. -/
def isAmong (r : Regex) : Regex → Bool
  | alt a b => r == a || isAmong r b
  | s => r == s

/-- A choice with the alternatives in a list to the right, without repeated ones. -/
def orElse : Regex → Regex → Regex
  | never, s => s
  | r, never => r
  | alt a b, s => let rest := orElse b s; if isAmong a rest then rest else alt a rest
  | r, s => if isAmong r s then s else alt r s

/-- Whether the expression matches the empty text at a position. -/
def nullable (p : Place) : Regex → Bool
  | never => false
  | empty => true
  | set _ => false
  | look a => a.holds p
  | seq a b => a.nullable p && b.nullable p
  | alt a b => a.nullable p || b.nullable p
  | star _ => true
  | times r low _ => low == 0 || r.nullable p

/-- What is left of the expression after `c`, which is the character after `p`. A copy
that matches the empty text at `p` may stand for all the copies that are still due. -/
def derive (p : Place) (c : Char) : Regex → Regex
  | never => never
  | empty => never
  | set s => if s.has c then empty else never
  | look _ => never
  | seq a b =>
    let first := (a.derive p c).andThen b
    if a.nullable p then first.orElse (b.derive p c) else first
  | alt a b => (a.derive p c).orElse (b.derive p c)
  | star r => (r.derive p c).andThen (star r)
  | times r low extra =>
    let first := r.derive p c
    match low, extra with
    | 0, 0 => never
    | 0, extra + 1 => first.andThen (times r 0 extra)
    | low + 1, extra =>
      if r.nullable p then first.andThen (times r 0 (low + extra))
      else first.andThen (times r low extra)

/-- Whether the expression matches somewhere in `cs`: from this position on, or as
`current`, what is left of matches that began before. -/
def searchFrom (r : Regex) (before : Option Char) (current : Regex) : List Char → Bool
  | [] => (current.orElse r).nullable ⟨before, none⟩
  | c :: cs =>
    let here : Place := ⟨before, some c⟩
    let active := current.orElse r
    active.nullable here || searchFrom r (some c) (active.derive here c) cs

/-- Whether the expression matches a part of a text. -/
def matchesIn (r : Regex) (text : String) : Bool := searchFrom r none never text.toList

/-- Bytes that an automaton for the expression takes, by a rough estimate: a state per
copy of a character, more for sets of many ranges. -/
def footprint : Regex → Nat
  | never => 0
  | empty => 0
  | set s => if s.isAscii then 32 + 8 * s.ranges.length else 64 * (s.ranges.length + 1)
  | look _ => 32
  | seq a b => a.footprint + b.footprint
  | alt a b => a.footprint + b.footprint + 32
  | star r => r.footprint + 32
  | times r low extra => (r.footprint + 32) * (low + extra)

end Regex

end StackProfile.Pattern
