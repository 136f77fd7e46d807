import StackProfile.Saturate
import StackProfile.Style

/-!
# Spans

A row of the flame graph is a list of spans, sorted by start. A span without label and
style is a gap: it keeps the row contiguous where no node is.
-/

namespace StackProfile

/-- An interval of a row. `identity` tells the payload of its node. -/
structure Span where
  start : Int
  duration : Int
  label : Option String := none
  style : Option Style := none
  identity : Option Int := none
  deriving DecidableEq, Repr

namespace Span

/-- The span of a node. A negative duration counts as 0. -/
def labelled (start duration : Int) (label : String) (style : Style) : Span :=
  { start, duration := max duration 0, label := some label, style := some style }

/-- A gap. A negative duration counts as 0. -/
def gap (start duration : Int) : Span := { start, duration := max duration 0 }

def finish (s : Span) : Int := satAdd s.start s.duration

def isGap (s : Span) : Bool := s.label.isNone && s.style.isNone

/-- Whether a time lies in the span. The end does not. -/
def covers (s : Span) (time : Int) : Bool := s.start ≤ time && time < s.finish

end Span

/-- The spans of an entry. -/
structure Row where
  entryId : Int
  spans : List Span
  deriving DecidableEq, Repr

/-- The rows of some entries. -/
structure RowSheet where
  rows : List Row := []
  deriving DecidableEq, Repr

namespace RowSheet

def row? (sheet : RowSheet) (entryId : Int) : Option Row :=
  sheet.rows.find? fun r => r.entryId == entryId

/-- The first span of an entry that covers a time. -/
def spanAt? (sheet : RowSheet) (entryId time : Int) : Option Span :=
  (sheet.row? entryId).bind fun r => r.spans.find? fun s => s.covers time

end RowSheet

end StackProfile
