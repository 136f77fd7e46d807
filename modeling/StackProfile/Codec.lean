import StackProfile.Entry
import StackProfile.Json.Decode
import StackProfile.Metric
import StackProfile.Response
import StackProfile.Span
import StackProfile.Summary
import StackProfile.Tooltip

/-!
# Models as JSON

What goes over the wire: the models of the queries, written as JSON and read back. Parts
that are absent or empty are left out.
-/

namespace StackProfile

open Json (Decoder)

/-- A member for a part that may be absent. -/
def optionalMember {τ : Type} (key : String) (toJson : τ → Json) : Option τ → List (String × Json)
  | none => []
  | some v => [(key, toJson v)]

/-! ## Names -/

namespace EntryKind

def name : EntryKind → String
  | trace => "trace"
  | level => "level"
  | function => "function"
  | kernel => "kernel"

def toJson (k : EntryKind) : Json := .str k.name

def decoder : Decoder EntryKind :=
  .name ([trace, level, function, kernel].map fun k => (k.name, k))

end EntryKind

namespace Status

def name : Status → String
  | running => "RUNNING"
  | completed => "COMPLETED"
  | cancelled => "CANCELLED"
  | failed => "FAILED"

def toJson (s : Status) : Json := .str s.name

def decoder : Decoder Status :=
  .name ([running, completed, cancelled, failed].map fun s => (s.name, s))

end Status

namespace Quantity

def name : Quantity → String
  | number => "Number"
  | nanoseconds => "Nanoseconds"
  | bytes => "Bytes"
  | bytesPerSecond => "BinarySpeed"
  | other => "Other"

def toJson (q : Quantity) : Json := .str q.name

def decoder : Decoder Quantity :=
  .name ([number, nanoseconds, bytes, bytesPerSecond, other].map fun q => (q.name, q))

end Quantity

/-! ## Entries -/

namespace Entry

def toJson (e : Entry) : Json :=
  .obj ([("id", .int e.id), ("parent_id", .int e.parentId), ("name", .str e.name),
    ("start_time", .int e.start), ("end_time", .int e.finish), ("entry_type", e.kind.toJson)] ++
    optionalMember "depth" (fun (d : Nat) => .int d) e.depth)

/-- The keys of the members, in order. -/
def keys : List String :=
  ["id", "parent_id", "name", "start_time", "end_time", "entry_type", "depth"]

structure Slots where
  id : Option Int := none
  parentId : Option Int := none
  name : Option String := none
  start : Option Int := none
  finish : Option Int := none
  kind : Option EntryKind := none
  depth : Option (Option Nat) := none

def decoder : Decoder Entry := fun d => do
  let s ← Decoder.fields keys (fun (s : Slots) key => match key with
    | "id" => Decoder.into s.id .time fun v => { s with id := some v }
    | "parent_id" => Decoder.into s.parentId .time fun v => { s with parentId := some v }
    | "name" => Decoder.into s.name .string fun v => { s with name := some v }
    | "start_time" => Decoder.into s.start .time fun v => { s with start := some v }
    | "end_time" => Decoder.into s.finish .time fun v => { s with finish := some v }
    | "entry_type" => Decoder.into s.kind EntryKind.decoder fun v => { s with kind := some v }
    | "depth" => Decoder.into s.depth (.optional .index) fun v => { s with depth := some v }
    | _ => none) {} d
  return {
    id := ← Decoder.required s.id
    parentId := ← Decoder.required s.parentId
    name := ← Decoder.required s.name
    start := ← Decoder.required s.start
    finish := ← Decoder.required s.finish
    kind := ← Decoder.required s.kind
    depth := s.depth.join }

end Entry

/-- A reader of a record with one member, a list. -/
def listRecord {τ : Type} (key : String) (read : Decoder τ) : Decoder (List τ) := fun d => do
  let slot ← Decoder.fields [key] (fun (slot : Option (List τ)) k =>
    if k == key then Decoder.into slot (.list read) some else none) none d
  Decoder.required slot

namespace EntryList

def toJson (l : EntryList) : Json := .obj [("entries", .arr (l.entries.map Entry.toJson))]

def decoder : Decoder EntryList := fun d => (listRecord "entries" Entry.decoder d).map .mk

end EntryList

/-! ## Styles -/

namespace Color

def toJson (c : Color) : Json :=
  let channel (b : UInt8) : Json := .int b.toNat
  .obj [("r", channel c.red), ("g", channel c.green), ("b", channel c.blue),
    ("a", channel c.alpha)]

/-- The keys of the members, in order. -/
def keys : List String :=
  ["r", "g", "b", "a"]

structure Slots where
  red : Option UInt8 := none
  green : Option UInt8 := none
  blue : Option UInt8 := none
  alpha : Option UInt8 := none

def decoder : Decoder Color := fun d => do
  let s ← Decoder.fields keys (fun (s : Slots) key => match key with
    | "r" => Decoder.into s.red .byte fun v => { s with red := some v }
    | "g" => Decoder.into s.green .byte fun v => { s with green := some v }
    | "b" => Decoder.into s.blue .byte fun v => { s with blue := some v }
    | "a" => Decoder.into s.alpha .byte fun v => { s with alpha := some v }
    | _ => none) {} d
  return ⟨← Decoder.required s.red, ← Decoder.required s.green, ← Decoder.required s.blue,
    ← Decoder.required s.alpha⟩

end Color

namespace StyleValue

def toJson : StyleValue → Json
  | color c => c.toJson

/-- A value whose kind shows in its form alone. All of it is read before its form is
looked at, nested less than `room` deep. -/
def decoder (room : Nat) : Decoder StyleValue := fun d => do
  let _ ← Decoder.any room d
  match Color.decoder d with
  | .ok c => return .color c
  | .error _ => throw .mismatch

end StyleValue

namespace Style

def toJson (s : Style) : Json :=
  .obj (optionalMember "parent_key" Json.str s.parent ++
    (if s.values.isEmpty then []
    else [("values", .obj (s.values.map fun v => (v.1, v.2.toJson)))]))

/-- The keys of the members, in order. -/
def keys : List String :=
  ["parent_key", "values"]

structure Slots where
  parent : Option (Option String) := none
  values : Option (List (String × StyleValue)) := none

/-- A style, with room for so much nesting. -/
def decoder (room : Nat) : Decoder Style := fun d => do
  let s ← Decoder.fields keys (fun (s : Slots) key => match key with
    | "parent_key" => Decoder.into s.parent (.optional .string) fun v => { s with parent := some v }
    | "values" =>
      Decoder.into s.values (.map (StyleValue.decoder (room - 2))) fun v =>
        { s with values := some v }
    | _ => none) {} d
  return { parent := s.parent.join, values := s.values.getD [] }

end Style

namespace StyleSheet

def toJson (sheet : StyleSheet) : Json :=
  .obj [("styles", .obj (sheet.styles.map fun s => (s.1, s.2.toJson)))]

/-- A style sheet, with room for so much nesting. -/
def decoder (room : Nat) : Decoder StyleSheet := fun d => do
  let slot ← Decoder.fields ["styles"] (fun (slot : Option (List (String × Style))) key =>
    match key with
    | "styles" => Decoder.into slot (.map (Style.decoder (room - 2))) some
    | _ => none) none d
  return ⟨← Decoder.required slot⟩

end StyleSheet

/-! ## Rows -/

namespace Span

def toJson (s : Span) : Json :=
  .obj ([("start_time", .int s.start), ("duration", .int s.duration)] ++
    optionalMember "label" Json.str s.label ++ optionalMember "style" Style.toJson s.style ++
    optionalMember "value" Json.int s.identity)

/-- The keys of the members, in order. -/
def keys : List String :=
  ["start_time", "duration", "label", "style", "value"]

structure Slots where
  start : Option Int := none
  duration : Option Int := none
  label : Option (Option String) := none
  style : Option (Option Style) := none
  identity : Option (Option Int) := none

/-- A span, with room for so much nesting. -/
def decoder (room : Nat) : Decoder Span := fun d => do
  let s ← Decoder.fields keys (fun (s : Slots) key => match key with
    | "start_time" => Decoder.into s.start .time fun v => { s with start := some v }
    | "duration" => Decoder.into s.duration .time fun v => { s with duration := some v }
    | "label" => Decoder.into s.label (.optional .string) fun v => { s with label := some v }
    | "style" =>
      Decoder.into s.style (.optional (Style.decoder (room - 1))) fun v =>
        { s with style := some v }
    | "value" => Decoder.into s.identity (.optional .time) fun v => { s with identity := some v }
    | _ => none) {} d
  return {
    start := ← Decoder.required s.start
    duration := ← Decoder.required s.duration
    label := s.label.join
    style := s.style.join
    identity := s.identity.join }

end Span

namespace Row

def toJson (r : Row) : Json :=
  .obj [("entry_id", .int r.entryId), ("states", .arr (r.spans.map Span.toJson))]

/-- The keys of the members, in order. -/
def keys : List String :=
  ["entry_id", "states"]

structure Slots where
  entryId : Option Int := none
  spans : Option (List Span) := none

/-- A row, with room for so much nesting. -/
def decoder (room : Nat) : Decoder Row := fun d => do
  let s ← Decoder.fields keys (fun (s : Slots) key => match key with
    | "entry_id" => Decoder.into s.entryId .time fun v => { s with entryId := some v }
    | "states" =>
      Decoder.into s.spans (.list (Span.decoder (room - 2))) fun v => { s with spans := some v }
    | _ => none) {} d
  return ⟨← Decoder.required s.entryId, ← Decoder.required s.spans⟩

end Row

namespace RowSheet

def toJson (sheet : RowSheet) : Json := .obj [("rows", .arr (sheet.rows.map Row.toJson))]

/-- Rows, with room for so much nesting. -/
def decoder (room : Nat) : Decoder RowSheet := fun d =>
  (listRecord "rows" (Row.decoder (room - 2)) d).map .mk

end RowSheet

/-! ## Tooltips -/

namespace TooltipField

def toJson (f : TooltipField) : Json := .obj [("name", .str f.name), ("value", .str f.value)]

/-- The keys of the members, in order. -/
def keys : List String :=
  ["name", "value"]

structure Slots where
  name : Option String := none
  value : Option String := none

def decoder : Decoder TooltipField := fun d => do
  let s ← Decoder.fields keys (fun (s : Slots) key => match key with
    | "name" => Decoder.into s.name .string fun v => { s with name := some v }
    | "value" => Decoder.into s.value .string fun v => { s with value := some v }
    | _ => none) {} d
  return ⟨← Decoder.required s.name, ← Decoder.required s.value⟩

end TooltipField

namespace Tooltip

def toJson (t : Tooltip) : Json := .obj [("fields", .arr (t.fields.map TooltipField.toJson))]

def decoder : Decoder Tooltip := fun d => (listRecord "fields" TooltipField.decoder d).map .mk

end Tooltip

/-! ## Responses -/

namespace Response

variable {μ : Type}

/-- A response. Without a model the member is `null`. -/
def toJson (model : μ → Json) (r : Response μ) : Json :=
  .obj [("status", r.status.toJson), ("message", .str r.message),
    ("model", (r.model.map model).getD .null)]

/-- The keys of the members, in order. -/
def keys : List String :=
  ["status", "message", "model"]

structure Slots (μ : Type) where
  status : Option Status := none
  message : Option String := none
  model : Option (Option μ) := none

def decoder (model : Decoder μ) : Decoder (Response μ) := fun d => do
  let s ← Decoder.fields keys (fun (s : Slots μ) key => match key with
    | "status" => Decoder.into s.status Status.decoder fun v => { s with status := some v }
    | "message" => Decoder.into s.message .string fun v => { s with message := some v }
    | "model" => Decoder.into s.model (.optional model) fun v => { s with model := some v }
    | _ => none) {} d
  return {
    status := ← Decoder.required s.status
    message := ← Decoder.required s.message
    model := s.model.join }

end Response

/-! ## Metrics -/

namespace MetricValue

/-- A value whose kind shows in its form alone: an integer that fits, any other number, or
a text. -/
def decoder : Decoder MetricValue := fun d => do
  match ← Decoder.any Decoder.nestingLimit d with
  | .int n => return if minTime ≤ n ∧ n ≤ maxTime then .integer n else .float (Binary64.ofInt n)
  | .float x => return .float x
  | .str s => return .text s
  | _ => throw .mismatch

end MetricValue

namespace Summary

def toJson (s : Summary) : Json :=
  .obj [("count", .int s.count), ("min", .int s.least), ("max", .int s.greatest),
    ("total", .int s.total)]

/-- The keys of the members, in order. -/
def keys : List String :=
  ["count", "min", "max", "total"]

structure Slots where
  count : Option Nat := none
  least : Option Int := none
  greatest : Option Int := none
  total : Option Int := none

def decoder : Decoder Summary := fun d => do
  let s ← Decoder.fields keys (fun (s : Slots) key => match key with
    | "count" => Decoder.into s.count .index fun v => { s with count := some v }
    | "min" => Decoder.into s.least .time fun v => { s with least := some v }
    | "max" => Decoder.into s.greatest .time fun v => { s with greatest := some v }
    | "total" => Decoder.into s.total .time fun v => { s with total := some v }
    | _ => none) {} d
  return ⟨← Decoder.required s.count, ← Decoder.required s.least, ← Decoder.required s.greatest,
    ← Decoder.required s.total⟩

end Summary

end StackProfile
