import StackProfile.Json.Decode
import StackProfile.Text

/-!
# Query parameters

A query is a JSON object, as a client sent it. Each kind of query reads the parameters it
knows, and says what is wrong with one that is not as it should be.
-/

namespace StackProfile

/-- Why a parameter cannot be used. -/
inductive ParamError where
  | invalidType (key expected : String)
  | invalidValue (key reason : String)
  deriving DecidableEq, Repr

namespace ParamError

def message : ParamError → String
  | invalidType key expected => s!"`{key}` must be {expected}"
  | invalidValue key reason => s!"`{key}`: {reason}"

/-- The name of the kind of error. -/
def kind : ParamError → String
  | invalidType _ _ => "InvalidType"
  | invalidValue _ _ => "InvalidValue"

end ParamError

/-- The parameters of a query, sorted by key. -/
structure Query where
  members : List (String × Json) := []

namespace Query

instance : BEq Query := ⟨fun a b => Json.sameMembers a.members b.members⟩

/-- The times that rows are asked for. -/
def timesKey : String := "requested_times"

/-- The entries that are asked for. -/
def itemsKey : String := "requested_items"

/-- Patterns by depth. -/
def filtersKey : String := "regex_map_filters"

/-- The level at which the hierarchy of elements is cut off. -/
def levelKey : String := "group_by"

/-- The two ends of a range of times. -/
def rangeKey : String := "selection_range"

def isEmpty (q : Query) : Bool := q.members.isEmpty

def value? (q : Query) (key : String) : Option Json := q.members.lookup key

/-- The query with another value for a parameter. -/
def set (q : Query) (key : String) (v : Json) : Query := ⟨setKey key v q.members⟩

/-! ## Reading parameters -/

/-- An array of integers. -/
def intList (q : Query) (key : String) : Except ParamError (Option (List Int)) :=
  match q.value? key with
  | none => .ok none
  | some v =>
    match v.asItems?.bind fun items => items.mapM Json.asInt? with
    | some ns => .ok (some ns)
    | none => .error (.invalidType key "an array of integers")

def times (q : Query) : Except ParamError (Option (List Int)) := q.intList timesKey

def items (q : Query) : Except ParamError (Option (List Int)) := q.intList itemsKey

def level (q : Query) : Except ParamError (Option Nat) :=
  match q.value? levelKey with
  | none => .ok none
  | some v =>
    match v.asNat?, v.asInt? with
    | some n, _ => .ok (some n)
    | none, some _ => .error (.invalidValue levelKey "must not be negative")
    | none, none => .error (.invalidType levelKey "an integer")

/-- The ends of the range in ascending order. -/
def range (q : Query) : Except ParamError (Option (Int × Int)) := do
  match ← q.intList rangeKey with
  | none => return none
  | some [a, b] => return some (min a b, max a b)
  | some ns =>
    let count := ns.length
    throw (.invalidValue rangeKey s!"expected 2 timestamps, got {count}")

/-- The patterns under one key: an array of them, or a single one. -/
def patternsOf : Json → Option (List String)
  | .str p => some [p]
  | .arr items => items.mapM Json.asString?
  | _ => none

/-- Patterns by depth, sorted by depth, with some more at one depth. -/
def addPatterns (depth : Int) (ps : List String) :
    List (Int × List String) → List (Int × List String)
  | [] => [(depth, ps)]
  | (d, qs) :: rest =>
    if depth < d then (depth, ps) :: (d, qs) :: rest
    else if depth = d then (d, qs ++ ps) :: rest
    else (d, qs) :: addPatterns depth ps rest

/-- The patterns under some keys, joined where keys name one depth. -/
def readFilters (found : List (Int × List String)) :
    List (String × Json) → Except ParamError (List (Int × List String))
  | [] => .ok found
  | (key, v) :: rest =>
    match Text.readInt? (Text.trim key.toList) with
    | none => .error (.invalidValue filtersKey s!"`{key}` is not a depth")
    | some depth =>
      match patternsOf v with
      | none => .error (.invalidType filtersKey "string patterns")
      | some ps => readFilters (addPatterns depth ps found) rest

/-- Patterns by depth, in ascending order of depths. -/
def filters (q : Query) : Except ParamError (Option (List (Int × List String))) :=
  match q.value? filtersKey with
  | none => .ok none
  | some v =>
    match v.asMembers? with
    | none => .error (.invalidType filtersKey "an object of depth to patterns")
    | some members => (readFilters [] members).map some

/-! ## Writing parameters -/

/-- A list of integers as a value. -/
def ints (ns : List Int) : Json := .arr (ns.map .int)

def withTimes (q : Query) (ts : List Int) : Query := q.set timesKey (ints ts)

def withItems (q : Query) (ids : List Int) : Query := q.set itemsKey (ints ids)

/-- One more pattern for a depth, unless the value there is of another type. -/
def withFilter (q : Query) (depth : Int) (pattern : String) : Query :=
  let members := match q.value? filtersKey with
    | none => some []
    | some v => v.asMembers?
  match members with
  | none => q
  | some ms =>
    let key := toString depth
    let more := match ms.lookup key with
      | none => setKey key (.arr [.str pattern]) ms
      | some (.arr ps) => setKey key (.arr (ps ++ [.str pattern])) ms
      | some _ => ms
    q.set filtersKey (.obj more)

def withLevel (q : Query) (n : Nat) : Query := q.set levelKey (.int n)

def withRange (q : Query) (start finish : Int) : Query := q.set rangeKey (ints [start, finish])

/-! ## As JSON -/

def toJson (q : Query) : Json := .obj q.members

/-- An object of values of any types. -/
def decoder : Json.Decoder Query
  | .obj members cut => do
    match ← Json.Decoder.any Json.Decoder.nestingLimit (.obj members cut) with
    | .obj found => return ⟨found⟩
    | _ => throw .mismatch
  | d => .error d.clash

end Query

end StackProfile
