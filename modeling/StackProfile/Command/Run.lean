import StackProfile.Codec
import StackProfile.Command.Invocation
import StackProfile.Comparison
import StackProfile.Engine
import StackProfile.Folded
import StackProfile.Json.Render

/-!
# Running an invocation

The outcome of an invocation, given the contents of files: the response to print, if it got
that far, and what went wrong.
-/

namespace StackProfile

/-- Why an invocation fails. -/
inductive Failure where
  | unreadable (path : String)
  | settings (path : String)
  | profile (path : String) (e : Folded.Error)
  | notBuilt (message : String)
  | failed (message : String)

namespace Failure

def message : Failure → String
  | unreadable path => s!"reading {path}"
  | settings path => s!"parsing config {path}"
  | profile path _ => s!"parsing {path}"
  | notBuilt message => s!"building the tree failed: {message}"
  | failed message => message

/-- What is behind the failure, if it is known. -/
def cause? : Failure → Option String
  | profile _ e => some e.message
  | _ => none

end Failure

/-- The outcome of an invocation. A failed response is printed before it is reported. -/
structure Outcome where
  output : Option Json := none
  failure : Option Failure := none

namespace Outcome

def exitCode (o : Outcome) : Nat := if o.failure.isSome then 1 else 0

/-- The outcome for a response. -/
def ofResponse {μ : Type} (model : μ → Json) (r : Response μ) : Outcome where
  output := some (r.toJson model)
  failure := if r.status = .failed then some (.failed r.message) else none

/-- An invocation that got no response. -/
def ofFailure (f : Failure) : Outcome := { failure := some f }

end Outcome

/-- The contents of files by path. -/
abbrev Files := String → Option ByteArray

namespace Files

def read (files : Files) (path : String) : Except Failure ByteArray :=
  match files path with
  | some bytes => .ok bytes
  | none => .error (.unreadable path)

end Files

namespace Invocation

/-- The settings for an engine. -/
def loadConfig (i : Invocation) (files : Files) : Except Failure Config := do
  let config ← match i.config with
    | none => pure {}
    | some path =>
      let bytes ← files.read path
      (Config.read bytes).mapError fun _ => Failure.settings path
  return match i.traceName with
    | some name => config.withTraceName name
    | none => config

/-- A profile in a file. -/
def loadProfile (i : Invocation) (files : Files) (path : String) :
    Except Failure (Profile Frame Frame) := do
  let bytes ← files.read path
  (Folded.read i.byFirstFrame bytes).mapError (Failure.profile path)

end Invocation

namespace Command

/-- The provider of samples: the weight of a node counts samples, and those that end in the
node itself are a metric. -/
def samples (title : String) (p : Profile Frame Frame) : Provider Frame Frame :=
  let recipe : Recipe Frame Frame := { title, profile := p }
  ((recipe.withWeightMetric { title := "Samples", quantity := .number }).withMetric
    { title := "Self", quantity := .number } fun t => .integer t.ownWeight).provider

/-- The query for a tree that is cut off at a level. -/
def treeQuery (level : Option Nat) : Query :=
  match level with
  | some n => Query.withLevel {} n
  | none => {}

/-- The query for rows. -/
def rowQuery (times items : List Int) (filters : List (Int × String)) : Query :=
  let q := Query.withTimes {} times
  let q := if items.isEmpty then q else q.withItems items
  filters.foldl (fun q f => q.withFilter f.1 f.2) q

/-- So many times spread evenly over a timeline, both ends included. -/
def sampleTimes (finish : Int) (samples : Nat) : List Int :=
  let count : Int := min (max samples 2) maxTime
  let step := max (finish / (count - 1)) 1
  let times := (List.range (finish / step + 1).toNat).map fun (i : Nat) => step * i
  if times.getLast? = some finish then times else times ++ [finish]

/-- An engine that has answered a tree query. -/
def built {α : Type} [ToString α] [BEq α] (p : Provider α Frame) (config : Config) (q : Query) :
    Except Failure (EntryList × Engine α Frame) :=
  let (response, engine) := (Engine.new p config).fetchTree (fun _ => p) q .live
  if response.status = .failed ∨ response.status = .cancelled then
    .error (.notBuilt response.message)
  else .ok (response.model.getD {}, engine)

/-- The end of the timeline. -/
def timelineEnd (l : EntryList) : Int := ((l.ofKind .trace).map Entry.finish).max?.getD 0

/-- The outcome of a command for a profile. -/
def outcome (i : Invocation) (files : Files) (config : Config) (base : Profile Frame Frame) :
    Command → Except Failure Outcome
  | tree level => do
    let p := samples i.profile base
    let (response, _) := (Engine.new p config).fetchTree (fun _ => p) (treeQuery level) .live
    return .ofResponse EntryList.toJson response
  | rows level times items filters => do
    let p := samples i.profile base
    let (_, engine) ← built p config (treeQuery level)
    return .ofResponse RowSheet.toJson
      (engine.fetchRows (fun _ => p) (rowQuery times items filters) .live)
  | tooltip level item time => do
    let p := samples i.profile base
    let (_, engine) ← built p config (treeQuery level)
    return .ofResponse Tooltip.toJson
      (engine.fetchTooltip (fun _ => p) (rowQuery [time] [item] []) .live)
  | styles =>
    return .ofResponse StyleSheet.toJson (Engine.new (samples i.profile base) config).fetchStyles
  | diff path count => do
    let other ← i.loadProfile files path
    let p := Comparison.provider s!"{i.profile} vs {path}" base other
    let (entries, engine) ← built p config {}
    return .ofResponse RowSheet.toJson
      (engine.fetchRows (fun _ => p) (rowQuery (sampleTimes (timelineEnd entries) count) [] [])
        .live)

end Command

/-- The outcome of an invocation. -/
def Invocation.run (i : Invocation) (files : Files) : Outcome :=
  let attempt : Except Failure Outcome := do
    let config ← i.loadConfig files
    let base ← i.loadProfile files i.profile
    i.command.outcome i files config base
  match attempt with
  | .ok outcome => outcome
  | .error failure => .ofFailure failure

end StackProfile
