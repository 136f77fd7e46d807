import StackProfile.Coarsen
import StackProfile.Config
import StackProfile.Outline
import StackProfile.Provider
import StackProfile.Query
import StackProfile.Response
import StackProfile.Tooltip

/-!
# The query engine

An engine answers queries about the profile of a provider. A tree query builds an outline
and publishes it, with the profile it was made from, as the engine's index; row and
tooltip queries read the index. The outline of a finished analysis is kept under its
parameters and served again for equal ones.

A provider may change between two calls. An engine therefore takes a feed, the provider as
it is at each moment of a query, and looks at it at fixed moments.
-/

namespace StackProfile

/-- Why a query has no model. -/
inductive QueryError where
  | cancelled
  | params (e : ParamError)
  | missingParameter (key : String)
  | badPattern (pattern : String)
  | target (wanted : String)
  | metric (e : MetricError)
  deriving DecidableEq, Repr

namespace QueryError

/-- The error as text, with a reason for a pattern that is malformed. -/
def message (reason : String) : QueryError → String
  | cancelled => "task cancelled"
  | params e => e.message
  | missingParameter key => s!"missing parameter `{key}`"
  | badPattern pattern => s!"invalid pattern `{pattern}`: {reason}"
  | target wanted => s!"tooltip needs exactly one {wanted}"
  | metric e => e.message

/-- What a client sees of the error. The reason for a malformed pattern is not shown. -/
def response {μ : Type} : QueryError → Response μ
  | cancelled => .cancelled
  | params _ => .incorrectParameters
  | missingParameter _ => .incorrectParameters
  | badPattern _ => .incorrectParameters
  | target wanted => .failed ((target wanted).message "")
  | metric e => .failed e.message

end QueryError

/-- What a row query asks for: spans around some times that pass the filters, of some entries
or of all. -/
structure RowRequest where
  times : List Int
  filters : Filters := {}
  items : Option (List Int) := none

/-- Reads a row query. Of several faults one in the times comes first, then one in the
filters. -/
def RowRequest.read (q : Query) : Except QueryError RowRequest := do
  let times ← match ← q.times.mapError .params with
    | some ts => pure ts
    | none => throw (.missingParameter Query.timesKey)
  let filters ← match ← q.filters.mapError .params with
    | some patterns => (Filters.compile patterns).mapError .badPattern
    | none => pure {}
  let items ← q.items.mapError .params
  return { times, filters, items }

/-- What one tree query produced. `key` is the query that the response may be served again
for; without one it must not be reused. -/
structure Index (α ε : Type) where
  key : Option Query := none
  response : Response EntryList := .completed {}
  profile : Profile α ε := {}
  outline : Outline ε := ⟨[], []⟩

/-- An engine: its palette, its settings and what the last tree query published. -/
structure Engine (α ε : Type) where
  palette : Palette α
  config : Config
  index : Index α ε := {}

/-- A provider at the moments of a query, counted from 0. -/
abbrev Feed (α ε : Type) := Nat → Provider α ε

namespace Engine

variable {α ε : Type}

/-- An engine that has answered no query. -/
def new [ToString α] (p : Provider α ε) (config : Config) : Engine α ε :=
  { palette := p.palette.getD (Palette.hues config.paletteSize), config }

/-- A response with a model, by the state of the analysis behind it. -/
def respond {μ : Type} (a : Analysis) (model : μ) : Response μ :=
  match a with
  | .running => .running model
  | .completed => .completed model

/-! ## Trees -/

/-- The profile that a tree query is about. A provider that cannot restrict its profile to
a range gives all of it. -/
def source (feed : Feed α ε) (range : Option (Int × Int)) : Profile α ε :=
  match range with
  | none => (feed 1).profile
  | some (start, finish) => ((feed 1).selection start finish).getD (feed 2).profile

variable [ToString α] [ToString ε] [BEq α] [Grouping ε]

/-- The index for a query. The state of the analysis is looked at before its trees, so a
tree that counts as completed is made of complete data. -/
def buildIndex (e : Engine α ε) (feed : Feed α ε) (q : Query) (token : Token) :
    Except QueryError (Index α ε) := do
  let level ← q.level.mapError .params
  let range ← q.range.mapError .params
  let analysis := (feed 0).analysis
  let whole := source feed range
  let profile := match level with
    | some n => whole.coarsen n
    | none => whole
  match Outline.build profile e.config.traceName token with
  | none => throw .cancelled
  | some outline =>
    return {
      key := if analysis = .completed then some q else none
      response := respond analysis ⟨outline.entries⟩
      profile, outline }

/-- The entries of the profile, cut off at a level and restricted to a range if the query
says so. -/
def fetchTree (e : Engine α ε) (feed : Feed α ε) (q : Query) (token : Token) :
    Response EntryList × Engine α ε :=
  if e.index.key.any fun k => k == q then (e.index.response, e)
  else
    match e.buildIndex feed q token with
    | .ok index => (index.response, { e with index })
    | .error err => (err.response, e)

/-! ## Rows -/

omit [ToString ε] [BEq α] [Grouping ε] in
/-- The span of a node: its display text, the style of its palette, and the hash of its
name as identity. -/
def spanOf (e : Engine α ε) (p : Provider α ε) (s : Slot α) : Span :=
  { Span.labelled s.start s.width (p.display s.tree) (e.palette.styleOf s.tree) with
    identity := some (Palette.stableHash s.tree.name).toInt64.toInt }

/-- The depths of an element that are asked for, each with the entry that displays it. -/
structure Wanted (ε : Type) where
  element : ε
  depths : List (Nat × Int)

omit [ToString α] [ToString ε] [BEq α] [Grouping ε] in
/-- One more entry for an element. Elements keep the order in which they come up first, and
of entries for one depth the last one counts. -/
def want [DecidableEq ε] (e : ε) (depth : Nat) (id : Int) : List (Wanted ε) → List (Wanted ε)
  | [] => [⟨e, [(depth, id)]⟩]
  | w :: ws =>
    if w.element = e then
      { w with depths := (depth, id) :: w.depths.filter fun d => d.1 != depth } :: ws
    else w :: want e depth id ws

omit [ToString α] [ToString ε] [BEq α] [Grouping ε] in
/-- The elements that some entries display, each with the depths to show. -/
def wanted [DecidableEq ε] (o : Outline ε) (ids : List Int) : List (Wanted ε) :=
  ids.foldl (fun ws id => match o.shown? id with
    | some (e, depth) => want e depth id ws
    | none => ws) []

/-- The steps for an element. The token is polled once more before its first tree. -/
def planElement [DecidableEq ε] (index : Index α ε) (times : List Int) (w : Wanted ε) :
    List (Step α) :=
  let depths := w.depths.map Prod.fst
  let finish := (w.depths.filterMap fun d => index.outline.finish? d.2).max?.getD 0
  .poll :: Rows.plan times (Rows.deepestOf depths) (index.profile.treesOf w.element) finish

omit [ToString ε] [BEq α] [Grouping ε] in
/-- Carries out the plans of some elements one after the other. The steps of each come out
with it, or `none` if the token stopped one. -/
def walk [DecidableEq ε] (index : Index α ε) (times : List Int) (token : Token)
    (p : Progress) : List (Wanted ε) → Option (List (Wanted ε × List (Step α)))
  | [] => some []
  | w :: ws =>
    let asked (depth : Nat) := w.depths.any fun d => d.1 == depth
    let outcome := Rows.carryOut token asked p (planElement index times w)
    if outcome.finished then
      (walk index times token outcome.progress ws).map ((w, outcome.done) :: ·)
    else none

/-- The entries a row query asks for, each once: all of them if it names none. -/
def requestedIds (index : Index α ε) (items : Option (List Int)) : List Int :=
  match items with
  | some ids => ids.eraseDups
  | none => index.outline.entries.map Entry.id

omit [ToString α] [ToString ε] [BEq α] [Grouping ε] in
/-- The row of an entry among elements that were walked over, empty if it displays none. -/
def rowOf (paint : Rows.Paint α) (walked : List (Wanted ε × List (Step α))) (id : Int) : Row :=
  let spans := walked.findSome? fun (w, steps) =>
    (w.depths.find? fun d => d.2 == id).map fun d => paint.row d.1 steps
  ⟨id, spans.getD []⟩

/-- The rows of a request. The token is polled before the first element. -/
def sheet [DecidableEq ε] (e : Engine α ε) (p : Provider α ε) (r : RowRequest) (token : Token) :
    Except QueryError RowSheet :=
  if token.cancelledAt {} then .error .cancelled
  else
    let ids := requestedIds e.index r.items
    match walk e.index r.times token { polls := 1 } (wanted e.index.outline ids) with
    | none => .error .cancelled
    | some walked => .ok ⟨ids.map (rowOf ⟨e.spanOf p, r.filters⟩ walked)⟩

/-- The rows of a query. -/
def rows [DecidableEq ε] (e : Engine α ε) (p : Provider α ε) (q : Query) (token : Token) :
    Except QueryError RowSheet := do
  e.sheet p (← RowRequest.read q) token

/-- The spans of some entries around some times. -/
def fetchRows [DecidableEq ε] (e : Engine α ε) (feed : Feed α ε) (q : Query) (token : Token) :
    Response RowSheet :=
  match e.rows (feed 0) q token with
  | .ok sheet => respond (feed 1).analysis sheet
  | .error err => err.response

/-! ## Nodes -/

/-- The node that an entry displays at a time. -/
def nodeAt? [DecidableEq ε] (e : Engine α ε) (id time : Int) : Option (CallTree α) :=
  (e.index.outline.shown? id).bind fun (element, depth) =>
    Layout.nodeAt? (e.index.profile.treesOf element) depth time

omit [ToString α] [ToString ε] [BEq α] [Grouping ε] in
/-- The fields for the values of some metrics, which are counted from `i`. -/
def metricFields (p : Provider α ε) (t : CallTree α) (i : Nat) :
    List Metric → Except QueryError (List TooltipField)
  | [] => .ok []
  | m :: ms => do
    let v ← (p.metricValue t i).mapError .metric
    return ⟨m.title, m.format v⟩ :: (← metricFields p t (i + 1) ms)

omit [ToString α] [ToString ε] [BEq α] [Grouping ε] in
/-- The field for the statistics of a metric that has some. -/
def summaryField (p : Provider α ε) (t : CallTree α) (index : MetricIndex) (m : Metric) :
    Except QueryError (List TooltipField) :=
  if m.hasStatistics then do
    match ← (p.summaryOf t index).mapError .metric with
    | some s => return [⟨m.statisticsTitle, s.describe m⟩]
    | none => return []
  else return []

omit [ToString α] [ToString ε] [BEq α] [Grouping ε] in
/-- The fields for the statistics of some metrics, which are counted from `i`. -/
def summaryFields (p : Provider α ε) (t : CallTree α) (i : Nat) :
    List Metric → Except QueryError (List TooltipField)
  | [] => .ok []
  | m :: ms => do
    let here ← summaryField p t (.additional i) m
    return here ++ (← summaryFields p t (i + 1) ms)

omit [ToString α] [ToString ε] [BEq α] [Grouping ε] in
/-- What is known about a node: its weight, the additional metrics in their order, then the
statistics of those that have some. -/
def describe (p : Provider α ε) (t : CallTree α) : Except QueryError Tooltip := do
  let weight := p.weightMetric
  let values ← metricFields p t 0 p.metrics
  let ofWeight ← summaryField p t .weight weight
  let ofMetrics ← summaryFields p t 0 p.metrics
  return ⟨⟨weight.title, weight.format (.integer t.weight)⟩ :: (values ++ ofWeight ++ ofMetrics)⟩

/-- The only member of a list that a query must give. -/
def single (wanted : String) : Option (List Int) → Except QueryError Int
  | some [n] => .ok n
  | _ => .error (.target wanted)

/-- The tooltip of the one node that a query names by entry and time. -/
def tooltip [DecidableEq ε] (e : Engine α ε) (p : Provider α ε) (q : Query) :
    Except QueryError Tooltip := do
  let time ← single "requested time" (← q.times.mapError .params)
  let id ← single "requested item" (← q.items.mapError .params)
  match e.nodeAt? id time with
  | some t => describe p t
  | none => return {}

/-- The metrics of the node that an entry displays at a time. -/
def fetchTooltip [DecidableEq ε] (e : Engine α ε) (feed : Feed α ε) (q : Query) (token : Token) :
    Response Tooltip :=
  if token.cancelledAt {} then .cancelled
  else
    match e.tooltip (feed 0) q with
    | .ok t => .completed t
    | .error err => err.response

/-! ## Styles -/

/-- The style sheet of the palette. -/
def fetchStyles (e : Engine α ε) : Response StyleSheet := .completed e.palette.sheet.get

end Engine

end StackProfile
