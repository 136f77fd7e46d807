import Mathlib
import StackProfile.Proofs.OutlineSteps
import StackProfile.Proofs.Sheet

/-!
# Cancellation

The polls of a query do not depend on its token, as long as none finds it cancelled. `AllOrNothing`
is proved of outlines, walks, row sheets and tree queries with the list of their polls.
-/

namespace StackProfile

variable {α ε β γ : Type}

/-! ## All or nothing -/

/-- `call` stops if its token is found cancelled at one of `moments`. Otherwise it is
`call .live`. -/
structure AllOrNothing (call : Token → β) (moments : List Progress) (stopped : β → Prop) :
    Prop where
  live : ¬ stopped (call .live)
  stops : ∀ token, token.stops moments → stopped (call token)
  goes_on : ∀ token, ¬ token.stops moments → call token = call .live

namespace AllOrNothing

variable {call : Token → β} {moments : List Progress} {stopped : β → Prop}

theorem of_ignored (hcall : ∀ token, call token = call .live) (hlive : ¬ stopped (call .live)) :
    AllOrNothing call [] stopped :=
  ⟨hlive, nofun, fun token _ => hcall token⟩

theorem map {stopped' : γ → Prop} (h : AllOrNothing call moments stopped) {f : β → γ}
    (hlive : ¬ stopped' (f (call .live))) (hstop : ∀ b, stopped b → stopped' (f b)) :
    AllOrNothing (fun token => f (call token)) moments stopped' where
  live := hlive
  stops token ht := hstop _ (h.stops token ht)
  goes_on token ht := congrArg f (h.goes_on token ht)

end AllOrNothing

/-- `Outline.build` is all or nothing. -/
theorem Outline.allOrNothing_build [ToString α] [ToString ε] (p : Profile α ε)
    (traceName : String) :
    AllOrNothing (Outline.build p traceName) (Outline.moments p) (fun o => o = none) where
  live := by
    rw [build_eq, Token.stops_live]
    exact nofun
  stops token ht := by rw [build_eq, if_pos ht]
  goes_on token ht := by
    rw [build_eq, build_eq, if_neg ht, Token.stops_live]
    rfl

/-! ## Walks -/

namespace Rows

def moments (wanted : Nat → Bool) (p : Progress) : List (Step α) → List Progress
  | [] => []
  | .poll :: rest => p :: moments wanted { p with polls := p.polls + 1 } rest
  | .node depth _ :: rest =>
    moments wanted (if wanted depth then { p with spans := p.spans + 1 } else p) rest
  | .gap _ _ _ _ :: rest => moments wanted p rest

variable {token : Token} {wanted : Nat → Bool} {p : Progress} {steps : List (Step α)}

theorem finished_carryOut (token : Token) (wanted : Nat → Bool) (p : Progress)
    (steps : List (Step α)) :
    (carryOut token wanted p steps).finished = !token.stops (moments wanted p steps) := by
  induction steps generalizing p with
  | nil => rfl
  | cons step rest ih =>
    cases step with
    | poll =>
      simp only [carryOut, moments, Token.stops_cons]
      by_cases hp : token.cancelledAt p
      · simp [hp]
      · simp [hp, ih]
    | node depth s => exact ih _
    | gap above through start duration => exact ih _

theorem carryOut_of_not_stops (h : ¬ token.stops (moments wanted p steps)) :
    carryOut token wanted p steps = carryOut .live wanted p steps := by
  induction steps generalizing p with
  | nil => rfl
  | cons step rest ih =>
    cases step with
    | poll =>
      simp only [moments, Token.stops_cons, Bool.or_eq_true, not_or] at h
      simp only [carryOut, if_neg h.1, ih h.2]
      rfl
    | node depth s => simp only [carryOut, ih h]
    | gap above through start duration => simp only [carryOut, ih h]

end Rows

namespace RowWalk

variable [ToString α]

/-- `run` with `token` in place of the walk's own. -/
def runWith (w : RowWalk α) (roots : List (CallTree α)) (elementEnd : Int) (token : Token) :
    RowWalk α × Option Int :=
  let after := { w with token }.run roots elementEnd
  ({ after.1 with token := w.token }, after.2)

def moments (w : RowWalk α) (roots : List (CallTree α)) (elementEnd : Int) : List Progress :=
  Rows.moments w.depths.contains w.progress
    (Rows.plan w.times (Rows.deepestOf w.depths) roots elementEnd)

theorem allOrNothing_run (w : RowWalk α) (roots : List (CallTree α)) (elementEnd : Int) :
    AllOrNothing (w.runWith roots elementEnd) (w.moments roots elementEnd)
      (fun r => r.2 = none) where
  live := by
    simp only [runWith, run, Rows.finished_carryOut, Token.stops_live]
    exact nofun
  stops token ht := by
    have ht : token.stops (Rows.moments w.depths.contains w.progress
      (Rows.plan w.times (Rows.deepestOf w.depths) roots elementEnd)) := ht
    simp only [runWith, run, Rows.finished_carryOut, ht]
    rfl
  goes_on token ht := by
    simp only [runWith, run, Rows.carryOut_of_not_stops ht]

end RowWalk

/-! ## Answers that are not cancelled -/

theorem QueryError.response_eq_cancelled_iff {μ : Type} (err : QueryError) :
    (err.response : Response μ) = .cancelled ↔ err = .cancelled := by
  cases err <;> simp [response, Response.cancelled, Response.failed, Response.incorrectParameters]

theorem Engine.respond_ne_cancelled {μ : Type} (a : Analysis) (model : μ) :
    respond a model ≠ .cancelled := by
  cases a <;> simp [respond, Response.cancelled, Response.running, Response.completed]

namespace RowRequest

theorem mapError_ne_cancelled {err : ε → QueryError} (h : ∀ e, err e ≠ .cancelled)
    (x : Except ε β) : x.mapError err ≠ .error .cancelled := by
  cases x with
  | ok a => exact nofun
  | error e => exact fun he => h e (Except.error.inj he)

theorem pure_bind_ne_cancelled {a : β} {f : β → Except QueryError γ}
    (hf : f a ≠ .error .cancelled) : (pure a >>= f) ≠ .error .cancelled := hf

theorem bind_ne_cancelled {x : Except QueryError β} {f : β → Except QueryError γ}
    (hx : x ≠ .error .cancelled) (hf : ∀ a, f a ≠ .error .cancelled) :
    (x >>= f) ≠ .error .cancelled := by
  cases x with
  | ok a => exact hf a
  | error e => exact fun he => hx (congrArg Except.error (Except.error.inj he))

theorem read_ne_cancelled (q : Query) : read q ≠ .error .cancelled := by
  unfold read
  apply bind_ne_cancelled (mapError_ne_cancelled nofun _)
  rintro (_ | ts)
  · exact nofun
  · apply bind_ne_cancelled (mapError_ne_cancelled nofun _)
    rintro (_ | patterns)
    · apply pure_bind_ne_cancelled
      exact bind_ne_cancelled (mapError_ne_cancelled nofun _) fun items => nofun
    · apply bind_ne_cancelled (mapError_ne_cancelled nofun _)
      intro filters
      exact bind_ne_cancelled (mapError_ne_cancelled nofun _) fun items => nofun

end RowRequest

/-! ## Row queries -/

namespace Engine

section Rows

variable [ToString α] [ToString ε] [DecidableEq ε]

omit [ToString ε] in
def walkMoments (i : Index α ε) (times : List Int) (p : Progress) :
    List (Wanted ε) → List Progress
  | [] => []
  | w :: ws =>
    let asked (depth : Nat) := w.depths.any fun d => d.1 == depth
    let steps := planElement i times w
    Rows.moments asked p steps ++
      walkMoments i times (Rows.carryOut .live asked p steps).progress ws

omit [ToString ε] in
theorem walk_of_stops {i : Index α ε} {times : List Int} {token : Token} {p : Progress}
    {ws : List (Wanted ε)} (h : token.stops (walkMoments i times p ws)) :
    walk i times token p ws = none := by
  induction ws generalizing p with
  | nil => cases h
  | cons w ws ih =>
    simp only [walkMoments, Token.stops_append, Bool.or_eq_true] at h
    simp only [walk, Rows.finished_carryOut]
    split
    · next hfinished =>
      have hfirst : ¬ token.stops (Rows.moments (fun depth => w.depths.any fun d => d.1 == depth) p
        (planElement i times w)) := by simpa using hfinished
      rw [Rows.carryOut_of_not_stops hfirst, ih (h.resolve_left hfirst)]
      rfl
    · rfl

omit [ToString ε] in
theorem walk_of_not_stops {i : Index α ε} {times : List Int} {token : Token} {p : Progress}
    {ws : List (Wanted ε)} (h : ¬ token.stops (walkMoments i times p ws)) :
    walk i times token p ws = walk i times .live p ws := by
  induction ws generalizing p with
  | nil => rfl
  | cons w ws ih =>
    simp only [walkMoments, Token.stops_append, Bool.or_eq_true, not_or] at h
    simp only [walk, Rows.carryOut_of_not_stops h.1, ih h.2]

/-- The polls of a row sheet: one before the first element, then those of the walks. -/
def sheetMoments (e : Engine α ε) (r : RowRequest) : List Progress :=
  {} :: walkMoments e.index r.times { polls := 1 }
    (wanted e.index.outline (requestedIds e.index r.items))

omit [ToString ε] in
theorem exists_sheet_live (e : Engine α ε) (p : Provider α ε) (r : RowRequest) :
    ∃ rows, e.sheet p r .live = .ok rows := by
  have hlive : ¬ Token.live.cancelledAt {} := Bool.false_ne_true
  simp only [sheet, if_neg hlive, walk_live]
  exact ⟨_, rfl⟩

omit [ToString ε] in
theorem allOrNothing_sheet (e : Engine α ε) (p : Provider α ε) (r : RowRequest) :
    AllOrNothing (e.sheet p r) (e.sheetMoments r) (fun rows => rows = .error .cancelled) where
  live := by
    obtain ⟨rows, hrows⟩ := e.exists_sheet_live p r
    rw [hrows]
    intro h
    cases h
  stops token ht := by
    simp only [sheetMoments, Token.stops_cons, Bool.or_eq_true] at ht
    unfold sheet
    split
    · rfl
    · next hfirst => simp only [walk_of_stops (ht.resolve_left hfirst)]
  goes_on token ht := by
    simp only [sheetMoments, Token.stops_cons, Bool.or_eq_true, not_or] at ht
    simp only [sheet, if_neg ht.1, walk_of_not_stops ht.2]
    rfl

/-- The polls of a row query, none if it cannot be read. -/
def rowMoments (e : Engine α ε) (q : Query) : List Progress :=
  match RowRequest.read q with
  | .ok r => e.sheetMoments r
  | .error _ => []

omit [ToString ε] in
theorem allOrNothing_fetchRows (e : Engine α ε) (feed : Feed α ε) (q : Query) :
    AllOrNothing (e.fetchRows feed q) (e.rowMoments q) (fun r => r = .cancelled) := by
  cases hread : RowRequest.read q with
  | error err =>
    have hcall : ∀ token, e.fetchRows feed q token = err.response := by
      intro token
      simp only [fetchRows, rows, hread]
      rfl
    have herr : err ≠ .cancelled := by
      rintro rfl
      exact RowRequest.read_ne_cancelled q hread
    simp only [rowMoments, hread]
    refine .of_ignored (fun token => (hcall token).trans (hcall .live).symm) ?_
    rwa [hcall, QueryError.response_eq_cancelled_iff]
  | ok r =>
    have hsheet := e.allOrNothing_sheet (feed 0) r
    have hrows : ∀ token, e.rows (feed 0) q token = e.sheet (feed 0) r token := by
      intro token
      simp only [rows, hread]
      rfl
    simp only [rowMoments, hread]
    refine ⟨?_, fun token ht => ?_, fun token ht => ?_⟩
    · obtain ⟨sheet, hlive⟩ := e.exists_sheet_live (feed 0) r
      rw [fetchRows, hrows, hlive]
      exact respond_ne_cancelled _ _
    · rw [fetchRows, hrows, hsheet.stops token ht]
      rfl
    · rw [fetchRows, fetchRows, hrows, hrows, hsheet.goes_on token ht]

end Rows

/-! ## Tree queries -/

section Trees

variable [ToString α] [ToString ε] [BEq α] [Grouping ε] {e : Engine α ε} {feed : Feed α ε}
  {q : Query}

omit [ToString α] [ToString ε] in
/-- The polls of a tree query that the index does not serve, none if it cannot be read. -/
def treeMoments (feed : Feed α ε) (q : Query) : List Progress :=
  match q.level, q.range with
  | .ok level, .ok range => Outline.moments (profileFor feed level range)
  | _, _ => []

theorem fetchTree_of_served (h : e.index.key.any fun k => k == q) (token : Token) :
    e.fetchTree feed q token = (e.index.response, e) := by
  rw [fetchTree, if_pos h]

theorem fetchTree_of_error {err : QueryError} {token : Token}
    (hserved : ¬ e.index.key.any fun k => k == q)
    (h : e.buildIndex feed q token = .error err) :
    e.fetchTree feed q token = (err.response, e) := by
  rw [fetchTree, if_neg hserved, h]

theorem fetchTree_of_ok {i : Index α ε} {token : Token}
    (hserved : ¬ e.index.key.any fun k => k == q) (h : e.buildIndex feed q token = .ok i) :
    e.fetchTree feed q token = (i.response, { e with index := i }) := by
  rw [fetchTree, if_neg hserved, h]

/-- Unreadable parameters are reported before the first poll. -/
theorem allOrNothing_fetchTree_of_unreadable (hserved : ¬ e.index.key.any fun k => k == q)
    (err : ParamError) (h : ∀ token, e.buildIndex feed q token = .error (.params err)) :
    AllOrNothing (e.fetchTree feed q) [] (fun r => r = (.cancelled, e)) := by
  have hcall := fun token => fetchTree_of_error hserved (h token)
  refine .of_ignored (fun token => (hcall token).trans (hcall .live).symm) ?_
  rw [hcall, Prod.mk.injEq, QueryError.response_eq_cancelled_iff]
  exact nofun

theorem allOrNothing_fetchTree (hserved : ¬ e.index.key.any fun k => k == q) :
    AllOrNothing (e.fetchTree feed q) (treeMoments feed q) (fun r => r = (.cancelled, e)) := by
  unfold treeMoments
  cases hl : q.level with
  | error err =>
    refine allOrNothing_fetchTree_of_unreadable hserved err fun token => ?_
    simp only [buildIndex, hl]
    rfl
  | ok level =>
    cases hr : q.range with
    | error err =>
      refine allOrNothing_fetchTree_of_unreadable hserved err fun token => ?_
      simp only [buildIndex, hl, hr]
      rfl
    | ok range =>
      have hbuild := Outline.allOrNothing_build (profileFor feed level range) e.config.traceName
      refine ⟨?_, fun token ht => ?_, fun token ht => ?_⟩
      · rw [fetchTree_of_ok hserved (buildIndex_live hl hr), Prod.mk.injEq, not_and_or]
        exact .inl (respond_ne_cancelled _ _)
      · have hnone : e.buildIndex feed q token = .error .cancelled := by
          rw [buildIndex_eq hl hr, hbuild.stops token ht]
          rfl
        rw [fetchTree_of_error hserved hnone]
        rfl
      · have hsame : e.buildIndex feed q token = e.buildIndex feed q .live := by
          rw [buildIndex_eq hl hr, buildIndex_eq hl hr, hbuild.goes_on token ht]
        rw [fetchTree, fetchTree, hsame]

end Trees

end Engine

/-! ## Every call -/

/-- Cancellation is all or nothing at every poll. `Outline.build` and `run` return nothing or the
result of a live token. A row query is cancelled or answered as with a live token. A tree query is
served from the index without a poll; else it is cancelled and leaves the engine unchanged, or is
answered and publishes as with a live token. -/
theorem cancellation_is_all_or_nothing [ToString α] [ToString ε] [BEq α] [Grouping ε]
    [DecidableEq ε] :
    (∀ (p : Profile α ε) (traceName : String),
      AllOrNothing (fun token => (Outline.Builder.outline p traceName token).map Prod.snd)
        (Outline.moments p) (fun o => o = some none)) ∧
    (∀ (w : RowWalk α) (roots : List (CallTree α)) (elementEnd : Int),
      AllOrNothing (w.runWith roots elementEnd) (w.moments roots elementEnd)
        (fun r => r.2 = none)) ∧
    (∀ (e : Engine α ε) (feed : Feed α ε) (q : Query),
      AllOrNothing (e.fetchRows feed q) (e.rowMoments q) (fun r => r = .cancelled)) ∧
    ∀ (e : Engine α ε) (feed : Feed α ε) (q : Query),
      if e.index.key.any fun k => k == q then
        ∀ token, e.fetchTree feed q token = (e.index.response, e)
      else
        AllOrNothing (e.fetchTree feed q) (Engine.treeMoments feed q)
          (fun r => r = (.cancelled, e)) := by
  refine ⟨fun p traceName => ?_, RowWalk.allOrNothing_run, Engine.allOrNothing_fetchRows,
    fun e feed q => ?_⟩
  · simp only [Outline.outline_eq_build]
    have hbuild := Outline.allOrNothing_build p traceName
    exact hbuild.map (fun h => hbuild.live (Option.some.inj h)) fun o ho => congrArg some ho
  · split
    · next hserved => exact Engine.fetchTree_of_served hserved
    · next hserved => exact Engine.allOrNothing_fetchTree hserved

/-- An outline, a walk, a row query and a tree query, each cancelled at one of its polls; the walk
and the row query also under a token that is cancelled after the last. -/
theorem cancellation_is_all_or_nothing_sample :
    let roots := Sample.profile.treesOf ⟨"main"⟩
    let w : RowWalk Frame :=
      { depths := [0, 1], times := [0, 12], token := .live,
        paint := ⟨Sample.engine.spanOf Sample.provider, {}⟩ }
    let atTimes := Query.withTimes {} [0, 12]
    (Outline.Builder.outline Sample.profile "sample" ⟨fun p => p.polls == 0⟩).map Prod.snd =
        some none ∧
      (w.runWith roots 15 (.afterSpans 2)).2 = none ∧
      w.runWith roots 15 (.afterSpans 3) = w.runWith roots 15 .live ∧
      Sample.engine.fetchRows Sample.feed atTimes (.afterSpans 2) = .cancelled ∧
      Sample.engine.fetchRows Sample.feed atTimes (.afterSpans 3) =
        Sample.engine.fetchRows Sample.feed atTimes .live ∧
      Sample.engine.fetchTree Sample.feed (Query.withLevel {} 1) ⟨fun p => p.polls == 0⟩ =
        (.cancelled, Sample.engine) := by
  intro roots w atTimes
  obtain ⟨houtline, hrun, hrows, htree⟩ :=
    cancellation_is_all_or_nothing (α := Frame) (ε := Frame)
  have hwalk : w.moments roots 15 = [⟨0, 0⟩, ⟨1, 1⟩, ⟨2, 2⟩] := by cbv
  have hsheet : Sample.engine.rowMoments atTimes =
      [⟨0, 0⟩, ⟨1, 0⟩, ⟨2, 0⟩, ⟨3, 1⟩, ⟨4, 2⟩] := by cbv
  have hwalk := hwalk ▸ hrun w roots 15
  have hsheet := hsheet ▸ hrows Sample.engine Sample.feed atTimes
  have htree := htree Sample.engine Sample.feed (Query.withLevel {} 1)
  rw [if_neg (by decide)] at htree
  exact ⟨(houtline Sample.profile "sample").stops _ (by decide), hwalk.stops _ (by decide),
    hwalk.goes_on _ (by decide), hsheet.stops _ (by decide), hsheet.goes_on _ (by decide),
    htree.stops _ (by decide)⟩

end StackProfile
