import StackProfile.Proofs.EqualQueries
import StackProfile.Proofs.Session

/-!
# Engines without history

`KeepsOnly last` is the session invariant: the index is that of query `last`, up to the key. Failed,
cancelled and served queries leave it unchanged.
-/

namespace StackProfile

variable {α ε : Type}

/-! ## Dependencies of answers -/

/-- Equal up to the key. -/
structure Index.Agrees (i j : Index α ε) : Prop where
  response : i.response = j.response
  profile : i.profile = j.profile
  outline : i.outline = j.outline

theorem Index.Agrees.trans {i j k : Index α ε} (h : i.Agrees j) (h' : j.Agrees k) : i.Agrees k :=
  ⟨h.response.trans h'.response, h.profile.trans h'.profile, h.outline.trans h'.outline⟩

namespace Engine

section Congruence

variable [ToString α] [DecidableEq ε] {e e' : Engine α ε}

theorem walk_congr {i j : Index α ε} (h : i.Agrees j) (times : List Int) (token : Token)
    (p : Progress) (ws : List (Wanted ε)) : walk i times token p ws = walk j times token p ws := by
  have hplan : planElement i times = planElement j times := by
    funext w
    rw [planElement, planElement, h.profile, h.outline]
  induction ws generalizing p with
  | nil => rfl
  | cons w ws ih => simp only [walk, hplan, ih]

theorem fetchRows_congr (hp : e.palette = e'.palette) (hi : e.index.Agrees e'.index)
    (feed : Feed α ε) (q : Query) (token : Token) :
    e.fetchRows feed q token = e'.fetchRows feed q token := by
  have hspan : e.spanOf (feed 0) = e'.spanOf (feed 0) := by
    funext s
    rw [spanOf, spanOf, hp]
  have hids := requestedIds_congr hi.outline
  have hsheet : ∀ r, e.sheet (feed 0) r token = e'.sheet (feed 0) r token := by
    intro r
    rw [sheet, sheet, hspan, hids, hi.outline]
    simp only [walk_congr hi]
  have hrows : e.rows (feed 0) q token = e'.rows (feed 0) q token := by
    unfold rows
    simp only [hsheet]
  rw [fetchRows, fetchRows, hrows]

theorem nodeAt?_congr (hi : e.index.Agrees e'.index) (id time : Int) :
    e.nodeAt? id time = e'.nodeAt? id time := by
  rw [nodeAt?, nodeAt?, hi.profile, hi.outline]

theorem fetchTooltip_congr (hi : e.index.Agrees e'.index) (feed : Feed α ε) (q : Query)
    (token : Token) : e.fetchTooltip feed q token = e'.fetchTooltip feed q token := by
  have htooltip : e.tooltip (feed 0) q = e'.tooltip (feed 0) q := by
    unfold tooltip
    simp only [nodeAt?_congr hi]
  rw [fetchTooltip, fetchTooltip, htooltip]

end Congruence

/-! ## Builds -/

section Builds

variable [ToString α] [ToString ε] [BEq α] [Grouping ε] {e e' : Engine α ε} {feed : Feed α ε}
  {q q' : Query}

theorem buildIndex_congr (hc : e.config = e'.config) (feed : Feed α ε) (q : Query)
    (token : Token) : e.buildIndex feed q token = e'.buildIndex feed q token := by
  rw [buildIndex, buildIndex, hc]

/-- A build that succeeds with some token succeeds alike with a live one. -/
theorem buildIndex_live_of_ok {i : Index α ε} {token : Token}
    (h : e.buildIndex feed q token = .ok i) : e.buildIndex feed q .live = .ok i := by
  obtain ⟨level, range, hl, hr, rfl⟩ := buildIndex_eq_ok h
  exact buildIndex_live hl hr

/-- Equal queries build the same index up to the key. -/
theorem buildIndex_of_beq (hq : q == q') {i : Index α ε} {token : Token}
    (h : e.buildIndex feed q token = .ok i) :
    ∃ j, e.buildIndex feed q' .live = .ok j ∧ i.Agrees j := by
  obtain ⟨level, range, hl, hr, rfl⟩ := buildIndex_eq_ok h
  rw [Query.level_of_beq hq] at hl
  rw [Query.range_of_beq hq] at hr
  exact ⟨_, buildIndex_live hl hr, rfl, rfl, rfl⟩

/-- A built index carries a model under its query. -/
theorem model_of_buildIndex {i : Index α ε} {token : Token}
    (h : e.buildIndex feed q token = .ok i) : i.response.model.isSome ∧ ∀ k ∈ i.key, k = q := by
  obtain ⟨level, range, -, -, rfl⟩ := buildIndex_eq_ok h
  constructor
  · simp only [indexOf, respond]
    split <;> rfl
  · intro k hk
    simp only [indexOf, Option.mem_def] at hk
    split at hk
    · exact (Option.some.inj hk).symm
    · cases hk

theorem model_of_error (err : QueryError) :
    (err.response : Response EntryList).model = none := by
  cases err <;> rfl

end Builds

end Engine

/-! ## The last query with a model -/

def served? : Call × Answer α → Option Query
  | (.tree q _, .tree r) => if r.model.isSome then some q else none
  | _ => none

/-- The last query answered with a model. -/
def lastServed? : List (Call × Answer α) → Option Query
  | [] => none
  | x :: rest => (lastServed? rest).or (served? x)

section Invariant

variable [ToString α] [ToString ε] [BEq α] [Grouping ε]

/-- `i` is, up to the key, the index that a fresh engine publishes for `q`. -/
def Index.BuiltFor (p : Provider α ε) (config : Config) (q : Query) (i : Index α ε) : Prop :=
  ∃ j, (Engine.new p config).buildIndex (fun _ => p) q .live = .ok j ∧ i.Agrees j

variable {p : Provider α ε} {config : Config} {q q' : Query} {i : Index α ε}

theorem Index.BuiltFor.of_beq (h : i.BuiltFor p config q) (hq : q == q') :
    i.BuiltFor p config q' := by
  obtain ⟨j, hj, hij⟩ := h
  obtain ⟨k, hk, hjk⟩ := Engine.buildIndex_of_beq hq hj
  exact ⟨k, hk, hij.trans hjk⟩

theorem Index.BuiltFor.model (h : i.BuiltFor p config q) : i.response.model.isSome := by
  obtain ⟨j, hj, hij⟩ := h
  rw [hij.response]
  exact (Engine.model_of_buildIndex hj).1

theorem Index.BuiltFor.response_eq (h : i.BuiltFor p config q) :
    i.response = ((Engine.new p config).fetchTree (fun _ => p) q .live).1 := by
  obtain ⟨j, hj, hij⟩ := h
  rw [hij.response, Engine.fetchTree, hj]
  rfl

theorem Engine.fetchTree_new_snd {feed : Feed α ε} {token : Token}
    (hi : (Engine.new p config).buildIndex feed q token = .ok i) :
    ((Engine.new p config).fetchTree feed q token).2 = { Engine.new p config with index := i } := by
  rw [fetchTree, hi]
  rfl

/-- The invariant of sessions: the index is that of `last`, or empty. -/
structure Engine.KeepsOnly (p : Provider α ε) (config : Config) (last : Option Query)
    (e : Engine α ε) : Prop where
  palette_eq : e.palette = (Engine.new p config).palette
  config_eq : e.config = config
  index_eq : last = none → e.index = {}
  built : ∀ q ∈ last, e.index.BuiltFor p config q
  key : ∀ k ∈ e.index.key, e.index.BuiltFor p config k

namespace Engine.KeepsOnly

variable {last : Option Query} {e : Engine α ε}

theorem new (p : Provider α ε) (config : Config) :
    (Engine.new p config).KeepsOnly p config none where
  palette_eq := rfl
  config_eq := rfl
  index_eq := fun _ => rfl
  built := fun _ h => nomatch h
  key := fun _ h => nomatch h

theorem buildIndex_eq (h : e.KeepsOnly p config last) (q : Query) (token : Token) :
    e.buildIndex (fun _ => p) q token = (Engine.new p config).buildIndex (fun _ => p) q token :=
  buildIndex_congr h.config_eq _ q token

/-- Served, built or failed: `fetchTree` preserves the invariant. -/
theorem fetchTree (h : e.KeepsOnly p config last) (q : Query) (token : Token) :
    (e.fetchTree (fun _ => p) q token).2.KeepsOnly p config
      ((if (e.fetchTree (fun _ => p) q token).1.model.isSome then some q else none).or last) := by
  unfold Engine.fetchTree
  split
  · next hkey =>
    obtain ⟨k, hk, hkq⟩ := Option.any_eq_true _ _ |>.mp hkey
    have hq := (h.key k hk).of_beq hkq
    rw [if_pos hq.model]
    exact { h with index_eq := nofun, built := fun _ hm => Option.some.inj hm ▸ hq }
  · split
    · next i hi =>
      obtain ⟨hmodel, hkey⟩ := model_of_buildIndex hi
      have hq : i.BuiltFor p config q :=
        ⟨i, buildIndex_live_of_ok (h.buildIndex_eq q token ▸ hi), rfl, rfl, rfl⟩
      rw [if_pos hmodel]
      exact {
        palette_eq := h.palette_eq
        config_eq := h.config_eq
        index_eq := nofun
        built := fun _ hm => Option.some.inj hm ▸ hq
        key := fun k hk => hkey k hk ▸ hq }
    · next err herr =>
      rw [model_of_error]
      exact h

/-- A live tree query is answered as by a fresh engine. -/
theorem fetchTree_live (h : e.KeepsOnly p config last) (q : Query) :
    (e.fetchTree (fun _ => p) q .live).1 =
      ((Engine.new p config).fetchTree (fun _ => p) q .live).1 := by
  conv_lhs => unfold Engine.fetchTree
  split
  · next hkey =>
    obtain ⟨k, hk, hkq⟩ := Option.any_eq_true _ _ |>.mp hkey
    exact ((h.key k hk).of_beq hkq).response_eq
  · rw [h.buildIndex_eq, Engine.fetchTree]
    cases (Engine.new p config).buildIndex (fun _ => p) q .live <;> rfl

/-- Up to the key, the engine is a fresh one after `last`. -/
theorem agrees_rebuilt (h : e.KeepsOnly p config last) :
    let rebuilt := match last with
      | some q => ((Engine.new p config).fetchTree (fun _ => p) q .live).2
      | none => Engine.new p config
    e.palette = rebuilt.palette ∧ e.index.Agrees rebuilt.index := by
  cases last with
  | none =>
    have hi := h.index_eq rfl
    rw [hi]
    exact ⟨h.palette_eq, rfl, rfl, rfl⟩
  | some q =>
    obtain ⟨j, hj, hij⟩ := h.built q rfl
    simp only [fetchTree_new_snd hj]
    exact ⟨h.palette_eq, hij⟩

variable [DecidableEq ε]

theorem call (h : e.KeepsOnly p config last) (c : Call) :
    (e.call (fun _ => p) c).2.KeepsOnly p config
      ((served? (c, (e.call (fun _ => p) c).1)).or last) := by
  cases c with
  | tree q token => exact h.fetchTree q token
  | rows q token => exact h
  | tooltip q token => exact h
  | styles => exact h
  | node id time => exact h

/-- `run` preserves the invariant. -/
theorem run (h : e.KeepsOnly p config last) (cs : List Call) :
    (e.run (cs.map fun c => (fun _ => p, c))).2.KeepsOnly p config
      ((lastServed? (e.run (cs.map fun c => (fun _ => p, c))).1).or last) := by
  induction cs generalizing e last with
  | nil => exact h
  | cons c cs ih =>
    have hrest := ih (h.call c)
    rw [← Option.or_assoc] at hrest
    exact hrest

end Engine.KeepsOnly

/-- The only history of an engine is its last served query. After any calls with any tokens, a live
tree query is answered as by a fresh engine, and every other call as by a fresh engine after one
live query, the last that was answered with a model. -/
theorem answers_have_no_history [DecidableEq ε] (p : Provider α ε) (config : Config)
    (earlier : List Call) :
    let feed : Feed α ε := fun _ => p
    let fresh := Engine.new p config
    let session := fresh.run (earlier.map fun c => (feed, c))
    let rebuilt := match lastServed? session.1 with
      | some q => (fresh.fetchTree feed q .live).2
      | none => fresh
    (∀ q, (session.2.fetchTree feed q .live).1 = (fresh.fetchTree feed q .live).1) ∧
      (∀ q token, session.2.fetchRows feed q token = rebuilt.fetchRows feed q token) ∧
      (∀ q token, session.2.fetchTooltip feed q token = rebuilt.fetchTooltip feed q token) ∧
      (∀ id time, session.2.nodeAt? id time = rebuilt.nodeAt? id time) ∧
      session.2.fetchStyles = rebuilt.fetchStyles := by
  intro feed fresh session rebuilt
  have h := (Engine.KeepsOnly.new p config).run earlier
  rw [Option.or_none] at h
  obtain ⟨hpalette, hindex⟩ := h.agrees_rebuilt
  refine ⟨h.fetchTree_live, Engine.fetchRows_congr hpalette hindex feed,
    Engine.fetchTooltip_congr hindex feed, Engine.nodeAt?_congr hindex, ?_⟩
  exact congrArg (fun palette => Response.completed palette.sheet.get) hpalette

end Invariant

end StackProfile
