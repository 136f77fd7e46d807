import Mathlib
import StackProfile.Proofs.History

/-!
# Completing analyses

`CompletesAt` is a provider over time. A tree query reads the state of the analysis before the data,
and an index built while running has no key, so every completed tree is that of the final data. A
row query reads the state when it answers, from an index published earlier: its rows are final if
that index is completed.
-/

namespace StackProfile

variable {α ε : Type}

/-- A provider over time: running, with arbitrary data, before `finish`; completed and
constant from then on. -/
structure CompletesAt (course : Nat → Provider α ε) (finish : Nat) : Prop where
  running : ∀ t < finish, (course t).analysis = .running
  completed : ∀ t, finish ≤ t → (course t).analysis = .completed
  profile : ∀ t, finish ≤ t → (course t).profile = (course finish).profile
  selection : ∀ t, finish ≤ t → (course t).selection = (course finish).selection

/-- A call with the non-decreasing times of its looks at the provider. -/
structure TimedCall where
  call : Call
  looks : Nat → Nat
  looks_le : ∀ {m n}, m ≤ n → looks m ≤ looks n

def TimedCall.feed (c : TimedCall) (course : Nat → Provider α ε) : Feed α ε :=
  fun n => course (c.looks n)

def onCourse (course : Nat → Provider α ε) (cs : List TimedCall) : List (Feed α ε × Call) :=
  cs.map fun c => (c.feed course, c.call)

section Looks

variable {course : Nat → Provider α ε} {finish : Nat} {c : TimedCall}

theorem CompletesAt.completed_iff (h : CompletesAt course finish) (t : Nat) :
    (course t).analysis = .completed ↔ finish ≤ t := by
  constructor
  · intro ha
    by_contra hlt
    rw [h.running t (by omega)] at ha
    cases ha
  · exact h.completed t

/-- If the first look of a call finds the analysis completed, all its looks see the final data. -/
theorem CompletesAt.profileFor_eq [BEq α] [Grouping ε] (h : CompletesAt course finish)
    (ha : (c.feed course 0).analysis = .completed) (level : Option Nat)
    (range : Option (Int × Int)) :
    Engine.profileFor (c.feed course) level range =
      Engine.profileFor (fun _ => course finish) level range := by
  have hlooks : ∀ n, finish ≤ c.looks n := fun n =>
    Nat.le_trans ((h.completed_iff _).mp ha) (c.looks_le (Nat.zero_le n))
  have hsource : Engine.source (c.feed course) range =
      Engine.source (fun _ => course finish) range := by
    unfold Engine.source TimedCall.feed
    rw [h.profile _ (hlooks 1), h.profile _ (hlooks 2), h.selection _ (hlooks 1)]
  unfold Engine.profileFor
  rw [hsource]

end Looks

section Completion

variable [ToString α] [ToString ε]

theorem Engine.status_indexOf (e : Engine α ε) (a : Analysis) (q : Query) (profile : Profile α ε) :
    (e.indexOf a q profile).response.status = .completed ↔ a = .completed := by
  cases a <;> simp [indexOf, respond, Response.running, Response.completed]

variable [BEq α] [Grouping ε] {course : Nat → Provider α ε} {finish : Nat} {p : Provider α ε}
  {config : Config} {last : Option Query} {e : Engine α ε} {q : Query} {token : Token}
  {i : Index α ε}

theorem Engine.status_of_key {feed : Feed α ε} (hi : e.buildIndex feed q token = .ok i)
    (hk : i.key ≠ none) : i.response.status = .completed := by
  obtain ⟨level, range, -, -, rfl⟩ := buildIndex_eq_ok hi
  refine (e.status_indexOf _ _ _).mpr ?_
  by_contra ha
  exact hk (if_neg ha)

/-- A completed build publishes the index of the final data. -/
theorem CompletesAt.builtFor (h : CompletesAt course finish) (hc : e.config = config)
    {c : TimedCall} (hi : e.buildIndex (c.feed course) q token = .ok i)
    (hs : i.response.status = .completed) : i.BuiltFor (course finish) config q := by
  obtain ⟨level, range, hl, hr, rfl⟩ := Engine.buildIndex_eq_ok hi
  have ha := (e.status_indexOf _ _ _).mp hs
  refine ⟨_, Engine.buildIndex_live hl hr, ?_⟩
  rw [h.profileFor_eq ha, ha, h.completed finish (Nat.le_refl _)]
  unfold Engine.indexOf
  rw [hc]
  exact ⟨rfl, rfl, rfl⟩

/-- Invariant of a session on a provider that ends as `final`: a key, or the completed index of
`last`, is for the index of `final`. -/
structure Engine.FollowsTo (final p : Provider α ε) (config : Config) (last : Option Query)
    (e : Engine α ε) : Prop where
  palette_eq : e.palette = (Engine.new p config).palette
  config_eq : e.config = config
  built : ∀ q ∈ last, e.index.response.status = .completed → e.index.BuiltFor final config q
  key : ∀ k ∈ e.index.key, e.index.BuiltFor final config k

namespace Engine.FollowsTo

theorem new (final p : Provider α ε) (config : Config) :
    (Engine.new p config).FollowsTo final p config none where
  palette_eq := rfl
  config_eq := rfl
  built := fun _ h => nomatch h
  key := fun _ h => nomatch h

theorem fetchTree (h : e.FollowsTo (course finish) p config last) (hc : CompletesAt course finish)
    (c : TimedCall) (q : Query) (token : Token) :
    (e.fetchTree (c.feed course) q token).2.FollowsTo (course finish) p config
      ((if (e.fetchTree (c.feed course) q token).1.model.isSome then some q
        else none).or last) := by
  unfold Engine.fetchTree
  split
  · next hkey =>
    obtain ⟨k, hk, hkq⟩ := Option.any_eq_true _ _ |>.mp hkey
    have hq := (h.key k hk).of_beq hkq
    rw [if_pos hq.model]
    exact { h with built := fun _ hm _ => Option.some.inj hm ▸ hq }
  · split
    · next i hi =>
      obtain ⟨hmodel, hkey⟩ := model_of_buildIndex hi
      rw [if_pos hmodel]
      exact {
        palette_eq := h.palette_eq
        config_eq := h.config_eq
        built := fun _ hm hs => Option.some.inj hm ▸ hc.builtFor h.config_eq hi hs
        key := fun k hk => hkey k hk ▸
          hc.builtFor h.config_eq hi (status_of_key hi (Option.ne_none_iff_exists'.mpr ⟨k, hk⟩)) }
    · next err herr =>
      rw [model_of_error]
      exact h

/-- A completed answer is that of a fresh engine on the final data. -/
theorem fetchTree_completed (h : e.FollowsTo (course finish) p config last)
    (hc : CompletesAt course finish) (c : TimedCall)
    (hs : (e.fetchTree (c.feed course) q token).1.status = .completed) :
    (e.fetchTree (c.feed course) q token).1 =
      ((Engine.new (course finish) config).fetchTree (fun _ => course finish) q .live).1 := by
  unfold Engine.fetchTree at hs
  conv_lhs => unfold Engine.fetchTree
  split
  · next hkey =>
    obtain ⟨k, hk, hkq⟩ := Option.any_eq_true _ _ |>.mp hkey
    exact ((h.key k hk).of_beq hkq).response_eq
  · next hkey =>
    rw [if_neg hkey] at hs
    split
    · next i hi =>
      rw [hi] at hs
      exact (hc.builtFor h.config_eq hi hs).response_eq
    · next err herr =>
      rw [herr] at hs
      cases err <;> cases hs

variable [DecidableEq ε]

theorem call (h : e.FollowsTo (course finish) p config last) (hc : CompletesAt course finish)
    (c : TimedCall) :
    (e.call (c.feed course) c.call).2.FollowsTo (course finish) p config
      ((served? (c.call, (e.call (c.feed course) c.call).1)).or last) := by
  obtain ⟨call, looks, hle⟩ := c
  cases call with
  | tree q token => exact h.fetchTree hc ⟨_, looks, hle⟩ q token
  | rows q token => exact h
  | tooltip q token => exact h
  | styles => exact h
  | node id time => exact h

theorem run (h : e.FollowsTo (course finish) p config last) (hc : CompletesAt course finish)
    (cs : List TimedCall) :
    (e.run (onCourse course cs)).2.FollowsTo (course finish) p config
      ((lastServed? (e.run (onCourse course cs)).1).or last) := by
  induction cs generalizing e last with
  | nil => exact h
  | cons c cs ih =>
    have hrest := ih (h.call hc c)
    rw [← Option.or_assoc] at hrest
    exact hrest

theorem run_completed (h : e.FollowsTo (course finish) p config last)
    (hc : CompletesAt course finish) (cs : List TimedCall) {r : Response EntryList}
    (hr : (.tree q token, .tree r) ∈ (e.run (onCourse course cs)).1) (hs : r.status = .completed) :
    r = ((Engine.new (course finish) config).fetchTree (fun _ => course finish) q .live).1 := by
  induction cs generalizing e last with
  | nil => cases hr
  | cons c cs ih =>
    rcases List.mem_cons.mp hr with heq | hr
    · obtain ⟨call, looks, hle⟩ := c
      cases call with
      | tree q' token' =>
        cases heq
        exact h.fetchTree_completed hc ⟨_, looks, hle⟩ hs
      | rows q' token' => cases heq
      | tooltip q' token' => cases heq
      | styles => cases heq
      | node id time => cases heq
    · exact ih (h.call hc c) hr

end Engine.FollowsTo

/-! ## Answers that are called completed -/

variable [DecidableEq ε]

/-- A completed tree is never partial. In a session on a completing provider, each tree query
answered as completed, built or served, is answered as by a fresh engine on the final data. Looks of
one call are ordered; calls do not overlap. -/
theorem completed_trees_are_final (h : CompletesAt course finish) (p : Provider α ε)
    (config : Config) (session : List TimedCall) {r : Response EntryList}
    (hr : (.tree q token, .tree r) ∈ ((Engine.new p config).run (onCourse course session)).1)
    (hs : r.status = .completed) :
    r = ((Engine.new (course finish) config).fetchTree (fun _ => course finish) q .live).1 :=
  (Engine.FollowsTo.new _ p config).run_completed h session hr hs

/-- Rows are those of the final trees if the last published index is completed. -/
theorem rows_of_completed_index (h : CompletesAt course finish) (p : Provider α ε)
    (config : Config) (session : List TimedCall)
    (hlast : lastServed? ((Engine.new p config).run (onCourse course session)).1 = some q)
    (hs : ((Engine.new p config).run (onCourse course session)).2.index.response.status =
      .completed) (feed : Feed α ε) (q' : Query) (token : Token) :
    ((Engine.new p config).run (onCourse course session)).2.fetchRows feed q' token =
      ((Engine.new p config).fetchTree (fun _ => course finish) q .live).2.fetchRows feed q'
        token := by
  have hfollows := (Engine.FollowsTo.new (course finish) p config).run h session
  rw [hlast] at hfollows
  obtain ⟨j, hj, hij⟩ := hfollows.built q rfl hs
  have hbuild : (Engine.new p config).buildIndex (fun _ => course finish) q .live = .ok j :=
    (Engine.buildIndex_congr rfl _ _ _).trans hj
  rw [Engine.fetchTree_new_snd hbuild]
  apply Engine.fetchRows_congr
  · exact hfollows.palette_eq
  · exact hij

end Completion

/-! ## An analysis that completes between two queries -/

namespace Sample

def partialProfile : Profile Frame Frame := .addTree {} ⟨"main"⟩ (.leaf ⟨"draw"⟩ 3)

/-- `partialProfile` until time 2, then all of `profile`. -/
def course (time : Nat) : Provider Frame Frame :=
  if time < 2 then { provider with profile := partialProfile, analysis := .running } else provider

theorem course_completes : CompletesAt course 2 where
  running := fun t ht => by rw [course, if_pos ht]
  completed := fun t ht => by rw [course, if_neg (by omega)]; rfl
  profile := fun t ht => by rw [course, if_neg (by omega)]; rfl
  selection := fun t ht => by rw [course, if_neg (by omega)]; rfl

def earlyCall : TimedCall := ⟨.tree {} .live, fun _ => 0, fun _ => Nat.le_refl _⟩

def treeCalls : List TimedCall :=
  [earlyCall, ⟨.tree {} .live, fun n => n + 1, fun h => Nat.succ_le_succ h⟩,
    ⟨.tree {} .live, fun n => n + 2, fun h => Nat.add_le_add_right h 2⟩]

end Sample

/-- The last of three queries is completed, with the final entries. -/
theorem completed_trees_are_final_sample :
    ∃ r, (.tree {} .live, .tree r) ∈
        ((Engine.new Sample.provider {}).run (onCourse Sample.course Sample.treeCalls)).1 ∧
      r.status = .completed ∧
      r = ((Engine.new (Sample.course 2) {}).fetchTree (fun _ => Sample.course 2) {} .live).1 := by
  refine ⟨_, List.mem_cons_of_mem _ (List.mem_cons_of_mem _ List.mem_cons_self), ?_, ?_⟩
  · cbv
  · exact completed_trees_are_final Sample.course_completes Sample.provider {} Sample.treeCalls
      (List.mem_cons_of_mem _ (List.mem_cons_of_mem _ List.mem_cons_self)) (by cbv)

/-- Rows after the last of three queries. -/
theorem rows_of_completed_index_sample :
    let session := (Engine.new Sample.provider {}).run (onCourse Sample.course Sample.treeCalls)
    lastServed? session.1 = some {} ∧ session.2.index.response.status = .completed ∧
      session.2.fetchRows Sample.feed (Query.withTimes {} [0]) .live =
        ((Engine.new Sample.provider {}).fetchTree (fun _ => Sample.course 2) {} .live).2.fetchRows
          Sample.feed (Query.withTimes {} [0]) .live := by
  have hlast : lastServed?
      ((Engine.new Sample.provider {}).run (onCourse Sample.course Sample.treeCalls)).1 =
        some {} := by cbv
  have hs : ((Engine.new Sample.provider {}).run
      (onCourse Sample.course Sample.treeCalls)).2.index.response.status = .completed := by cbv
  exact ⟨hlast, hs,
    rows_of_completed_index Sample.course_completes Sample.provider {} Sample.treeCalls hlast hs
      Sample.feed (Query.withTimes {} [0]) .live⟩

/-- Counterexample: rows answered as completed from an index published while running. The first
stack has 3 of its final 10 samples. -/
theorem completed_rows_may_be_partial :
    CompletesAt Sample.course 2 ∧
      let session := (Engine.new Sample.provider {}).run (onCourse Sample.course [Sample.earlyCall])
      let fresh :=
        ((Engine.new Sample.provider {}).fetchTree (fun _ => Sample.course 2) {} .live).2
      let answer (e : Engine Frame Frame) :=
        e.fetchRows (fun _ => Sample.course 2) (Query.withTimes {} [0]) .live
      let samples (e : Engine Frame Frame) :=
        ((answer e).model.bind fun sheet => sheet.spanAt? 2 0).map Span.duration
      lastServed? session.1 = some {} ∧ (answer session.2).status = .completed ∧
        samples session.2 = some 3 ∧ samples fresh = some 10 := by
  refine ⟨Sample.course_completes, ?_, ?_, ?_, ?_⟩
  · cbv
  · cbv
  · cbv
  · cbv

end StackProfile
