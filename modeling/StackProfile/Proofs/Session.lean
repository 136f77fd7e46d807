import StackProfile.Engine
import StackProfile.Proofs.FunctionEntries

/-!
# Sessions

`run` is a sequence of calls, each with its own feed of the provider. Only tree queries change an
engine. `Reachable` engines over sound providers have sound indexes.
-/

namespace StackProfile

open Layout (total)

variable {α ε : Type}

inductive Call where
  | tree (q : Query) (token : Token)
  | rows (q : Query) (token : Token)
  | tooltip (q : Query) (token : Token)
  | styles
  | node (id time : Int)

inductive Answer (α : Type) where
  | tree (r : Response EntryList)
  | rows (r : Response RowSheet)
  | tooltip (r : Response Tooltip)
  | styles (r : Response StyleSheet)
  | node (t : Option (CallTree α))

namespace Engine

variable [ToString α] [ToString ε] [BEq α] [Grouping ε] [DecidableEq ε]

def call (e : Engine α ε) (feed : Feed α ε) : Call → Answer α × Engine α ε
  | .tree q token => (.tree (e.fetchTree feed q token).1, (e.fetchTree feed q token).2)
  | .rows q token => (.rows (e.fetchRows feed q token), e)
  | .tooltip q token => (.tooltip (e.fetchTooltip feed q token), e)
  | .styles => (.styles e.fetchStyles, e)
  | .node id time => (.node (e.nodeAt? id time), e)

/-- The log of a session, and the engine after it. -/
def run (e : Engine α ε) : List (Feed α ε × Call) → List (Call × Answer α) × Engine α ε
  | [] => ([], e)
  | (feed, c) :: rest =>
    let later := (e.call feed c).2.run rest
    ((c, (e.call feed c).1) :: later.1, later.2)

/-- The log of a new engine on a constant provider. -/
def logOf (p : Provider α ε) (config : Config) (calls : List Call) : List (Call × Answer α) :=
  ((Engine.new p config).run (calls.map fun c => (fun _ => p, c))).1

end Engine

/-! ## Sound providers and indexes -/

structure Provider.Sound (p : Provider α ε) : Prop where
  profile : p.profile.Sound
  selection : ∀ start finish s, p.selection start finish = some s → s.Sound

/-- An index of a sound profile, outlined or not. -/
structure Index.Sound [ToString α] [ToString ε] (i : Index α ε) : Prop where
  profile : i.profile.Sound
  outline : i.outline = ⟨[], []⟩ ∨ ∃ traceName, i.outline = Outline.of i.profile traceName

namespace Index.Sound

variable [ToString α] [ToString ε] {i : Index α ε} {id id' : Int}

theorem empty : Index.Sound ({} : Index α ε) := ⟨Profile.sound_empty, .inl rfl⟩

theorem shown?_injective (h : i.Sound) {x : ε × Nat} (hx : i.outline.shown? id = some x)
    (hx' : i.outline.shown? id' = some x) : id = id' := by
  rcases h.outline with he | ⟨traceName, he⟩
  · rw [he] at hx; cases hx
  · rw [he] at hx hx'
    exact Outline.shown?_injective h.profile hx hx'

theorem finish?_of_shown? [DecidableEq ε] (h : i.Sound) {e : ε} {d : Nat}
    (hx : i.outline.shown? id = some (e, d)) :
    ∃ x, i.outline.finish? id = some x ∧ x ≤ total (i.profile.treesOf e) := by
  rcases h.outline with he | ⟨traceName, he⟩
  · rw [he] at hx; cases hx
  · rw [he] at hx ⊢
    exact Outline.finish?_of_shown? h.profile hx

end Index.Sound

/-! ## Tree queries -/

namespace Engine

theorem sound_source {feed : Feed α ε} (h : ∀ n, (feed n).Sound) (range : Option (Int × Int)) :
    (source feed range).Sound := by
  match range with
  | none => exact (h 1).profile
  | some (start, finish) =>
    simp only [source]
    cases hs : (feed 1).selection start finish with
    | none => exact (h 2).profile
    | some s => exact (h 1).selection _ _ _ hs

section Restricting

variable [BEq α] [Grouping ε] {feed : Feed α ε}

/-- The profile of an index at `level` and `range`. -/
def profileFor (feed : Feed α ε) (level : Option Nat) (range : Option (Int × Int)) :
    Profile α ε :=
  match level with
  | some n => (source feed range).coarsen n
  | none => source feed range

theorem profileFor_of_source {range : Option (Int × Int)} {p : Profile α ε}
    (h : source feed range = p) (level : Option Nat) :
    profileFor feed level range = (level.map p.coarsen).getD p := by
  subst h
  cases level <;> rfl

theorem sound_profileFor (h : ∀ n, (feed n).Sound) (level : Option Nat)
    (range : Option (Int × Int)) : (profileFor feed level range).Sound := by
  cases level with
  | none => exact sound_source h range
  | some n => exact (sound_source h range).coarsen n

end Restricting

section Building

variable [ToString α] [ToString ε]

def indexOf (e : Engine α ε) (a : Analysis) (q : Query) (p : Profile α ε) : Index α ε where
  key := if a = .completed then some q else none
  response := respond a ⟨(Outline.of p e.config.traceName).entries⟩
  profile := p
  outline := Outline.of p e.config.traceName

theorem build_eq_some {p : Profile α ε} {traceName : String} {token : Token} {o : Outline ε}
    (h : Outline.build p traceName token = some o) : o = Outline.of p traceName := by
  unfold Outline.build at h
  split at h
  · cases h
  · exact (Option.some.inj h).symm

theorem build_live (p : Profile α ε) (traceName : String) :
    Outline.build p traceName .live = some (Outline.of p traceName) := by
  simp [Outline.build, Token.live]

omit [ToString α] [ToString ε] in
theorem requestedIds_congr {i j : Index α ε} (h : i.outline = j.outline) :
    requestedIds i = requestedIds j := by
  funext items
  rw [requestedIds.eq_def, requestedIds.eq_def, h]

variable [BEq α] [Grouping ε] {e : Engine α ε} {feed : Feed α ε} {q : Query} {token : Token}

theorem buildIndex_eq {level : Option Nat} {range : Option (Int × Int)} (hl : q.level = .ok level)
    (hr : q.range = .ok range) :
    e.buildIndex feed q token =
      (Outline.build (profileFor feed level range) e.config.traceName token).elim
        (.error .cancelled)
        fun _ => .ok (e.indexOf (feed 0).analysis q (profileFor feed level range)) := by
  unfold buildIndex
  rw [hl, hr]
  cases level
  all_goals
    simp only [Except.mapError, bind, Except.bind, profileFor]
    split
    · next hnone => rw [hnone]; rfl
    · next o ho =>
      rw [ho]
      obtain rfl := build_eq_some ho
      rfl

theorem buildIndex_eq_ok {i : Index α ε} (h : e.buildIndex feed q token = .ok i) :
    ∃ level range, q.level = .ok level ∧ q.range = .ok range ∧
      i = e.indexOf (feed 0).analysis q (profileFor feed level range) := by
  cases hl : q.level with
  | error err => unfold buildIndex at h; rw [hl] at h; cases h
  | ok level =>
    cases hr : q.range with
    | error err => unfold buildIndex at h; rw [hl, hr] at h; cases h
    | ok range =>
      refine ⟨level, range, rfl, rfl, ?_⟩
      rw [buildIndex_eq hl hr] at h
      cases hbuild : Outline.build (profileFor feed level range) e.config.traceName token with
      | none => rw [hbuild] at h; cases h
      | some o =>
        rw [hbuild] at h
        exact (Except.ok.inj h).symm

theorem buildIndex_live {level : Option Nat} {range : Option (Int × Int)} (hl : q.level = .ok level)
    (hr : q.range = .ok range) :
    e.buildIndex feed q .live =
      .ok (e.indexOf (feed 0).analysis q (profileFor feed level range)) := by
  rw [buildIndex_eq hl hr, build_live]
  rfl

theorem sound_buildIndex (h : ∀ n, (feed n).Sound) {i : Index α ε}
    (hi : e.buildIndex feed q token = .ok i) : i.Sound := by
  obtain ⟨level, range, -, -, rfl⟩ := buildIndex_eq_ok hi
  exact ⟨sound_profileFor h level range, .inr ⟨_, rfl⟩⟩

theorem fetchTree_snd (e : Engine α ε) (feed : Feed α ε) (q : Query) (token : Token) :
    (e.fetchTree feed q token).2 = e ∨
      ∃ i, e.buildIndex feed q token = .ok i ∧
        (e.fetchTree feed q token).2 = { e with index := i } := by
  unfold fetchTree
  split
  · exact .inl rfl
  · split
    · next i hi => exact .inr ⟨i, hi, rfl⟩
    · exact .inl rfl

end Building

/-! ## Reachable engines -/

section Reachable

variable [ToString α] [ToString ε] [BEq α] [Grouping ε] [DecidableEq ε]

/-- The engines that calls lead to, on sound providers that may change with every look. -/
inductive Reachable : Engine α ε → Prop where
  | new (p : Provider α ε) (config : Config) : Reachable (Engine.new p config)
  | call {e : Engine α ε} (feed : Feed α ε) (c : Call) :
      Reachable e → (∀ n, (feed n).Sound) → Reachable (e.call feed c).2

/-- Reachable engines have sound indexes. -/
theorem Reachable.index_sound {e : Engine α ε} (h : e.Reachable) : e.index.Sound := by
  induction h with
  | new p config => exact Index.Sound.empty
  | @call e feed c _ hfeed ih =>
    cases c with
    | tree q token =>
      rcases fetchTree_snd e feed q token with hsame | ⟨i, hi, hnew⟩
      · simpa only [Engine.call, hsame] using ih
      · simpa only [Engine.call, hnew] using sound_buildIndex hfeed hi
    | rows q token => exact ih
    | tooltip q token => exact ih
    | styles => exact ih
    | node id time => exact ih

end Reachable

end Engine

/-! ## A small session -/

namespace Sample

/-- A thread with calls of 10, with 4 below, and 5. -/
def profile : Profile Frame Frame :=
  (Profile.addTree {} ⟨"main"⟩ (.graft (.leaf ⟨"draw"⟩ 10) (.leaf ⟨"blend"⟩ 4))).addTree
    ⟨"main"⟩ (.leaf ⟨"read"⟩ 5)

def provider : Provider Frame Frame := .plain "sample" profile

def feed : Feed Frame Frame := fun _ => provider

def engine : Engine Frame Frame := ((Engine.new provider {}).call feed (.tree {} .live)).2

theorem sound_provider : provider.Sound where
  profile := (Profile.sound_empty.addTree _
    ((CallTree.sound_leaf _ (by decide)).graft (CallTree.sound_leaf _ (by decide)))).addTree _
    (CallTree.sound_leaf _ (by decide))
  selection := fun _ _ _ h => nomatch h

theorem reachable_engine : engine.Reachable :=
  .call feed _ (.new provider {}) fun _ => sound_provider

end Sample

end StackProfile
