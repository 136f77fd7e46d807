import StackProfile.Outline

/-!
# Imperative outlines

`Builder` makes an outline element by element, with a poll before each and writes to entries made
earlier, `none` for a write out of range. It equals `Outline.build`.
-/

namespace StackProfile

variable {α ε : Type}

/-- Whether `token` is cancelled at one of `moments`. -/
def Token.stops (token : Token) (moments : List Progress) : Bool := moments.any token.cancelledAt

@[simp] theorem Token.stops_cons (token : Token) (m : Progress) (ms : List Progress) :
    token.stops (m :: ms) = (token.cancelledAt m || token.stops ms) := rfl

@[simp] theorem Token.stops_append (token : Token) (ms ns : List Progress) :
    token.stops (ms ++ ns) = (token.stops ms || token.stops ns) := List.any_append

@[simp] theorem Token.stops_live (ms : List Progress) : Token.live.stops ms = false := by
  simp [stops, live]

namespace Outline

def looks (made count : Nat) : List Progress := (List.range' made count).map fun n => { polls := n }

theorem looks_succ (made count : Nat) :
    looks made (count + 1) = { polls := made } :: looks (made + 1) count := rfl

theorem looks_add (made m n : Nat) : looks made (m + n) = looks made m ++ looks (made + m) n := by
  rw [looks, looks, looks, ← List.map_append, List.range'_append_1]

/-- The polls of an outline, one before each element. -/
def moments (p : Profile α ε) : List Progress := looks 0 p.branches.length

/-! ## Ends of depths -/

/-- Overwrites the first `height` ends. -/
def fill? (height : Nat) (finish : Int) (ends : List Int) : Option (List Int) :=
  if height ≤ ends.length then some (List.replicate height finish ++ ends.drop height) else none

/-- The ends of depths, padded where a tree is higher than those before. -/
def depthEndsFrom? (cursor : Int) (ends : List Int) : List (CallTree α) → Option (Int × List Int)
  | [] => some (cursor, ends)
  | t :: ts => do
    let cursor := satAdd cursor t.weight
    let ends ← fill? t.height cursor (ends ++ List.replicate (t.height - ends.length) 0)
    depthEndsFrom? cursor ends ts

theorem fill?_eq (height : Nat) (finish : Int) (ends : List Int) :
    fill? height finish (ends ++ List.replicate (height - ends.length) 0) =
      some (List.replicate height finish ++ ends.drop height) := by
  have hlong : height ≤ (ends ++ List.replicate (height - ends.length) 0).length := by
    rw [List.length_append, List.length_replicate]
    omega
  have hdrop : (ends ++ List.replicate (height - ends.length) (0 : Int)).drop height =
      ends.drop height := by
    rw [List.drop_append, List.drop_replicate, Nat.sub_self, List.replicate_zero, List.append_nil]
  rw [fill?, if_pos hlong, hdrop]

theorem depthEndsFrom?_eq (cursor : Int) (ends : List Int) (ts : List (CallTree α)) :
    depthEndsFrom? cursor ends ts = some (depthEndsFrom cursor ends ts) := by
  induction ts generalizing cursor ends with
  | nil => rfl
  | cons t ts ih =>
    simp only [depthEndsFrom?, fill?_eq, Option.bind_eq_bind, Option.bind_some, ih, depthEndsFrom]

/-! ## Element by element -/

/-- An outline in progress. -/
structure Builder (ε : Type) where
  items : List (OutlineItem ε)
  polls : Nat := 0

namespace Builder

def close? (b : Builder ε) (place : Nat) (finish : Int) : Option (Builder ε) :=
  if place < b.items.length then
    some { b with
      items := b.items.modify place fun i => { i with entry := { i.entry with finish } } }
  else none

variable [ToString α] [ToString ε]

mutual

/-- Adds an element and everything below it; the end is `none` if cancelled. -/
def element (token : Token) (parentId : Int) (made : Builder ε) : Branch α ε →
    Option (Builder ε × Option Int)
  | .node e ts bs =>
    if token.cancelledAt { polls := made.polls } then some (made, none)
    else do
      let id := made.items.length
      let level : OutlineItem ε := { entry := { id, parentId, name := toString e, kind := .level } }
      match ← forest token id { items := made.items ++ [level], polls := made.polls + 1 } bs with
      | (made, none) => some (made, none)
      | (made, some below) =>
        let (cursor, ends) ← depthEndsFrom? 0 [] (Layout.ordered ts)
        let functions := functionItems e id made.items.length 0 ends
        let finish := max below cursor
        let made ← { made with items := made.items ++ functions }.close? id finish
        some (made, some finish)

/-- Adds siblings below `parentId`, with their latest end. -/
def forest (token : Token) (parentId : Int) (made : Builder ε) : List (Branch α ε) →
    Option (Builder ε × Option Int)
  | [] => some (made, some 0)
  | b :: bs => do
    match ← element token parentId made b with
    | (made, none) => some (made, none)
    | (made, some first) =>
      match ← forest token parentId made bs with
      | (made, none) => some (made, none)
      | (made, some rest) => some (made, some (max first rest))

end

/-- The outline of a profile, with the builder that made it. -/
def outline (p : Profile α ε) (traceName : String) (token : Token) :
    Option (Builder ε × Option (Outline ε)) := do
  let trace : OutlineItem ε :=
    { entry := { id := 0, parentId := Entry.noParent, name := traceName, kind := .trace } }
  match ← forest token 0 { items := [trace] } p.roots with
  | (made, none) => some (made, none)
  | (made, some finish) =>
    let made ← made.close? 0 finish
    some (made, some ⟨made.items.map OutlineItem.entry,
      made.items.filterMap fun i => i.shows.map fun shown => (i.entry.id, shown)⟩)

/-! ## Entries of an element -/

omit [ToString α] [ToString ε] in
theorem close?_append (before after : List (OutlineItem ε)) (i : OutlineItem ε) (polls : Nat)
    (finish : Int) :
    (Builder.mk (before ++ i :: after) polls).close? before.length finish =
      some ⟨before ++ { i with entry := { i.entry with finish } } :: after, polls⟩ := by
  have hplace : before.length < (before ++ i :: after).length := by
    rw [List.length_append, List.length_cons]
    omega
  rw [close?, if_pos hplace, List.modify_eq_take_drop, List.take_left, List.drop_left]
  rfl

mutual

theorem element_cases (token : Token) (parentId : Int) (made : Builder ε) : (b : Branch α ε) →
    (token.stops (looks made.polls b.all.length) ∧
        ∃ half, element token parentId made b = some (half, none)) ∨
      ¬ token.stops (looks made.polls b.all.length) ∧
        element token parentId made b =
          some (⟨made.items ++ branchItems parentId made.items.length b,
            made.polls + b.all.length⟩, some (branchEnd b))
  | .node e ts bs => by
    rw [Branch.all, List.length_cons, looks_succ, Token.stops_cons, element]
    by_cases hfirst : token.cancelledAt { polls := made.polls }
    · rw [if_pos hfirst]
      exact .inl ⟨by simp [hfirst], made, rfl⟩
    · rw [if_neg hfirst]
      let level : OutlineItem ε :=
        { entry := { id := made.items.length, parentId, name := toString e, kind := .level } }
      rcases forest_cases token made.items.length
          { items := made.items ++ [level], polls := made.polls + 1 } bs with
        ⟨hstop, half, hforest⟩ | ⟨hlive, hforest⟩
      · refine .inl ⟨by simp [hstop], half, ?_⟩
        simp only [level, hforest, Option.bind_eq_bind, Option.bind_some]
      · refine .inr ⟨by simp [hfirst, hlive], ?_⟩
        simp only [level] at hforest
        have hplace : made.items.length + ((forestItems (made.items.length : Int)
            (made.items.length + 1) bs).length + 1) = made.items.length + 1 +
              (forestItems (made.items.length : Int) (made.items.length + 1) bs).length := by omega
        have hlooks : made.polls + 1 + (Branch.allIn bs).length =
            made.polls + ((Branch.allIn bs).length + 1) := by omega
        simp only [hforest, depthEndsFrom?_eq, Option.bind_eq_bind, Option.bind_some,
          List.append_assoc, List.cons_append, List.nil_append, close?_append,
          List.length_append, List.length_cons, List.length_nil, hplace, hlooks]
        rfl

/-- A forest adds its entries and polls, or stops at the first cancelled poll. -/
theorem forest_cases (token : Token) (parentId : Int) (made : Builder ε) :
    (bs : List (Branch α ε)) →
    (token.stops (looks made.polls (Branch.allIn bs).length) ∧
        ∃ half, forest token parentId made bs = some (half, none)) ∨
      ¬ token.stops (looks made.polls (Branch.allIn bs).length) ∧
        forest token parentId made bs =
          some (⟨made.items ++ forestItems parentId made.items.length bs,
            made.polls + (Branch.allIn bs).length⟩, some (forestEnd bs))
  | [] => by
    refine .inr ⟨by simp [Branch.allIn, looks, Token.stops], ?_⟩
    simp [forest, forestItems, forestEnd, Branch.allIn]
  | b :: bs => by
    rw [Branch.allIn, List.length_append, looks_add, Token.stops_append, forest]
    rcases element_cases token parentId made b with ⟨hstop, half, hb⟩ | ⟨hlive, hb⟩
    · refine .inl ⟨by simp [hstop], half, ?_⟩
      simp only [hb, Option.bind_eq_bind, Option.bind_some]
    · simp only [hb, Option.bind_eq_bind, Option.bind_some]
      rcases forest_cases token parentId ⟨made.items ++ branchItems parentId made.items.length b,
          made.polls + b.all.length⟩ bs with ⟨hstop, half, hbs⟩ | ⟨hrest, hbs⟩
      · refine .inl ⟨by simp [hstop], half, ?_⟩
        simp only [hbs, Option.bind_some]
      · refine .inr ⟨by simp [hlive, hrest], ?_⟩
        simp only [hbs, Option.bind_some]
        simp only [forestItems, forestEnd, List.append_assoc, List.length_append, Nat.add_assoc]

end

end Builder

variable [ToString α] [ToString ε]

theorem build_eq (p : Profile α ε) (traceName : String) (token : Token) :
    build p traceName token = if token.stops (moments p) then none else some (of p traceName) := by
  have hmoments : token.stops (moments p) =
      (List.range p.branches.length).any fun n => token.cancelledAt { polls := n } := by
    rw [moments, looks, Token.stops, List.any_map, List.range_eq_range']
    rfl
  rw [build, hmoments]

/-- The imperative outline is `build`. -/
theorem outline_eq_build (p : Profile α ε) (traceName : String) (token : Token) :
    (Builder.outline p traceName token).map Prod.snd = some (build p traceName token) := by
  have hcases := Builder.forest_cases token 0
    { items := [{ entry := { id := 0, parentId := Entry.noParent, name := traceName,
                             kind := .trace } }] } p.roots
  rw [build_eq, moments, Builder.outline]
  rcases hcases with ⟨hstop, half, hforest⟩ | ⟨hlive, hforest⟩
  · have hstop : token.stops (looks 0 p.branches.length) := hstop
    simp only [hforest, if_pos hstop]
    rfl
  · have hlive : ¬ token.stops (looks 0 p.branches.length) := hlive
    simp only [hforest, if_neg hlive]
    rfl

end Outline

end StackProfile
