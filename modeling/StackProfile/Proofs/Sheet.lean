import Mathlib.Data.List.Induction
import StackProfile.Proofs.Session
import StackProfile.Proofs.Walk

/-!
# Row sheets

A live request is answered with the row of each entry from its element and depth, whatever else is
requested: shared walks show the same cells, and elements are not padded.
-/

namespace StackProfile

open Rows (cells gapCells Paint)
open Layout (total)

variable {α ε : Type}

namespace Rows

theorem carryOut_live (wanted : Nat → Bool) (p : Progress) (steps : List (Step α)) :
    (carryOut .live wanted p steps).done = steps ∧ (carryOut .live wanted p steps).finished := by
  induction steps generalizing p with
  | nil => exact ⟨rfl, rfl⟩
  | cons step rest ih =>
    cases step with
    | poll =>
      have h := ih { p with polls := p.polls + 1 }
      simp only [carryOut, Token.live, Bool.false_eq_true, if_false]
      exact ⟨congrArg _ h.1, h.2⟩
    | node depth s =>
      have h := ih (if wanted depth then { p with spans := p.spans + 1 } else p)
      exact ⟨congrArg _ h.1, h.2⟩
    | gap above through start duration =>
      have h := ih p
      exact ⟨congrArg _ h.1, h.2⟩

theorem le_deepestOf {d : Nat} {depths : List Nat} (h : d ∈ depths) : d ≤ deepestOf depths := by
  rw [deepestOf, List.foldl_max_eq_max (List.ne_nil_of_mem h)]
  exact Nat.le_trans (List.le_max_of_mem h) (Nat.le_max_right ..)

end Rows

namespace Engine

/-! ## Grouping by element -/

section Wanted

variable [DecidableEq ε] {o : Outline ε} {ws : List (Wanted ε)} {e e' : ε} {d d' : Nat}
  {id id' : Int}

/-- Each entry is listed under its element and depth. -/
def Serves (o : Outline ε) (ws : List (Wanted ε)) : Prop :=
  ∀ w ∈ ws, ∀ x ∈ w.depths, o.shown? x.2 = some (w.element, x.1)

def Lists (ws : List (Wanted ε)) (d : Nat) (id : Int) : Prop := ∃ w ∈ ws, (d, id) ∈ w.depths

theorem serves_want (h : Serves o ws) (hid : o.shown? id = some (e, d)) :
    Serves o (want e d id ws) := by
  induction ws with
  | nil =>
    intro w hw x hx
    obtain rfl := List.mem_singleton.mp hw
    obtain rfl := List.mem_singleton.mp hx
    exact hid
  | cons w ws ih =>
    obtain ⟨hw, hws⟩ := List.forall_mem_cons.mp h
    unfold want
    split
    · next he =>
      refine List.forall_mem_cons.mpr ⟨fun x hx => ?_, hws⟩
      rcases List.mem_cons.mp hx with rfl | hx
      · rw [hid, he]
      · exact hw x (List.mem_of_mem_filter hx)
    · exact List.forall_mem_cons.mpr ⟨hw, ih hws⟩

theorem lists_want_self (e : ε) (d : Nat) (id : Int) (ws : List (Wanted ε)) :
    Lists (want e d id ws) d id := by
  induction ws with
  | nil => exact ⟨_, List.mem_cons_self, List.mem_cons_self⟩
  | cons w ws ih =>
    unfold want
    split
    · exact ⟨_, List.mem_cons_self, List.mem_cons_self⟩
    · obtain ⟨v, hv, hd⟩ := ih
      exact ⟨v, List.mem_cons_of_mem _ hv, hd⟩

theorem lists_want (hinj : ∀ {i j x}, o.shown? i = some x → o.shown? j = some x → i = j)
    (hs : Serves o ws) (hid : o.shown? id = some (e, d)) (h : Lists ws d' id') :
    Lists (want e d id ws) d' id' := by
  induction ws with
  | nil => obtain ⟨w, hw, -⟩ := h; cases hw
  | cons w ws ih =>
    obtain ⟨hw, hws⟩ := List.forall_mem_cons.mp hs
    obtain ⟨v, hv, hd⟩ := h
    unfold want
    split
    · next he =>
      rcases List.mem_cons.mp hv with rfl | hv
      · refine ⟨_, List.mem_cons_self, ?_⟩
        by_cases hdd : d' = d
        · subst hdd
          have hshown : o.shown? id' = some (e, d') := he ▸ hw _ hd
          rw [hinj hshown hid]
          exact List.mem_cons_self
        · exact List.mem_cons_of_mem _ (List.mem_filter.mpr ⟨hd, by simpa using hdd⟩)
      · exact ⟨v, List.mem_cons_of_mem _ hv, hd⟩
    · rcases List.mem_cons.mp hv with rfl | hv
      · exact ⟨v, List.mem_cons_self, hd⟩
      · obtain ⟨u, hu, hud⟩ := ih hws ⟨v, hv, hd⟩
        exact ⟨u, List.mem_cons_of_mem _ hu, hud⟩

theorem wanted_append (o : Outline ε) (ids : List Int) (id : Int) :
    wanted o (ids ++ [id]) = match o.shown? id with
      | some (e, d) => want e d id (wanted o ids)
      | none => wanted o ids := by
  rw [wanted, List.foldl_append]
  rfl

/-- `wanted` lists the entries that show something, each in its place, and nothing else. -/
theorem wanted_spec (hinj : ∀ {i j x}, o.shown? i = some x → o.shown? j = some x → i = j)
    (ids : List Int) :
    Serves o (wanted o ids) ∧
      ∀ id ∈ ids, ∀ e d, o.shown? id = some (e, d) → Lists (wanted o ids) d id := by
  induction ids using List.reverseRecOn with
  | nil => exact ⟨fun _ hw => (List.not_mem_nil hw).elim, fun _ hid => (List.not_mem_nil hid).elim⟩
  | append_singleton ids id ih =>
    obtain ⟨hserves, hlists⟩ := ih
    rw [wanted_append]
    cases hid : o.shown? id with
    | none =>
      refine ⟨hserves, fun i hi e d hshown => ?_⟩
      rcases List.mem_append.mp hi with hi | hi
      · exact hlists i hi e d hshown
      · rw [List.mem_singleton.mp hi, hid] at hshown
        cases hshown
    | some x =>
      refine ⟨serves_want hserves hid, fun i hi e d hshown => ?_⟩
      rcases List.mem_append.mp hi with hi | hi
      · exact lists_want hinj hserves hid (hlists i hi e d hshown)
      · rw [List.mem_singleton.mp hi] at hshown ⊢
        rw [hid] at hshown
        cases hshown
        exact lists_want_self ..

end Wanted

/-! ## Walking over the elements -/

section Walk

variable [ToString α] [DecidableEq ε] {i : Index α ε} {times : List Int}

theorem walk_live (p : Progress) (ws : List (Wanted ε)) :
    walk i times .live p ws = some (ws.map fun w => (w, planElement i times w)) := by
  induction ws generalizing p with
  | nil => rfl
  | cons w ws ih =>
    have h := Rows.carryOut_live (fun depth => w.depths.any fun d => d.1 == depth) p
      (planElement i times w)
    simp only [walk, h.1, h.2, ih, if_true]
    rfl

variable [ToString ε] {w : Wanted ε} {paint : Paint α} {d : Nat} {id : Int}

/-- Walks are not padded: no entry ends after its last root tree. -/
theorem finish_le_total (h : i.Sound)
    (hw : ∀ x ∈ w.depths, i.outline.shown? x.2 = some (w.element, x.1)) :
    (w.depths.filterMap fun d => i.outline.finish? d.2).max?.getD 0 ≤
      total (i.profile.treesOf w.element) := by
  cases hm : (w.depths.filterMap fun d => i.outline.finish? d.2).max? with
  | none => exact Layout.total_nonneg (h.profile.treesOf w.element)
  | some m =>
    obtain ⟨x, hx, hfin⟩ := List.mem_filterMap.mp (List.max?_mem hm)
    obtain ⟨y, hy, hle⟩ := h.finish?_of_shown? (hw x hx)
    rw [hfin] at hy
    cases hy
    exact hle

theorem row_planElement (h : i.Sound)
    (hw : ∀ x ∈ w.depths, i.outline.shown? x.2 = some (w.element, x.1)) (hd : (d, id) ∈ w.depths) :
    paint.row d (planElement i times w) =
      paint.shown d times (cells (i.profile.treesOf w.element) d) := by
  have hle := finish_le_total h hw
  have hdeep : d ≤ Rows.deepestOf (w.depths.map Prod.fst) :=
    Rows.le_deepestOf (List.mem_map_of_mem hd)
  rw [planElement, Paint.row_poll, Rows.row_plan (h.profile.treesOf w.element) hdeep, gapCells,
    if_neg (by omega), List.append_nil]

end Walk

end Engine

/-! ## The sheet of a request -/

/-- The row of entry `id`: touched and accepted cells of its element and depth. -/
def Index.spans [ToString α] [DecidableEq ε] (i : Index α ε) (paint : Paint α) (times : List Int)
    (id : Int) : List Span :=
  match i.outline.shown? id with
  | some (e, d) => paint.shown d times (cells (i.profile.treesOf e) d)
  | none => []

namespace Engine

section Sheet

variable [ToString α] [ToString ε] [DecidableEq ε] {i : Index α ε} {ws : List (Wanted ε)}
  {id : Int}

theorem rowOf_walked (h : i.Sound) (hs : Serves i.outline ws)
    (hl : ∀ e d, i.outline.shown? id = some (e, d) → Lists ws d id) (paint : Paint α)
    (times : List Int) :
    rowOf paint (ws.map fun w => (w, planElement i times w)) id = ⟨id, i.spans paint times id⟩ := by
  unfold rowOf
  rw [List.findSome?_map]
  have hfound : ∀ w ∈ ws, ∀ x, w.depths.find? (fun d => d.2 == id) = some x →
      paint.row x.1 (planElement i times w) = i.spans paint times id := by
    rintro w hw ⟨d, id'⟩ hx
    have hid : id' = id := by simpa using List.find?_some hx
    subst hid
    have hmem := List.mem_of_find?_eq_some hx
    rw [row_planElement h (hs w hw) hmem, Index.spans, hs w hw _ hmem]
  refine congrArg (Row.mk id) ?_
  cases hf : ws.findSome? _ with
  | some row =>
    obtain ⟨w, hw, hrow⟩ := List.exists_of_findSome?_eq_some hf
    obtain ⟨x, hx, rfl⟩ := Option.map_eq_some_iff.mp hrow
    exact hfound w hw x hx
  | none =>
    unfold Index.spans
    split
    · next e d hid =>
      obtain ⟨w, hw, hd⟩ := hl e d hid
      have hnone := List.findSome?_eq_none_iff.mp hf w hw
      simpa using List.find?_eq_none.mp (Option.map_eq_none_iff.mp hnone) _ hd
    · rfl

/-- A live request is answered with the row of each entry. -/
theorem sheet_live {e : Engine α ε} (h : e.index.Sound) (p : Provider α ε) (r : RowRequest) :
    e.sheet p r .live = .ok ⟨(requestedIds e.index r.items).map fun id =>
      ⟨id, e.index.spans ⟨e.spanOf p, r.filters⟩ r.times id⟩⟩ := by
  obtain ⟨hserves, hlists⟩ := wanted_spec (fun hi hj => h.shown?_injective hi hj)
    (requestedIds e.index r.items)
  simp only [sheet, Token.live, Bool.false_eq_true, if_false]
  rw [← Token.live, walk_live]
  refine congrArg (fun rows => Except.ok (RowSheet.mk rows)) (List.map_congr_left fun id hid => ?_)
  exact rowOf_walked h hserves (hlists id hid) _ _

end Sheet

/-! ## Asking for rows -/

theorem fetchRows_of_sheet [ToString α] [DecidableEq ε] {e : Engine α ε} {feed : Feed α ε}
    {q : Query} {r : RowRequest} {token : Token} {sheet : RowSheet} (hq : RowRequest.read q = .ok r)
    (hs : e.sheet (feed 0) r token = .ok sheet) :
    e.fetchRows feed q token = respond (feed 1).analysis sheet := by
  have hrows : e.rows (feed 0) q token = .ok sheet := by
    unfold rows
    rw [hq]
    exact hs
  unfold fetchRows
  rw [hrows]

theorem mem_requestedIds [ToString α] [ToString ε] {i : Index α ε} (h : i.Sound)
    {items : Option (List Int)} {id : Int} {x : ε × Nat} (hid : ∀ ids ∈ items, id ∈ ids)
    (hx : i.outline.shown? id = some x) : id ∈ requestedIds i items := by
  cases items with
  | some ids => exact List.mem_eraseDups.mpr (hid ids rfl)
  | none =>
    rcases h.outline with he | ⟨traceName, he⟩
    · rw [he] at hx; cases hx
    · rw [he] at hx
      obtain ⟨item, hitem, rfl, -⟩ := Outline.item_of_shown? hx
      have hmem : item.entry ∈ i.outline.entries := he ▸ List.mem_map_of_mem hitem
      exact List.mem_map_of_mem hmem

end Engine

theorem RowSheet.row?_map {ids : List Int} {id : Int} (hid : id ∈ ids) (f : Int → List Span) :
    (RowSheet.mk (ids.map fun id => ⟨id, f id⟩)).row? id = some ⟨id, f id⟩ := by
  unfold row?
  induction ids with
  | nil => cases hid
  | cons n ids ih =>
    rw [List.map_cons, List.find?_cons]
    by_cases hn : n = id
    · simp [hn]
    · simp only [beq_eq_false_iff_ne.mpr hn]
      exact ih ((List.mem_cons.mp hid).resolve_left (Ne.symm hn))

end StackProfile
