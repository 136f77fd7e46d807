import Mathlib.Algebra.Order.Group.Int
import Mathlib.Data.List.Chain
import Mathlib.Data.List.Permutation
import StackProfile.Proofs.SameWeights
import StackProfile.Proofs.Slots

/-!
# Placed siblings

`queue` is the sequence of siblings with their uncut starts. Layout with a limit is the queue up to
the limit, with the last width cut off there.
-/

namespace StackProfile

namespace Layout

variable {α : Type}

/-! ## The queue -/

/-- Siblings with their starts, without a limit. -/
def queue (cursor : Int) (ts : List (CallTree α)) : List (CallTree α × Int) :=
  ts.zip ((ts.map CallTree.weight).scanl satAdd cursor)

section Queue

variable {limit : Option Int} {l cursor : Int} {t : CallTree α} {ts : List (CallTree α)}

theorem queue_cons (cursor : Int) (t : CallTree α) (ts : List (CallTree α)) :
    queue cursor (t :: ts) = (t, cursor) :: queue (satAdd cursor t.weight) ts := by
  rw [queue, List.map_cons, List.scanl_cons, List.zip_cons_cons]
  rfl

theorem le_satAdd_of_le {w : Int} (hl : l ≤ maxTime) (hc : l ≤ cursor) (hw : 0 ≤ w) :
    l ≤ satAdd cursor w := by
  unfold satAdd clampTime
  omega

theorem le_of_mem_queue (hts : ∀ t ∈ ts, 0 ≤ t.weight) (hl : l ≤ maxTime) (hc : l ≤ cursor) :
    ∀ x ∈ queue cursor ts, l ≤ x.2 := by
  induction ts generalizing cursor with
  | nil => exact List.forall_mem_nil _
  | cons t ts ih =>
    obtain ⟨ht, hts⟩ := List.forall_mem_cons.mp hts
    rw [queue_cons]
    exact List.forall_mem_cons.mpr ⟨hc, ih hts (le_satAdd_of_le hl hc ht)⟩

/-! ## Placed siblings -/

/-- Slots form a chain: each starts where the full weight of the one before ends. -/
theorem chain_slotsFrom (limit : Option Int) (cursor : Int) (ts : List (CallTree α)) :
    (∀ s ∈ (slotsFrom limit cursor ts).head?, s.start = cursor) ∧
      (slotsFrom limit cursor ts).IsChain fun a b => b.start = satAdd a.start a.tree.weight := by
  have hnone : ∀ {c : Int}, ∀ s ∈ ([] : List (Slot α)).head?, s.start = c := by
    intro c s hs
    cases hs
  induction ts generalizing cursor with
  | nil => exact ⟨hnone, .nil⟩
  | cons t ts ih =>
    simp only [slotsFrom]
    split
    · exact ⟨hnone, .nil⟩
    · refine ⟨fun s hs => ?_, List.isChain_cons.mpr (ih (satAdd cursor t.weight))⟩
      cases hs
      rfl

theorem slotsFrom_none (cursor : Int) (ts : List (CallTree α)) :
    slotsFrom none cursor ts = (queue cursor ts).map fun x => ⟨x.1, x.2, x.1.weight⟩ := by
  induction ts generalizing cursor with
  | nil => rfl
  | cons t ts ih => rw [slotsFrom, widthAt, ih, queue_cons, List.map_cons]

/-- Stopping at the limit keeps the queue up to the limit. -/
theorem slotsFrom_some (hts : ∀ t ∈ ts, 0 ≤ t.weight) (hl : l ≤ maxTime) :
    slotsFrom (some l) cursor ts = ((queue cursor ts).filter fun x => x.2 < l).map
      fun x => ⟨x.1, x.2, min x.1.weight (l - x.2)⟩ := by
  induction ts generalizing cursor with
  | nil => rfl
  | cons t ts ih =>
    by_cases hc : l ≤ cursor
    · have hnone : ((queue cursor (t :: ts)).filter fun x => x.2 < l) = [] := by
        refine List.filter_eq_nil_iff.mpr fun x hx => ?_
        have hpast := le_of_mem_queue hts hl hc x hx
        simpa using hpast
      rw [slotsFrom_eq_nil hc, hnone, List.map_nil]
    · obtain ⟨-, hts⟩ := List.forall_mem_cons.mp hts
      have hbefore : cursor < l := by omega
      rw [slotsFrom, widthAt, if_neg hc, ih hts, queue_cons,
        List.filter_cons_of_pos (by simpa using hbefore), List.map_cons]

/-- Widths add up to the stretch, or to all weights. -/
theorem sum_width_slotsFrom (hts : ∀ t ∈ ts, 0 ≤ t.weight) (h0 : 0 ≤ cursor) (hc : cursor ≤ l)
    (hl : l ≤ maxTime) : ((slotsFrom (some l) cursor ts).map Slot.width).sum =
      min (l - cursor) (ts.map CallTree.weight).sum := by
  induction ts generalizing cursor with
  | nil =>
    simp only [slotsFrom, List.map_nil, List.sum_nil]
    omega
  | cons t ts ih =>
    have hsum : 0 ≤ (ts.map CallTree.weight).sum :=
      List.sum_nonneg (List.forall_mem_map.mpr (List.forall_mem_cons.mp hts).2)
    obtain ⟨ht, hts⟩ := List.forall_mem_cons.mp hts
    rw [List.map_cons, List.sum_cons]
    by_cases hfull : l ≤ cursor
    · rw [slotsFrom_eq_nil hfull, List.map_nil, List.sum_nil]
      omega
    · rw [slotsFrom, widthAt, if_neg hfull]
      simp only [List.map_cons, List.sum_cons]
      by_cases hfits : t.weight ≤ l - cursor
      · rw [satAdd_of_le (by omega) (by omega), ih hts (by omega) (by omega)]
        omega
      · rw [slotsFrom_eq_nil, List.map_nil, List.sum_nil]
        · omega
        · rw [satAdd_eq_min h0 ht]
          omega

theorem slotsFrom_within (hts : ∀ t ∈ ts, 0 ≤ t.weight) (h0 : 0 ≤ cursor) :
    ∀ s ∈ slotsFrom (some l) cursor ts,
      0 ≤ s.width ∧ s.width ≤ s.tree.weight ∧ s.finish ≤ l := by
  induction ts generalizing cursor with
  | nil => exact List.forall_mem_nil _
  | cons t ts ih =>
    obtain ⟨ht, hts⟩ := List.forall_mem_cons.mp hts
    simp only [slotsFrom]
    split
    · exact List.forall_mem_nil _
    · next width hwidth =>
      obtain ⟨hnonneg, hle, hend⟩ := widthAt_eq_some ht hwidth
      have hend := hend l rfl
      refine List.forall_mem_cons.mpr ⟨⟨hnonneg, hle, ?_⟩, ih hts (satAdd_nonneg h0 ht)⟩
      rw [Slot.finish, satAdd_eq_min h0 hnonneg]
      omega

end Queue

end Layout

open Layout (ordered slots queue)

variable {α : Type} [ToString α]

/-- Siblings share a stretch by descending weight, then name. Each starts where the full weight of
the one before ends. Without a limit none is cut off; with one, those starting before it are placed,
at most as wide as they weigh, and widths add up to the stretch or to all weights. -/
theorem siblings_share_stretch {trees : List (CallTree α)} (hw : ∀ t ∈ trees, 0 ≤ t.weight)
    {start : Int} (hs : 0 ≤ start) {limit : Option Int}
    (hl : ∀ l ∈ limit, start ≤ l ∧ l ≤ maxTime) :
    ((ordered trees).Perm trees ∧ (ordered trees).Pairwise fun a b =>
        b.weight < a.weight ∨ a.weight = b.weight ∧ a.name ≤ b.name) ∧
      (∀ s ∈ (slots trees start limit).head?, s.start = start) ∧
      ((slots trees start limit).IsChain fun a b => b.start = satAdd a.start a.tree.weight) ∧
      (limit = none → (slots trees start limit).map Slot.tree = ordered trees ∧
        ∀ s ∈ slots trees start limit, s.width = s.tree.weight) ∧
      ∀ l, limit = some l →
        ((slots trees start limit).map fun s => (s.tree, s.start)) =
            ((queue start (ordered trees)).filter fun x => x.2 < l) ∧
          (∀ s ∈ slots trees start limit,
            0 ≤ s.width ∧ s.width ≤ s.tree.weight ∧ s.finish ≤ l) ∧
          ((slots trees start limit).map Slot.width).sum =
            min (l - start) (trees.map CallTree.weight).sum := by
  have hperm : (ordered trees).Perm trees := Layout.ordered_perm trees
  have hweights : ∀ t ∈ ordered trees, 0 ≤ t.weight := fun t ht => hw t (hperm.mem_iff.mp ht)
  obtain ⟨hfirst, hchain⟩ := Layout.chain_slotsFrom limit start (ordered trees)
  refine ⟨⟨hperm, (Layout.pairwise_ordered trees).imp Layout.inOrder_iff.mp⟩, hfirst, hchain,
    ?_, ?_⟩
  · rintro rfl
    rw [slots, Layout.slotsFrom_none]
    refine ⟨?_, List.forall_mem_map.mpr fun x _ => rfl⟩
    rw [List.map_map]
    exact List.map_fst_zip (by simp)
  · rintro l rfl
    obtain ⟨hstart, hmax⟩ := hl l rfl
    refine ⟨?_, Layout.slotsFrom_within hweights hs, ?_⟩
    · rw [slots, Layout.slotsFrom_some hweights hmax, List.map_map]
      exact List.map_id _
    · rw [slots, Layout.sum_width_slotsFrom hweights hs hstart hmax,
        (hperm.map CallTree.weight).sum_eq]

/-- Four siblings on a stretch of 5, by weight and name, the last two without room; then up to the
greatest time. -/
theorem siblings_share_stretch_crowded :
    let trees : List (CallTree String) := [.leaf "y" 3, .leaf "z" 0, .leaf "x" 4, .leaf "a" 3]
    let heavy : List (CallTree String) := [.leaf "b" 0, .leaf "a" maxTime]
    (∀ t ∈ trees, 0 ≤ t.weight) ∧
      ((slots trees 10 (some 15)).map fun s => (s.tree.name, s.start, s.width)) =
        [("x", 10, 4), ("a", 14, 1)] ∧
      ((slots trees 10 (some 15)).map Slot.width).sum = min (15 - 10) 10 ∧
      ((slots heavy 7 (some maxTime)).map Slot.width).sum = maxTime - 7 := by
  intro trees heavy
  have hweights : ∀ t ∈ trees, 0 ≤ t.weight := by simp [trees, CallTree.leaf, CallTree.weight]
  have hheavy : ∀ t ∈ heavy, 0 ≤ t.weight := by
    simp [heavy, CallTree.leaf, CallTree.weight, maxTime]
  refine ⟨hweights, by cbv, ?_, ?_⟩
  · exact ((siblings_share_stretch hweights (show (0 : Int) ≤ 10 by decide)
      (show ∀ l ∈ some 15, 10 ≤ l ∧ l ≤ maxTime by decide)).2.2.2.2 15 rfl).2.2
  · have hsum := ((siblings_share_stretch hheavy (show (0 : Int) ≤ 7 by decide)
      (show ∀ l ∈ some maxTime, 7 ≤ l ∧ l ≤ maxTime by decide)).2.2.2.2 maxTime rfl).2.2
    rw [hsum]
    decide

end StackProfile
