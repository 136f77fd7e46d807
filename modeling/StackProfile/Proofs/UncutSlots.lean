import Mathlib.Logic.Function.Iterate
import StackProfile.Proofs.Cells
import StackProfile.Proofs.SameWeights

/-!
# Uncut slots

On covering trees that end in range, layout cuts nothing off and drops no node of positive weight.
-/

namespace StackProfile

open CallTree (nodesAt DistinctAll)

variable {α : Type}

/-! ## Weights that cover their children -/

namespace CallTree

/-- No node weighs less than its children together. -/
inductive Covering : CallTree α → Prop where
  | node {p : α} {w : Int} {h : Nat} {cs : List (CallTree α)} {xs : List (List (CallTree α))}
      (sum_le : (cs.map weight).sum ≤ w) (children : ∀ c ∈ cs, Covering c) :
      Covering (.node p w h cs xs)

variable {t c : CallTree α} {ts : List (CallTree α)}

theorem Covering.sum_le (h : t.Covering) : (t.children.map weight).sum ≤ t.weight := by
  cases h; assumption

theorem Covering.children (h : t.Covering) : ∀ c ∈ t.children, c.Covering := by
  cases h; assumption

theorem weight_le_sum (h : ∀ t ∈ ts, t.Sound) (ht : t ∈ ts) : t.weight ≤ (ts.map weight).sum :=
  List.single_le_sum (weights_nonneg h) _ (List.mem_map_of_mem ht)

theorem weight_le_of_mem_children (hs : t.Sound) (ht : t.Covering) (hc : c ∈ t.children) :
    c.weight ≤ t.weight := (weight_le_sum hs.children hc).trans ht.sum_le

section Paths

variable [BEq α] {path : List α}

theorem covering_nodesAt (h : ∀ t ∈ ts, t.Covering) : ∀ n ∈ nodesAt path ts, n.Covering :=
  forall_mem_nodesAt (fun _ ht => ht.children) h

theorem distinct_nodesAt (h : ∀ t ∈ ts, t.Distinct) : ∀ n ∈ nodesAt path ts, n.Distinct :=
  forall_mem_nodesAt (fun _ ht => ht.children.trees) h

end Paths

end CallTree

/-- As wide as its tree weighs, over a covering tree. -/
structure Slot.Uncut (s : Slot α) : Prop extends s.Sound where
  covering : s.tree.Covering
  width_eq : s.width = s.tree.weight
  end_le : s.start + s.tree.weight ≤ maxTime

theorem Slot.Uncut.finish_eq {s : Slot α} (h : s.Uncut) : s.finish = s.start + s.tree.weight := by
  have hstart := h.start_nonneg
  have hweight := h.tree.weight_nonneg
  rw [Slot.finish, h.width_eq, satAdd_of_le (by omega) h.end_le]

namespace Layout

/-! ## Room for siblings -/

section Room

variable {limit : Option Int} {cursor : Int} {t : CallTree α} {ts : List (CallTree α)}

/-- Room for `ts` from `cursor` on, before the limit. -/
structure HasRoom (limit : Option Int) (cursor : Int) (ts : List (CallTree α)) : Prop where
  sound : ∀ t ∈ ts, t.Sound
  start_nonneg : 0 ≤ cursor
  end_le : cursor + (ts.map CallTree.weight).sum ≤ maxTime
  end_le_limit : ∀ l ∈ limit, cursor + (ts.map CallTree.weight).sum ≤ l

theorem HasRoom.tail (h : HasRoom limit cursor (t :: ts)) :
    HasRoom limit (cursor + t.weight) ts := by
  obtain ⟨hsound, hstart, hend, hlimit⟩ := h
  obtain ⟨ht, hts⟩ := List.forall_mem_cons.mp hsound
  rw [List.map_cons, List.sum_cons, ← Int.add_assoc] at hend hlimit
  have hweight := ht.weight_nonneg
  exact ⟨hts, by omega, hend, hlimit⟩

theorem HasRoom.slotsFrom_cons (h : HasRoom limit cursor (t :: ts)) :
    slotsFrom limit cursor (t :: ts) =
        ⟨t, cursor, t.weight⟩ :: slotsFrom limit (cursor + t.weight) ts ∨
      slotsFrom limit cursor (t :: ts) = [] ∧ ∀ u ∈ t :: ts, u.weight ≤ 0 := by
  have hfirst : t.weight ≤ ((t :: ts).map CallTree.weight).sum :=
    CallTree.weight_le_sum h.sound List.mem_cons_self
  have hstart := h.start_nonneg
  have hweight := (h.sound t List.mem_cons_self).weight_nonneg
  have hnext : satAdd cursor t.weight = cursor + t.weight :=
    satAdd_of_le (by omega) (by have := h.end_le; omega)
  cases limit with
  | none => exact .inl (by rw [slotsFrom, widthAt, hnext])
  | some l =>
    have hend := h.end_le_limit l rfl
    by_cases hl : l ≤ cursor
    · refine .inr ⟨slotsFrom_eq_nil hl _, fun u hu => ?_⟩
      have hu := CallTree.weight_le_sum h.sound hu
      omega
    · have hwidth : widthAt (some l) cursor t.weight = some t.weight := by
        rw [widthAt, if_neg hl, Int.min_eq_left (by omega)]
      exact .inl (by rw [slotsFrom, hwidth, hnext])

/-- With room, no slot is cut off. -/
theorem HasRoom.uncut (h : HasRoom limit cursor ts) (hts : ∀ t ∈ ts, t.Covering) :
    ∀ s ∈ slotsFrom limit cursor ts, s.Uncut ∧ cursor ≤ s.start ∧
      s.start + s.tree.weight ≤ cursor + (ts.map CallTree.weight).sum := by
  induction ts generalizing cursor with
  | nil => exact nofun
  | cons t ts ih =>
    obtain ⟨ht, hts⟩ := List.forall_mem_cons.mp hts
    rcases h.slotsFrom_cons with hcons | ⟨hnil, -⟩
    · have hstart := h.start_nonneg
      have hend := h.end_le
      have hsound := h.sound t List.mem_cons_self
      have hweight := hsound.weight_nonneg
      have hrest := List.sum_nonneg (CallTree.weights_nonneg h.tail.sound)
      rw [List.map_cons, List.sum_cons] at hend ⊢
      rw [hcons]
      refine List.forall_mem_cons.mpr ⟨⟨?_, Int.le_refl _, ?_⟩, fun s hs => ?_⟩
      · exact ⟨⟨hsound, hstart, by simp only; omega, hweight⟩, ht, rfl, by simp only; omega⟩
      · simp only
        omega
      · obtain ⟨huncut, hle, hin⟩ := ih h.tail hts s hs
        exact ⟨huncut, by omega, by omega⟩
    · rw [hnil]
      exact nofun

/-- With room, every tree of positive weight has a slot. -/
theorem HasRoom.exists_slot (h : HasRoom limit cursor ts) (ht : t ∈ ts) (hpos : 0 < t.weight) :
    ∃ s ∈ slotsFrom limit cursor ts, s.tree = t := by
  induction ts generalizing cursor with
  | nil => cases ht
  | cons u ts ih =>
    rcases h.slotsFrom_cons with hcons | ⟨-, hzero⟩
    · rw [hcons]
      rcases List.mem_cons.mp ht with rfl | ht
      · exact ⟨_, List.mem_cons_self, rfl⟩
      · obtain ⟨s, hs, hst⟩ := ih h.tail ht
        exact ⟨s, List.mem_cons_of_mem _ hs, hst⟩
    · exact absurd hpos (Int.not_lt.mpr (hzero t ht))

theorem map_tree_slotsFrom_sublist (limit : Option Int) (cursor : Int) (ts : List (CallTree α)) :
    ((slotsFrom limit cursor ts).map Slot.tree).Sublist ts := by
  induction ts generalizing cursor with
  | nil => exact .slnil
  | cons t ts ih =>
    unfold slotsFrom
    split
    · exact List.nil_sublist _
    · exact (ih _).cons_cons t

end Room

/-! ## Roots and children -/

section Placement

variable [ToString α] {roots : List (CallTree α)} {s c : Slot α}

theorem sum_weight_ordered (ts : List (CallTree α)) :
    ((ordered ts).map CallTree.weight).sum = (ts.map CallTree.weight).sum :=
  ((ordered_perm ts).map CallTree.weight).sum_eq

/-- Tidy covering trees that end in range. -/
structure Fits [BEq α] (roots : List (CallTree α)) : Prop extends Tidy roots where
  covering : ∀ t ∈ roots, t.Covering
  sum_le : (roots.map CallTree.weight).sum ≤ maxTime

theorem Fits.hasRoom [BEq α] (h : Fits roots) : HasRoom none 0 (ordered roots) where
  sound := sound_ordered h.sound
  start_nonneg := Int.le_refl 0
  end_le := by
    rw [sum_weight_ordered, Int.zero_add]
    exact h.sum_le
  end_le_limit := nofun

theorem hasRoom_children (h : s.Uncut) :
    HasRoom (some s.finish) s.start (ordered s.tree.children) := by
  have hsum := h.covering.sum_le
  have hend := h.end_le
  refine ⟨sound_ordered h.tree.children, h.start_nonneg, ?_, fun l hl => ?_⟩
  · rw [sum_weight_ordered]
    omega
  · obtain rfl := Option.some.inj hl
    rw [sum_weight_ordered, h.finish_eq]
    omega

theorem uncut_childSlots (h : s.Uncut) (hc : c ∈ childSlots s) :
    c.Uncut ∧ s.start ≤ c.start ∧ c.start + c.tree.weight ≤ s.start + s.tree.weight := by
  have hcovering : ∀ t ∈ ordered s.tree.children, t.Covering := fun t ht =>
    h.covering.children t (mem_ordered.mp ht)
  obtain ⟨huncut, hstart, hend⟩ := (hasRoom_children h).uncut hcovering c hc
  have hsum := h.covering.sum_le
  rw [sum_weight_ordered] at hend
  exact ⟨huncut, hstart, by omega⟩

theorem exists_childSlot (h : s.Uncut) {t : CallTree α} (ht : t ∈ s.tree.children)
    (hpos : 0 < t.weight) : ∃ c ∈ childSlots s, c.tree = t :=
  (hasRoom_children h).exists_slot (mem_ordered.mpr ht) hpos

variable [BEq α] [LawfulBEq α]

theorem nodup_payload_slots {ts : List (CallTree α)} (h : DistinctAll ts) (start : Int)
    (limit : Option Int) : ((slots ts start limit).map fun s => s.tree.payload).Nodup := by
  have hsub := (map_tree_slotsFrom_sublist limit start (ordered ts)).map CallTree.payload
  rw [List.map_map] at hsub
  exact hsub.nodup (((ordered_perm ts).map CallTree.payload).nodup_iff.mpr h.nodup)

end Placement

/-! ## Slots at paths -/

section Paths

variable [ToString α]

/-- The child slots, with their paths. -/
def descend (level : List (List α × Slot α)) : List (List α × Slot α) :=
  level.flatMap fun x => (childSlots x.2).map fun c => (x.1 ++ [c.tree.payload], c)

def slotsAt (roots : List (CallTree α)) (depth : Nat) : List (List α × Slot α) :=
  descend^[depth] ((slots roots 0 none).map fun s => ([s.tree.payload], s))

def startAt [BEq α] (roots : List (CallTree α)) (path : List α) : Int :=
  (((slotsAt roots (path.length - 1)).lookup path).map Slot.start).getD 0

variable {roots : List (CallTree α)} {depth : Nat} {level : List (List α × Slot α)}
  {x : List α × Slot α} {n : CallTree α} {path : List α}

theorem slotsAt_succ (roots : List (CallTree α)) (depth : Nat) :
    slotsAt roots (depth + 1) = descend (slotsAt roots depth) :=
  Function.iterate_succ_apply' ..

theorem mem_descend : x ∈ descend level ↔
    ∃ y ∈ level, ∃ c ∈ childSlots y.2, (y.1 ++ [c.tree.payload], c) = x := by
  simp only [descend, List.mem_flatMap, List.mem_map]

theorem nodup_descend [BEq α] [LawfulBEq α] (hkeys : (level.map Prod.fst).Nodup)
    (h : ∀ x ∈ level, DistinctAll x.2.tree.children) :
    ((descend level).map Prod.fst).Nodup := by
  rw [descend, List.map_flatMap, List.nodup_flatMap]
  refine ⟨fun x hx => ?_, (List.pairwise_map.mp hkeys).imp fun hne => ?_⟩
  · have hpayloads := nodup_payload_slots (h x hx) x.2.start (some x.2.finish)
    rw [List.map_map]
    have hkey := hpayloads.map (f := fun p => x.1 ++ [p]) fun a b hab => by simpa using hab
    rwa [List.map_map] at hkey
  · intro p hp hp'
    simp only [List.map_map, List.mem_map, Function.comp_apply] at hp hp'
    obtain ⟨c, -, rfl⟩ := hp
    obtain ⟨d, -, heq⟩ := hp'
    exact hne (List.append_inj_left' heq rfl).symm

variable [BEq α] [LawfulBEq α]

theorem Fits.mem_slotsAt (h : Fits roots) (hx : x ∈ slotsAt roots depth) :
    x.2.Uncut ∧ x.1.length = depth + 1 ∧ x.2.tree ∈ nodesAt x.1 roots := by
  induction depth generalizing x with
  | zero =>
    obtain ⟨s, hs, rfl⟩ := List.mem_map.mp hx
    have hcovering : ∀ t ∈ ordered roots, t.Covering := fun t ht =>
      h.covering t (mem_ordered.mp ht)
    have htree : s.tree ∈ roots := mem_ordered.mp (tree_mem_of_mem_slotsFrom hs)
    exact ⟨(h.hasRoom.uncut hcovering s hs).1, rfl,
      List.mem_filter.mpr ⟨htree, beq_self_eq_true _⟩⟩
  | succ depth ih =>
    rw [slotsAt_succ] at hx
    obtain ⟨y, hy, c, hc, rfl⟩ := mem_descend.mp hx
    obtain ⟨huncut, hlength, hnode⟩ := ih hy
    have hne : y.1 ≠ [] := List.ne_nil_of_length_eq_add_one hlength
    refine ⟨(uncut_childSlots huncut hc).1, by simp [hlength], ?_⟩
    exact (CallTree.mem_nodesAt_append hne).mpr
      ⟨_, hnode, mem_children_of_mem_childSlots hc, beq_self_eq_true _⟩

theorem Fits.exists_slotAt (h : Fits roots) (hn : n ∈ nodesAt path roots) (hpos : 0 < n.weight)
    (hlength : path.length = depth + 1) : ∃ s, (path, s) ∈ slotsAt roots depth ∧ s.tree = n := by
  induction depth generalizing path n with
  | zero =>
    obtain ⟨f, rfl⟩ := List.length_eq_one_iff.mp hlength
    obtain ⟨ht, hf⟩ := List.mem_filter.mp hn
    obtain ⟨s, hs, rfl⟩ := h.hasRoom.exists_slot (mem_ordered.mpr ht) hpos
    exact ⟨s, List.mem_map.mpr ⟨s, hs, by rw [beq_iff_eq.mp hf]⟩, rfl⟩
  | succ depth ih =>
    obtain ⟨path, f, rfl⟩ : ∃ p f, path = p ++ [f] :=
      (List.eq_nil_or_concat' path).resolve_left (by rintro rfl; cases hlength)
    rw [List.length_append, List.length_singleton, Nat.add_right_cancel_iff] at hlength
    have hne : path ≠ [] := List.ne_nil_of_length_eq_add_one hlength
    obtain ⟨m, hm, hchild, hf⟩ := (CallTree.mem_nodesAt_append hne).mp hn
    have hle := CallTree.weight_le_of_mem_children (CallTree.sound_nodesAt h.sound m hm)
      (CallTree.covering_nodesAt h.covering m hm) hchild
    obtain ⟨s, hs, rfl⟩ := ih hm (by omega) hlength
    obtain ⟨c, hc, rfl⟩ := exists_childSlot (h.mem_slotsAt hs).1 hchild hpos
    refine ⟨c, ?_, rfl⟩
    rw [slotsAt_succ]
    exact mem_descend.mpr ⟨_, hs, c, hc, by rw [beq_iff_eq.mp hf]⟩

theorem Fits.nodup_slotsAt (h : Fits roots) (depth : Nat) :
    ((slotsAt roots depth).map Prod.fst).Nodup := by
  induction depth with
  | zero =>
    have hpayloads := (nodup_payload_slots h.distinct 0 none).map (f := fun p => [p])
      fun a b hab => List.singleton_inj.mp hab
    rw [List.map_map] at hpayloads
    rw [slotsAt, Function.iterate_zero, id, List.map_map]
    exact hpayloads
  | succ depth ih =>
    rw [slotsAt_succ]
    refine nodup_descend ih fun x hx => ?_
    have hnode := (h.mem_slotsAt hx).2.2
    exact (CallTree.distinct_nodesAt h.distinct.trees _ hnode).children

theorem Fits.startAt_eq (h : Fits roots) (hx : x ∈ slotsAt roots depth) :
    startAt roots x.1 = x.2.start := by
  obtain ⟨path, s⟩ := x
  have hlength : path.length - 1 = depth := by rw [(h.mem_slotsAt hx).2.1]; rfl
  have hkeys := h.nodup_slotsAt depth
  obtain ⟨before, after, hsplit⟩ := List.append_of_mem hx
  have hlookup : (slotsAt roots depth).lookup path = some s := by
    refine List.lookup_eq_some_iff.mpr ⟨before, after, hsplit, fun y hy => ?_⟩
    rw [hsplit, List.map_append, List.map_cons] at hkeys
    have hnot := (List.nodup_append'.mp hkeys).2.2
    simp only [bne_iff_ne, ne_eq]
    rintro rfl
    exact hnot (List.mem_map_of_mem hy) List.mem_cons_self
  rw [startAt, hlength, hlookup]
  rfl

theorem Fits.startAt_inside (h : Fits roots) (hp : path ≠ []) {f : α}
    (hn : n ∈ nodesAt (path ++ [f]) roots) (hpos : 0 < n.weight) :
    ∃ m ∈ nodesAt path roots, n ∈ m.children ∧ startAt roots path ≤ startAt roots (path ++ [f]) ∧
      startAt roots (path ++ [f]) + n.weight ≤ startAt roots path + m.weight := by
  obtain ⟨g, rest, rfl⟩ := List.exists_cons_of_ne_nil hp
  have hlength : (g :: rest ++ [f]).length = rest.length + 1 + 1 := by simp
  obtain ⟨s, hs, rfl⟩ := h.exists_slotAt hn hpos hlength
  have hstart := h.startAt_eq hs
  rw [slotsAt_succ] at hs
  obtain ⟨y, hy, c, hc, heq⟩ := mem_descend.mp hs
  obtain ⟨hpath, rfl⟩ := Prod.mk.inj heq
  obtain ⟨huncut, -, hnode⟩ := h.mem_slotsAt hy
  obtain ⟨hy1, -⟩ := List.append_inj' hpath rfl
  have hinside := (uncut_childSlots huncut hc).2
  rw [← hy1] at hstart ⊢
  rw [hstart, h.startAt_eq hy]
  exact ⟨y.2.tree, hnode, mem_children_of_mem_childSlots hc, hinside⟩

end Paths

end Layout

/-! ## Rows -/

namespace Rows

open Layout (descend slotsAt)

variable [ToString α] {roots : List (CallTree α)}

omit [ToString α] in
theorem filterMap_slot?_gapCells (start duration : Int) :
    (gapCells start duration : List (Cell α)).filterMap Cell.slot? = [] := by
  unfold gapCells
  split <;> rfl

theorem filterMap_slot?_of_height_le {s : Slot α} {depth : Nat} (hs : s.Sound)
    (h : s.tree.height ≤ depth) : (cellsBelow depth s).filterMap Cell.slot? = [] := by
  have hpos := hs.tree.height_pos
  obtain ⟨depth, rfl⟩ : ∃ d, depth = d + 1 := ⟨depth - 1, by omega⟩
  rw [cellsBelow, if_pos h, filterMap_slot?_gapCells]

theorem filterMap_slot?_cellsBelow_succ {s : Slot α} (hs : s.Sound) (depth : Nat) :
    (cellsBelow (depth + 1) s).filterMap Cell.slot? =
      (Layout.childSlots s).flatMap fun c => (cellsBelow depth c).filterMap Cell.slot? := by
  rw [cellsBelow]
  split
  · next hle =>
    rw [filterMap_slot?_gapCells, eq_comm, List.flatMap_eq_nil_iff]
    intro c hc
    have hlt := Layout.height_lt_of_mem_childSlots hs hc
    exact filterMap_slot?_of_height_le (Layout.sound_childSlots hs c hc) (by omega)
  · simp only [List.filterMap_append, filterMap_slot?_gapCells, List.append_nil,
      List.filterMap_flatMap]

/-- `descend` reaches the nodes of a row. -/
theorem flatMap_slot?_cellsBelow {level : List (List α × Slot α)} (h : ∀ x ∈ level, x.2.Sound)
    (depth : Nat) : (level.flatMap fun x => (cellsBelow depth x.2).filterMap Cell.slot?) =
      (descend^[depth] level).map Prod.snd := by
  induction depth generalizing level with
  | zero => exact List.map_eq_flatMap.symm
  | succ depth ih =>
    have hbelow : ∀ x ∈ descend level, x.2.Sound := by
      intro x hx
      obtain ⟨y, hy, c, hc, rfl⟩ := Layout.mem_descend.mp hx
      exact Layout.sound_childSlots (h y hy) c hc
    rw [Function.iterate_succ_apply, ← ih hbelow, descend, List.flatMap_assoc]
    refine List.flatMap_congr fun x hx => ?_
    rw [filterMap_slot?_cellsBelow_succ (h x hx), List.flatMap_map]

theorem filterMap_slot?_cells (h : ∀ t ∈ roots, t.Sound) (depth : Nat) :
    (cells roots depth).filterMap Cell.slot? = (slotsAt roots depth).map Prod.snd := by
  have hlevel : ∀ x ∈ (Layout.slots roots 0 none).map fun s => ([s.tree.payload], s),
      x.2.Sound := by
    rw [List.forall_mem_map]
    exact Layout.sound_rootSlots h
  rw [slotsAt, ← flatMap_slot?_cellsBelow hlevel, List.flatMap_map, cells, List.filterMap_flatMap]

end Rows

end StackProfile
