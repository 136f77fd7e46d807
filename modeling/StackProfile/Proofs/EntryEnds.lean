import StackProfile.Proofs.CoarserProfile
import StackProfile.Proofs.OutlineIndex
import StackProfile.Proofs.RowTiling

/-!
# Ends of entries

The ends in an outline are those of the layout: a depth ends with the last root slot that reaches
it, an element with its timeline, levels and the trace with the longest timeline below.
-/

namespace StackProfile

open Layout (slots slotsFrom total nodeAt?)
open Rows (endOf)

variable {α ε : Type}

/-! ## Root slots that reach a depth -/

namespace Layout

def reaching [ToString α] (ts : List (CallTree α)) (depth : Nat) : List (Slot α) :=
  (slots ts 0 none).filter fun s => depth < s.tree.height

theorem pairwise_finish {ts : List (CallTree α)} (hts : ∀ t ∈ ts, t.Sound) {cursor : Int}
    (h0 : 0 ≤ cursor) (h1 : cursor ≤ maxTime) :
    (∀ s ∈ slotsFrom none cursor ts, cursor ≤ s.finish) ∧
      (slotsFrom none cursor ts).Pairwise fun s u => s.finish ≤ u.finish := by
  induction ts generalizing cursor with
  | nil => exact ⟨by simp [slotsFrom], .nil⟩
  | cons t ts ih =>
    obtain ⟨ht, hts⟩ := List.forall_mem_cons.mp hts
    have hle : cursor ≤ satAdd cursor t.weight := le_satAdd h1 ht.weight_nonneg
    obtain ⟨hlater, hrest⟩ := ih hts (satAdd_nonneg h0 ht.weight_nonneg) (satAdd_le _ _)
    exact ⟨List.forall_mem_cons.mpr ⟨hle, fun s hs => hle.trans (hlater s hs)⟩,
      .cons hlater hrest⟩

variable [ToString α] {ts : List (CallTree α)} {d d' : Nat} {s u : Slot α} {time : Int}

theorem finish_le_of_reaching (hts : ∀ t ∈ ts, t.Sound) (hs : s ∈ reaching ts d)
    (hlast : (reaching ts d).getLast? = some u) : s.finish ≤ u.finish := by
  have hpairwise : (reaching ts d).Pairwise fun s u => s.finish ≤ u.finish :=
    (pairwise_finish (sound_ordered hts) (Int.le_refl 0) maxTime_pos.le).2.filter _
  obtain ⟨before, hsplit⟩ := List.getLast?_eq_some_iff.mp hlast
  rw [hsplit] at hs hpairwise
  rcases List.mem_append.mp hs with hs | hs
  · exact (List.pairwise_append.mp hpairwise).2.2 s hs u List.mem_cons_self
  · rw [List.mem_singleton.mp hs]

theorem reaching_mono (hd : d ≤ d') (hs : s ∈ reaching ts d') : s ∈ reaching ts d := by
  obtain ⟨hmem, hreach⟩ := List.mem_filter.mp hs
  exact List.mem_filter.mpr ⟨hmem, decide_eq_true (hd.trans_lt (of_decide_eq_true hreach))⟩

theorem exists_reaching (hts : ∀ t ∈ ts, t.Sound) (h : locate ts d time = some s) :
    ∃ r ∈ reaching ts d, r.covers time := by
  have hsound : ∀ r ∈ slots ts 0 none, r.Sound := sound_rootSlots hts
  have hfind : ∃ r, (slots ts 0 none).find? (fun r => r.covers time) = some r ∧
      (d = 0 ∨ ∃ n, d = n + 1 ∧ locateIn time n (childSlots r) = some s) := by
    cases d with
    | zero => exact ⟨s, h, .inl rfl⟩
    | succ n =>
      obtain ⟨r, hr, hbelow⟩ := Option.bind_eq_some_iff.mp h
      exact ⟨r, hr, .inr ⟨n, rfl, hbelow⟩⟩
  obtain ⟨r, hr, hbelow⟩ := hfind
  have hmem : r ∈ slots ts 0 none := List.mem_of_find?_eq_some hr
  have hcovers : r.covers time = true := (List.find?_some hr :)
  refine ⟨r, List.mem_filter.mpr ⟨hmem, decide_eq_true ?_⟩, hcovers⟩
  rcases hbelow with rfl | ⟨n, rfl, hbelow⟩
  · exact (hsound r hmem).tree.height_pos
  · -- below a slot that does not reach the depth nothing could have been found
    by_contra hheight
    rw [locateIn_eq_none (sound_childSlots (hsound r hmem)) fun c hc => ?_] at hbelow
    · cases hbelow
    · have := height_lt_of_mem_childSlots (hsound r hmem) hc
      omega

/-- No node is found after the last slot that reaches its depth. -/
theorem nodeAt?_eq_none (hts : ∀ t ∈ ts, t.Sound) (hlast : (reaching ts d).getLast? = some u)
    (htime : u.finish ≤ time) : nodeAt? ts d time = none := by
  rw [nodeAt?, Option.map_eq_none_iff]
  cases hfound : locate ts d time with
  | none => rfl
  | some s =>
    obtain ⟨r, hr, hcovers⟩ := exists_reaching hts hfound
    have hle := finish_le_of_reaching hts hr hlast
    rw [Slot.covers_iff] at hcovers
    omega

/-- The last root slot ends at `total`. -/
theorem finish_of_reaching_zero (hts : ∀ t ∈ ts, t.Sound)
    (hlast : (reaching ts 0).getLast? = some u) : u.finish = total ts := by
  have hall : reaching ts 0 = slots ts 0 none := List.filter_eq_self.mpr fun s hs =>
    decide_eq_true (sound_rootSlots hts s hs).tree.height_pos
  rw [← endOf_rootSlots hts, endOf, ← hall, hlast]
  rfl

end Layout

/-! ## Ends of depths -/

namespace Outline

/-- The end of a depth is that of the last slot that reaches it. -/
theorem getElem?_depthEndsFrom (cursor : Int) (ends : List Int) (ts : List (CallTree α)) (d : Nat) :
    (depthEndsFrom cursor ends ts).2[d]? =
      ((((slotsFrom none cursor ts).filter fun s => d < s.tree.height).getLast?.map
        Slot.finish).or ends[d]?) := by
  induction ts generalizing cursor ends with
  | nil => rfl
  | cons t ts ih =>
    rw [depthEndsFrom, ih, slotsFrom, Layout.widthAt]
    by_cases hd : d < t.height
    · rw [List.filter_cons_of_pos (by simpa using hd),
        List.getElem?_append_left (by simpa using hd), List.getElem?_replicate_of_lt hd,
        List.getLast?_cons]
      cases (List.filter _ (slotsFrom none (satAdd cursor t.weight) ts)).getLast? <;> rfl
    · have hshift : t.height + (d - t.height) = d := by omega
      rw [List.filter_cons_of_neg (by simpa using hd),
        List.getElem?_append_right (by simpa using hd), List.getElem?_drop, List.length_replicate,
        hshift]

theorem getElem?_depthEnds [ToString α] (ts : List (CallTree α)) (d : Nat) :
    (depthEnds ts)[d]? = (Layout.reaching ts d).getLast?.map Slot.finish := by
  rw [depthEnds, getElem?_depthEndsFrom, List.getElem?_nil, Option.or_none]
  rfl

/-! ## Ends of levels and of the trace -/

section Levels

variable [ToString α]

def ownEnd (b : Branch α ε) : Int := lastEnd b.trees

theorem max_foldl_max (x : Int) (xs : List Int) :
    max x (xs.foldl max 0) = (x :: xs).foldl max 0 := by
  rw [List.foldl_cons, max_comm 0 x, List.foldl_assoc]

mutual

theorem branchEnd_eq : (b : Branch α ε) → branchEnd b = (b.all.map ownEnd).foldl max 0
  | .node e ts bs => by
    rw [branchEnd, forestEnd_eq bs, max_comm, max_foldl_max]
    rfl

theorem forestEnd_eq : (bs : List (Branch α ε)) →
    forestEnd bs = ((Branch.allIn bs).map ownEnd).foldl max 0
  | [] => rfl
  | b :: bs => by
    rw [forestEnd, branchEnd_eq b, forestEnd_eq bs, Branch.allIn, List.map_append,
      List.foldl_append]
    generalize (b.all.map ownEnd) = xs, (Branch.allIn bs).map ownEnd = ys
    have hxs : 0 ≤ xs.foldl max 0 := by
      rw [List.foldl_max]
      exact Int.le_max_left ..
    rw [max_foldl_max, List.foldl_cons, Int.max_eq_right hxs]

end

theorem foldl_max_eq {xs : List Int} (h : ∀ x ∈ xs, 0 ≤ x) :
    xs.foldl max 0 = xs.max?.getD 0 := by
  cases xs with
  | nil => rfl
  | cons x xs =>
    rw [List.foldl_cons, Int.max_eq_right (h x List.mem_cons_self), List.max?_cons',
      Option.getD_some]

variable [ToString ε]

mutual

theorem levelEnds_branchItems (parentId : Int) (id : Nat) : (b : Branch α ε) →
    (((branchItems parentId id b).filter fun i => i.entry.kind = .level).map fun i =>
      i.entry.finish) = b.all.map branchEnd
  | .node e ts bs => by
    have hfunctions : ((functionItems e id (id + 1 + (forestItems id (id + 1) bs).length) 0
        (depthEnds ts)).filter fun i => i.entry.kind = .level) = [] :=
      List.map_eq_nil_iff.mp (levelIds_functionItems e _ _ _ _)
    rw [branchItems, List.filter_cons_of_pos (by simp), List.filter_append, hfunctions,
      List.append_nil, List.map_cons, levelEnds_forestItems id (id + 1) bs, Branch.all,
      List.map_cons, branchEnd]

/-- Ends of levels are ends of branches, in order. -/
theorem levelEnds_forestItems (parentId : Int) (id : Nat) : (bs : List (Branch α ε)) →
    (((forestItems parentId id bs).filter fun i => i.entry.kind = .level).map fun i =>
      i.entry.finish) = (Branch.allIn bs).map branchEnd
  | [] => rfl
  | b :: bs => by
    rw [forestItems, List.filter_append, List.map_append, levelEnds_branchItems parentId id b,
      levelEnds_forestItems parentId _ bs, Branch.allIn, List.map_append]

end

end Levels

/-! ## Outlines and the layout -/

section Layout

variable [ToString α] [ToString ε] [DecidableEq ε]

/-- The entries span the layout. `level` maps an element to the id of its level. -/
structure FitsLayout (level : ε → Int) (p : Profile α ε) (o : Outline ε) : Prop where
  starts : ∀ x ∈ o.entries, x.start = 0
  depths : ∀ x ∈ o.entries, ∀ e d, o.shown? x.id = some (e, d) →
    ∃ s, (Layout.reaching (p.treesOf e) d).getLast? = some s ∧ x.finish = s.finish
  falling : ∀ x ∈ o.entries, ∀ y ∈ o.entries, ∀ e d d', o.shown? x.id = some (e, d) →
    o.shown? y.id = some (e, d') → d ≤ d' → y.finish ≤ x.finish
  nothing_after : ∀ x ∈ o.entries, ∀ e d, o.shown? x.id = some (e, d) →
    ∀ time, x.finish ≤ time → nodeAt? (p.treesOf e) d time = none
  top : ∀ x ∈ o.entries, ∀ e, o.shown? x.id = some (e, 0) → x.finish = total (p.treesOf e)
  levels : ((o.entries.filter fun x => x.kind = .level).map fun x => (x.id, some x.finish)) =
    p.elements.map fun e => (level e, ((p.below e).map fun d => total (p.treesOf d)).max?)
  trace : ∀ x ∈ o.entries, x.kind = .trace →
    x.finish = ((p.elements.map fun e => total (p.treesOf e)).max?).getD 0

variable {p : Profile α ε} {traceName : String}

/-- A function entry ends with the last root slot that reaches its depth. -/
theorem exists_reaching_of_shown (h : p.Sound) {x : Entry} (hx : x ∈ (of p traceName).entries)
    {e : ε} {d : Nat} (hshown : (of p traceName).shown? x.id = some (e, d)) :
    (∀ t ∈ p.treesOf e, t.Sound) ∧
      ∃ s, (Layout.reaching (p.treesOf e) d).getLast? = some s ∧ x.finish = s.finish := by
  refine ⟨h.treesOf e, ?_⟩
  obtain ⟨i, hi, hid, hs⟩ := item_of_shown? hshown
  obtain ⟨j, hj, rfl⟩ := List.mem_map.mp hx
  obtain rfl : i = j := List.inj_on_of_nodup_map (nodup_ids p traceName) hi hj hid
  rcases List.mem_cons.mp hi with rfl | hi
  · cases hs
  · obtain ⟨c, hc, rfl, hfinish⟩ := forest_of_shows p.roots hi hs
    rw [getElem?_depthEnds] at hfinish
    obtain ⟨s, hs, hfinish⟩ := Option.map_eq_some_iff.mp hfinish
    rw [Profile.treesOf_element h.distinct hc]
    exact ⟨s, hs, hfinish.symm⟩

omit [ToString ε] in
/-- A level ends with the longest timeline below it. -/
theorem max?_below (h : p.Sound) {b : Branch α ε} (hb : b ∈ p.branches) :
    ((p.below b.element).map fun d => total (p.treesOf d)).max? = some (branchEnd b) := by
  have hends : ((p.below b.element).map fun d => total (p.treesOf d)) = b.all.map ownEnd := by
    rw [Profile.below_element h.distinct hb, List.map_map]
    refine List.map_congr_left fun c hc => ?_
    have hc := Profile.mem_branches_of_mem_all hb hc
    rw [Function.comp_apply, Profile.treesOf_element h.distinct hc, ownEnd,
      lastEnd_eq_total (h.trees c hc)]
  have hnonneg : 0 ≤ ownEnd b := by
    rw [ownEnd, lastEnd_eq_total (h.trees b hb)]
    exact Layout.total_nonneg (h.trees b hb)
  obtain ⟨e, ts, bs⟩ := b
  rw [hends, branchEnd_eq, Branch.all, List.map_cons, List.max?_cons', List.foldl_cons,
    Int.max_eq_right hnonneg]

omit [ToString ε] in
theorem forestEnd_roots (h : p.Sound) :
    forestEnd p.roots = ((p.elements.map fun e => total (p.treesOf e)).max?).getD 0 := by
  have hends : (Branch.allIn p.roots).map ownEnd = p.elements.map fun e => total (p.treesOf e) := by
    rw [Profile.elements, List.map_map]
    refine List.map_congr_left fun c hc => ?_
    rw [Function.comp_apply, Profile.treesOf_element h.distinct hc, ownEnd,
      lastEnd_eq_total (h.trees c hc)]
  rw [forestEnd_eq, hends, foldl_max_eq]
  intro x hx
  obtain ⟨e, -, rfl⟩ := List.mem_map.mp hx
  exact Layout.total_nonneg (h.treesOf e)

theorem levels_of (h : p.Sound) {level : ε → Int}
    (hindex : Indexes level p traceName (of p traceName)) :
    (((of p traceName).entries.filter fun x => x.kind = .level).map fun x =>
      (x.id, some x.finish)) =
        p.elements.map fun e => (level e, ((p.below e).map fun d => total (p.treesOf d)).max?) := by
  have hids : (((of p traceName).entries.filter fun x => x.kind = .level).map Entry.id) =
      p.elements.map level := by
    have hlevels := congrArg (List.map Prod.fst) hindex.levels
    rwa [List.map_map, List.map_map] at hlevels
  have hends : (((of p traceName).entries.filter fun x => x.kind = .level).map fun x =>
      some x.finish) = p.elements.map fun e =>
        ((p.below e).map fun d => total (p.treesOf d)).max? := by
    have hentries : (of p traceName).entries =
        { id := 0, parentId := Entry.noParent, name := traceName, finish := forestEnd p.roots,
          kind := .trace } :: (forestItems 0 1 p.roots).map OutlineItem.entry := rfl
    have hbranches : (p.elements.map fun e => ((p.below e).map fun d => total (p.treesOf d)).max?) =
        (p.branches.map branchEnd).map some := by
      rw [Profile.elements, List.map_map, List.map_map]
      exact List.map_congr_left fun b hb => max?_below h hb
    rw [hbranches, hentries, List.filter_cons_of_neg (by simp), List.filter_map, List.map_map,
      Profile.branches, ← levelEnds_forestItems 0 1 p.roots, List.map_map]
    rfl
  rw [← List.zip_map', hids, hends, List.zip_map']

theorem fitsLayout_of (h : p.Sound) {level : ε → Int}
    (hindex : Indexes level p traceName (of p traceName)) :
    FitsLayout level p (of p traceName) where
  starts x hx := by
    obtain ⟨i, hi, rfl⟩ := List.mem_map.mp hx
    rcases List.mem_cons.mp hi with rfl | hi
    · rfl
    · exact (hung_roots i hi).start
  depths x hx e d hshown := (exists_reaching_of_shown h hx hshown).2
  falling x hx y hy e d d' hshown hshown' hd := by
    obtain ⟨hts, s, hs, hfinish⟩ := exists_reaching_of_shown h hx hshown
    obtain ⟨-, s', hs', hfinish'⟩ := exists_reaching_of_shown h hy hshown'
    rw [hfinish, hfinish']
    exact Layout.finish_le_of_reaching hts
      (Layout.reaching_mono hd (List.mem_of_getLast? hs')) hs
  nothing_after x hx e d hshown time htime := by
    obtain ⟨hts, s, hs, hfinish⟩ := exists_reaching_of_shown h hx hshown
    exact Layout.nodeAt?_eq_none hts hs (hfinish ▸ htime)
  top x hx e hshown := by
    obtain ⟨hts, s, hs, hfinish⟩ := exists_reaching_of_shown h hx hshown
    rw [hfinish, Layout.finish_of_reaching_zero hts hs]
  levels := levels_of h hindex
  trace x hx hkind := by
    obtain ⟨_, rest, hentries, -, hrest⟩ := hindex.trace
    obtain ⟨rfl, rfl⟩ := List.cons.inj hentries
    rcases List.mem_cons.mp hx with rfl | hx
    · exact forestEnd_roots h
    · exact absurd hkind (hrest x hx).1

end Layout

end Outline

/-! ## Walks -/

theorem RowWalk.run_snd [ToString α] {roots : List (CallTree α)} (h : ∀ t ∈ roots, t.Sound)
    (w : RowWalk α) (elementEnd : Int) :
    (∀ finish ∈ (w.run roots elementEnd).2, finish = total roots) ∧
      (w.token = .live → (w.run roots elementEnd).2 = some (total roots)) := by
  refine ⟨fun finish hfinish => ?_, fun htoken => (run_live h htoken elementEnd).1⟩
  rw [run, Layout.endOf_rootSlots h] at hfinish
  dsimp only at hfinish
  split at hfinish
  · exact (Option.some.inj hfinish).symm
  · cases hfinish

/-- The entries of a built profile start at 0 and end with the layout of its trees. Every walk ends
where the top function entry of its element does. -/
theorem built_outline_fits_layout [ToString α] [ToString ε] [DecidableEq ε] [BEq α]
    {p : Profile α ε} (h : p.Built CallTree.Sound) (traceName : String) :
    (∃ o, Outline.build p traceName .live = some o ∧
      ∃ level, o.Indexes level p traceName ∧ o.FitsLayout level p) ∧
    ∀ e (w : RowWalk α) elementEnd,
      (∀ finish ∈ (w.run (p.treesOf e) elementEnd).2, finish = total (p.treesOf e)) ∧
        (w.token = .live → (w.run (p.treesOf e) elementEnd).2 = some (total (p.treesOf e))) := by
  have hsound : p.Sound := h.sound fun t ht => ht
  obtain ⟨level, hindex⟩ := Outline.indexes_of h.nodup traceName
  have hfits := Outline.fitsLayout_of hsound hindex
  exact ⟨⟨_, Engine.build_live p traceName, level, hindex, hfits⟩,
    fun e w => w.run_snd (hsound.treesOf e)⟩

/-- A process shorter and deeper than its thread. -/
theorem built_outline_fits_layout_thread :
    let main : CallTree Frame := (CallTree.leaf ("main" : Frame) 4).graft (.leaf ("draw" : Frame) 3)
    let p : Profile Frame Frame :=
      (((Profile.addChild {} ("p1" : Frame) "t1").addTree "p1" (.leaf ("idle" : Frame) 2)).addTree
        "p1" main).addTree "t1" (.leaf ("wait" : Frame) 7)
    let w : RowWalk Frame :=
      { depths := [1], times := [0], token := .live
        paint := ⟨fun s => { start := s.start, duration := s.width }, {}⟩ }
    p.Built CallTree.Sound ∧ (∃ o, Outline.build p "trace" .live = some o ∧
      o.entries.map (fun x => (x.name, x.start, x.finish)) =
        [("trace", 0, 7), ("p1", 0, 7), ("t1", 0, 7), ("0", 0, 7), ("0", 0, 6), ("1", 0, 4)] ∧
      ∃ level, o.FitsLayout level p) ∧ (w.run (p.treesOf "p1") 9).2 = some 6 := by
  intro main p w
  have hleaf (name : Frame) {weight : Int} (h : weight ≤ maxTime) :
      (CallTree.leaf name weight).Sound := CallTree.sound_leaf name h
  have hmain : main.Sound := (hleaf "main" (by decide)).graft (hleaf "draw" (by decide))
  have hbuilt : p.Built CallTree.Sound :=
    .addTree _ (.addTree _ (.addTree _ (.addChild (.empty []) (by decide))
      (hleaf "idle" (by decide))) hmain) (hleaf "wait" (by decide))
  obtain ⟨⟨o, ho, level, -, hfits⟩, hwalk⟩ := built_outline_fits_layout hbuilt "trace"
  refine ⟨hbuilt, ⟨o, ho, ?_, level, hfits⟩, ?_⟩
  · rw [Engine.build_eq_some ho]
    cbv
  · rw [(hwalk "p1" w 9).2 rfl]
    decide

end StackProfile
