import Mathlib.Data.List.Pairwise
import StackProfile.Outline
import StackProfile.Proofs.Slots
import StackProfile.Proofs.SoundProfile

/-!
# Function entries

Ids count the entries of an outline. Over a sound profile a function entry is determined by its
element and depth, and ends no later than the timeline of the element.
-/

namespace StackProfile

open Layout (total)

variable {α ε : Type}

namespace Outline

/-! ## Ends of depths -/

theorem depthEndsFrom_fst (cursor : Int) (ends : List Int) (ts : List (CallTree α)) :
    (depthEndsFrom cursor ends ts).1 = Rows.endOf cursor (Layout.slotsFrom none cursor ts) := by
  induction ts generalizing cursor ends with
  | nil => rfl
  | cons t ts ih =>
    simp only [depthEndsFrom, ih, Layout.slotsFrom, Layout.widthAt, Rows.endOf_cons]
    rfl

theorem depthEndsFrom_snd_le {cursor : Int} {ends : List Int} {ts : List (CallTree α)}
    (hts : ∀ t ∈ ts, t.Sound) (hc : cursor ≤ maxTime) (he : ∀ x ∈ ends, x ≤ cursor) :
    ∀ x ∈ (depthEndsFrom cursor ends ts).2, x ≤ (depthEndsFrom cursor ends ts).1 := by
  induction ts generalizing cursor ends with
  | nil => exact he
  | cons t ts ih =>
    have hle := le_satAdd hc (hts t List.mem_cons_self).weight_nonneg
    simp only [depthEndsFrom]
    refine ih (fun u hu => hts u (List.mem_cons_of_mem _ hu)) (satAdd_le _ _) fun x hx => ?_
    rcases List.mem_append.mp hx with hx | hx
    · exact Int.le_of_eq (List.eq_of_mem_replicate hx)
    · have := he x (List.mem_of_mem_drop hx)
      omega

section Ends

variable [ToString α] {ts : List (CallTree α)}

theorem lastEnd_eq_total (h : ∀ t ∈ ts, t.Sound) : lastEnd ts = total ts := by
  rw [lastEnd, depthEndsFrom_fst]
  exact Layout.endOf_rootSlots h

theorem le_total_of_mem_depthEnds (h : ∀ t ∈ ts, t.Sound) {x : Int} (hx : x ∈ depthEnds ts) :
    x ≤ total ts := by
  rw [← lastEnd_eq_total h]
  exact depthEndsFrom_snd_le (Layout.sound_ordered h) maxTime_pos.le (by simp) x hx

end Ends

/-! ## The end of the trace -/

section Trace

variable [ToString α]

mutual

theorem lastEnd_le_branchEnd {c : Branch α ε} : (b : Branch α ε) → c ∈ b.all →
    lastEnd c.trees ≤ branchEnd b
  | .node e ts bs, hc => by
    rw [branchEnd]
    rcases List.mem_cons.mp hc with rfl | hc
    · exact Int.le_max_right ..
    · exact (lastEnd_le_forestEnd bs hc).trans (Int.le_max_left ..)

theorem lastEnd_le_forestEnd {c : Branch α ε} : (bs : List (Branch α ε)) → c ∈ Branch.allIn bs →
    lastEnd c.trees ≤ forestEnd bs
  | [], hc => nomatch hc
  | b :: bs, hc => by
    rw [forestEnd]
    rcases List.mem_append.mp hc with hc | hc
    · exact (lastEnd_le_branchEnd b hc).trans (Int.le_max_left ..)
    · exact (lastEnd_le_forestEnd bs hc).trans (Int.le_max_right ..)

end

/-- No timeline is longer than the trace. -/
theorem total_le_forestEnd [DecidableEq ε] {p : Profile α ε} (h : p.Sound) {e : ε}
    (he : e ∈ p.elements) : total (p.treesOf e) ≤ forestEnd p.roots := by
  obtain ⟨b, hb, rfl⟩ := List.mem_map.mp he
  rw [Profile.treesOf_element h.distinct hb, ← lastEnd_eq_total (h.trees b hb)]
  exact lastEnd_le_forestEnd p.roots hb

end Trace

/-! ## Ids -/

theorem ids_functionItems (e : ε) (parentId : Int) (id depth : Nat) (ends : List Int) :
    (functionItems e parentId id depth ends).map (fun i => i.entry.id) =
      (List.range' id (functionItems e parentId id depth ends).length).map Int.ofNat := by
  induction ends generalizing id depth with
  | nil => rfl
  | cons x ends ih => simp [functionItems, List.range'_succ, ih]

section Ids

variable [ToString α] [ToString ε]

mutual

theorem ids_branchItems (parentId : Int) (id : Nat) : (b : Branch α ε) →
    (branchItems parentId id b).map (fun i => i.entry.id) =
      (List.range' id (branchItems parentId id b).length).map Int.ofNat
  | .node e ts bs => by
    simp only [branchItems, List.map_cons, List.map_append, List.length_cons, List.length_append,
      List.range'_succ, ids_functionItems, ids_forestItems id (id + 1) bs]
    rw [← List.map_append, List.range'_append_1]
    rfl

theorem ids_forestItems (parentId : Int) (id : Nat) : (bs : List (Branch α ε)) →
    (forestItems parentId id bs).map (fun i => i.entry.id) =
      (List.range' id (forestItems parentId id bs).length).map Int.ofNat
  | [] => rfl
  | b :: bs => by
    simp only [forestItems, List.map_append, List.length_append, ids_branchItems parentId id b,
      ids_forestItems parentId _ bs]
    rw [← List.map_append, List.range'_append_1]

end

theorem ids_items (p : Profile α ε) (traceName : String) :
    (items p traceName).map (fun i => i.entry.id) =
      (List.range (items p traceName).length).map Int.ofNat := by
  simp only [items, List.map_cons, List.length_cons, List.range_eq_range', List.range'_succ,
    ids_forestItems 0 1 p.roots]
  rfl

theorem nodup_ids (p : Profile α ε) (traceName : String) :
    ((items p traceName).map fun i => i.entry.id).Nodup := by
  rw [ids_items]
  exact List.nodup_range.map fun _ _ h => Int.ofNat.inj h

end Ids

/-! ## Shown depths -/

theorem shows_functionItems (e : ε) (parentId : Int) (id depth : Nat) (ends : List Int) :
    (functionItems e parentId id depth ends).filterMap OutlineItem.shows =
      (List.range' depth ends.length).map fun d => (e, d) := by
  induction ends generalizing id depth with
  | nil => rfl
  | cons x ends ih => simp [functionItems, List.range'_succ, ih]

theorem mem_functionItems {e : ε} {parentId : Int} {id depth : Nat} {ends : List Int}
    {i : OutlineItem ε} (h : i ∈ functionItems e parentId id depth ends) :
    ∃ n, i.shows = some (e, depth + n) ∧ ends[n]? = some i.entry.finish := by
  induction ends generalizing id depth with
  | nil => cases h
  | cons x ends ih =>
    rcases List.mem_cons.mp h with rfl | h
    · exact ⟨0, rfl, rfl⟩
    · obtain ⟨n, hshows, hend⟩ := ih h
      exact ⟨n + 1, by rw [hshows, Nat.add_right_comm, Nat.add_assoc], hend⟩

section Shows

variable [ToString α] [ToString ε]

mutual

/-- A function entry below a branch comes from a branch there, with the end of its depth. -/
theorem branch_of_shows {parentId : Int} {id d : Nat} {e : ε} {i : OutlineItem ε} :
    (b : Branch α ε) → i ∈ branchItems parentId id b → i.shows = some (e, d) →
      ∃ c ∈ b.all, c.element = e ∧ (depthEnds c.trees)[d]? = some i.entry.finish
  | .node e' ts bs, h, hs => by
    simp only [branchItems, List.mem_cons, List.mem_append] at h
    rcases h with rfl | h | h
    · cases hs
    · obtain ⟨c, hc, hce⟩ := forest_of_shows bs h hs
      exact ⟨c, List.mem_cons_of_mem _ hc, hce⟩
    · obtain ⟨n, hshows, hfin⟩ := mem_functionItems h
      rw [hs, Nat.zero_add] at hshows
      cases hshows
      exact ⟨_, List.mem_cons_self, rfl, hfin⟩

theorem forest_of_shows {parentId : Int} {id d : Nat} {e : ε} {i : OutlineItem ε} :
    (bs : List (Branch α ε)) → i ∈ forestItems parentId id bs → i.shows = some (e, d) →
      ∃ c ∈ Branch.allIn bs, c.element = e ∧ (depthEnds c.trees)[d]? = some i.entry.finish
  | [], h, _ => by cases h
  | b :: bs, h, hs => by
    simp only [forestItems, List.mem_append] at h
    rcases h with h | h
    · obtain ⟨c, hc, hce⟩ := branch_of_shows b h hs
      exact ⟨c, List.mem_append_left _ hc, hce⟩
    · obtain ⟨c, hc, hce⟩ := forest_of_shows bs h hs
      exact ⟨c, List.mem_append_right _ hc, hce⟩

end

theorem element_mem_of_mem_shows {parentId : Int} {id : Nat} {bs : List (Branch α ε)} {x : ε × Nat}
    (h : x ∈ (forestItems parentId id bs).filterMap OutlineItem.shows) :
    x.1 ∈ (Branch.allIn bs).map Branch.element := by
  obtain ⟨i, hi, hs⟩ := List.mem_filterMap.mp h
  obtain ⟨c, hc, hce, -⟩ := forest_of_shows bs hi hs
  exact List.mem_map.mpr ⟨c, hc, hce⟩

mutual

theorem nodup_shows_branchItems (parentId : Int) (id : Nat) : (b : Branch α ε) →
    (b.all.map Branch.element).Nodup →
      ((branchItems parentId id b).filterMap OutlineItem.shows).Nodup
  | .node e ts bs, h => by
    obtain ⟨he, hbs⟩ := List.nodup_cons.mp h
    simp only [branchItems]
    rw [List.filterMap_cons_none rfl, List.filterMap_append, shows_functionItems]
    refine List.nodup_append'.mpr ⟨nodup_shows_forestItems _ _ bs hbs, ?_, fun x hx hx' => he ?_⟩
    · exact (List.nodup_range' 1).map fun _ _ hd => (Prod.mk.inj hd).2
    · obtain ⟨d, -, rfl⟩ := List.mem_map.mp hx'
      exact element_mem_of_mem_shows hx

theorem nodup_shows_forestItems (parentId : Int) (id : Nat) : (bs : List (Branch α ε)) →
    ((Branch.allIn bs).map Branch.element).Nodup →
      ((forestItems parentId id bs).filterMap OutlineItem.shows).Nodup
  | [], _ => List.nodup_nil
  | b :: bs, h => by
    simp only [Branch.allIn, List.map_append] at h
    obtain ⟨hb, hbs, hdis⟩ := List.nodup_append'.mp h
    simp only [forestItems, List.filterMap_append]
    refine List.nodup_append'.mpr ⟨nodup_shows_branchItems _ _ b hb,
      nodup_shows_forestItems _ _ bs hbs, fun x hx hx' => ?_⟩
    obtain ⟨i, hi, hs⟩ := List.mem_filterMap.mp hx
    obtain ⟨c, hc, hce, -⟩ := branch_of_shows b hi hs
    exact hdis (List.mem_map.mpr ⟨c, hc, hce⟩) (element_mem_of_mem_shows hx')

end

end Shows

/-! ## Looking entries up by id -/

section Lookup

variable [ToString α] [ToString ε] {p : Profile α ε} {traceName : String} {id : Int}

theorem item_of_shown? {x : ε × Nat} (h : (of p traceName).shown? id = some x) :
    ∃ i ∈ items p traceName, i.entry.id = id ∧ i.shows = some x := by
  obtain ⟨l₁, l₂, hl, -⟩ := List.lookup_eq_some_iff.mp h
  have hmem : (id, x) ∈ (of p traceName).functions := by rw [hl]; simp
  obtain ⟨i, hi, hs⟩ := List.mem_filterMap.mp hmem
  obtain ⟨y, hy, he⟩ := Option.map_eq_some_iff.mp hs
  cases he
  exact ⟨i, hi, rfl, hy⟩

theorem finish?_of_mem {i : OutlineItem ε} (h : i ∈ items p traceName) :
    (of p traceName).finish? i.entry.id = some i.entry.finish := by
  have hinj := List.inj_on_of_nodup_map (nodup_ids p traceName)
  unfold finish?
  cases hf : (of p traceName).entries.find? fun e => e.id == i.entry.id with
  | none =>
    have hmem : i.entry ∈ (of p traceName).entries := List.mem_map_of_mem h
    simpa using List.find?_eq_none.mp hf _ hmem
  | some e =>
    obtain ⟨j, hj, rfl⟩ := List.mem_map.mp (List.mem_of_find?_eq_some hf)
    have hid : j.entry.id = i.entry.id := by simpa using List.find?_some hf
    rw [hinj hj h hid]
    rfl

/-- `shown?` is injective. -/
theorem shown?_injective (hp : p.Sound) {x : ε × Nat} {id' : Int}
    (h : (of p traceName).shown? id = some x) (h' : (of p traceName).shown? id' = some x) :
    id = id' := by
  obtain ⟨i, hi, rfl, hx⟩ := item_of_shown? h
  obtain ⟨j, hj, rfl, hx'⟩ := item_of_shown? h'
  have hnodup : ((items p traceName).filterMap OutlineItem.shows).Nodup :=
    nodup_shows_forestItems 0 1 p.roots hp.distinct
  have hpair := List.pairwise_filterMap.mp hnodup
  have : Std.Symm fun i j : OutlineItem ε =>
      ∀ x, i.shows = some x → ∀ y, j.shows = some y → x ≠ y :=
    ⟨fun i j h x hx y hy he => h y hy x hx he.symm⟩
  by_contra hne
  exact hpair.forall hi hj (fun he => hne (by rw [he])) x hx x hx' rfl

theorem finish?_of_shown? [DecidableEq ε] (hp : p.Sound) {e : ε} {d : Nat}
    (h : (of p traceName).shown? id = some (e, d)) :
    ∃ x, (of p traceName).finish? id = some x ∧ x ≤ total (p.treesOf e) := by
  obtain ⟨i, hi, rfl, hs⟩ := item_of_shown? h
  refine ⟨_, finish?_of_mem hi, ?_⟩
  rcases List.mem_cons.mp hi with rfl | hi
  · cases hs
  · obtain ⟨c, hc, rfl, hfin⟩ := forest_of_shows p.roots hi hs
    rw [Profile.treesOf_element hp.distinct hc]
    exact le_total_of_mem_depthEnds (hp.trees c hc) (List.mem_of_getElem? hfin)

end Lookup

end Outline

end StackProfile
