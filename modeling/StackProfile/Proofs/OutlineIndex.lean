import Mathlib.Data.List.Nodup
import StackProfile.Proofs.Links
import StackProfile.Proofs.Session

/-!
# Outlines as indexes

An outline lists elements in order, each with the depths of its trees; ids lead back to elements and
depths. Everything follows from one function `level` of elements to ids.
-/

namespace StackProfile

variable {α ε : Type}

namespace Outline

/-! ## Depths -/

section Depths

theorem length_depthEndsFrom (cursor : Int) (ends : List Int) (ts : List (CallTree α)) :
    (depthEndsFrom cursor ends ts).2.length = (ts.map CallTree.height).foldl max ends.length := by
  induction ts generalizing cursor ends with
  | nil => rfl
  | cons t ts ih =>
    have hlength : (List.replicate t.height (satAdd cursor t.weight) ++ ends.drop t.height).length =
        max ends.length t.height := by
      simp only [List.length_append, List.length_replicate, List.length_drop]
      omega
    rw [depthEndsFrom, ih, hlength, List.map_cons, List.foldl_cons]

theorem length_depthEnds [ToString α] (ts : List (CallTree α)) :
    (depthEnds ts).length = (ts.map CallTree.height).max?.getD 0 := by
  have hperm := (Layout.ordered_perm ts).map CallTree.height
  rw [depthEnds, length_depthEndsFrom, hperm.foldl_eq, List.foldl_max]
  exact Nat.max_eq_right (Nat.zero_le _)

end Depths

/-! ## Entries and what they stand for -/

def levelIds (is : List (OutlineItem ε)) : List Int :=
  (is.filter fun i => i.entry.kind = .level).map fun i => i.entry.id

theorem levelIds_append (is js : List (OutlineItem ε)) :
    levelIds (is ++ js) = levelIds is ++ levelIds js := by
  rw [levelIds, List.filter_append, List.map_append]
  rfl

theorem levelIds_functionItems (e : ε) (parentId : Int) (id depth : Nat) (ends : List Int) :
    levelIds (functionItems e parentId id depth ends) = [] := by
  induction ends generalizing id depth with
  | nil => rfl
  | cons x ends ih => exact ih (id + 1) (depth + 1)

section Placed

variable [ToString ε] {level : ε → Int}

/-- A level, or a function entry below the level of its element. -/
inductive Role (level : ε → Int) (i : OutlineItem ε) : Prop where
  | level : i.entry.kind = .level → i.shows = none → Role level i
  | function {e : ε} {d : Nat} : i.entry.kind = .function → i.shows = some (e, d) →
      i.entry.parentId = level e → i.entry.depth = some d → i.entry.name = toString d →
        Role level i

/-- The levels of `links`, each below the level of its parent; all else are function entries. -/
structure Placed (level : ε → Int) (links : List (Option ε × ε)) (is : List (OutlineItem ε)) :
    Prop where
  levels : ((is.filter fun i => i.entry.kind = .level).map fun i =>
    (i.entry.id, i.entry.name, i.entry.parentId)) =
      links.map fun y => (level y.2, toString y.2, (y.1.map level).getD 0)
  roles : ∀ i ∈ is, Role level i

theorem Placed.append {ls ks : List (Option ε × ε)} {is js : List (OutlineItem ε)}
    (h : Placed level ls is) (h' : Placed level ks js) : Placed level (ls ++ ks) (is ++ js) where
  levels := by rw [List.filter_append, List.map_append, List.map_append, h.levels, h'.levels]
  roles := List.forall_mem_append.mpr ⟨h.roles, h'.roles⟩

theorem placed_functionItems {e : ε} {parentId : Int} (h : parentId = level e) (id depth : Nat)
    (ends : List Int) : Placed level [] (functionItems e parentId id depth ends) := by
  induction ends generalizing id depth with
  | nil => exact ⟨rfl, nofun⟩
  | cons x ends ih =>
    have hrest := ih (id + 1) (depth + 1)
    refine ⟨hrest.levels, List.forall_mem_cons.mpr ⟨?_, hrest.roles⟩⟩
    exact .function rfl rfl h rfl rfl

variable [ToString α]

theorem levelIds_branchItems (parentId : Int) (id : Nat) (e : ε) (ts : List (CallTree α))
    (bs : List (Branch α ε)) : levelIds (branchItems parentId id (.node e ts bs)) =
      (id : Int) :: levelIds (forestItems id (id + 1) bs) := by
  rw [branchItems]
  refine congrArg ((id : Int) :: ·) ?_
  exact (levelIds_append _ _).trans (by rw [levelIds_functionItems, List.append_nil])

mutual

theorem length_levelIds_branchItems (parentId : Int) (id : Nat) : (b : Branch α ε) →
    (levelIds (branchItems parentId id b)).length = b.all.length
  | .node e ts bs => by
    rw [levelIds_branchItems, List.length_cons, length_levelIds_forestItems, Branch.all,
      List.length_cons]

theorem length_levelIds_forestItems (parentId : Int) (id : Nat) : (bs : List (Branch α ε)) →
    (levelIds (forestItems parentId id bs)).length = (Branch.allIn bs).length
  | [] => rfl
  | b :: bs => by
    rw [forestItems, levelIds_append, List.length_append, length_levelIds_branchItems parentId id b,
      length_levelIds_forestItems, Branch.allIn, List.length_append]

end

mutual

theorem placed_branchItems {above : Option ε} {parentId : Int} {id : Nat}
    (habove : (above.map level).getD 0 = parentId) : (b : Branch α ε) →
      levelIds (branchItems parentId id b) = b.all.map (fun c => level c.element) →
        Placed level (b.links above) (branchItems parentId id b)
  | .node e ts bs, hids => by
    rw [levelIds_branchItems, Branch.all, List.map_cons, List.cons.injEq] at hids
    obtain ⟨hid, hids⟩ := hids
    have hid : (id : Int) = level e := hid
    have hsome : ((some e).map level).getD 0 = (id : Int) := hid.symm
    have hbelow := placed_forestItems hsome bs hids
    have hall := hbelow.append (placed_functionItems hid
      (id + 1 + (forestItems (id : Int) (id + 1) bs).length) 0 (depthEnds ts))
    rw [List.append_nil] at hall
    refine ⟨?_, List.forall_mem_cons.mpr ⟨.level rfl rfl, hall.roles⟩⟩
    rw [Branch.links, List.map_cons, ← hall.levels, habove, ← hid]
    rfl

/-- Entries of a forest are placed by the ids of their levels. -/
theorem placed_forestItems {above : Option ε} {parentId : Int} {id : Nat}
    (habove : (above.map level).getD 0 = parentId) : (bs : List (Branch α ε)) →
      levelIds (forestItems parentId id bs) = (Branch.allIn bs).map (fun c => level c.element) →
        Placed level (Branch.linksIn above bs) (forestItems parentId id bs)
  | [], _ => ⟨rfl, nofun⟩
  | b :: bs, hids => by
    rw [forestItems, levelIds_append, Branch.allIn, List.map_append] at hids
    obtain ⟨hb, hbs⟩ := List.append_inj hids (by
      rw [length_levelIds_branchItems, List.length_map])
    rw [forestItems]
    exact (placed_branchItems habove b hb).append (placed_forestItems habove bs hbs)

end

end Placed

/-! ## Parents and starts -/

/-- Starts at 0, after its parent. -/
structure Hung (x : Entry) : Prop where
  start : x.start = 0
  nonneg : 0 ≤ x.parentId
  after : x.parentId < x.id

section Hung

theorem hung_functionItems {e : ε} {parentId : Int} {id depth : Nat} {ends : List Int}
    (hnonneg : 0 ≤ parentId) (hlt : parentId < id) :
    ∀ i ∈ functionItems e parentId id depth ends, Hung i.entry := by
  induction ends generalizing id depth with
  | nil => nofun
  | cons x ends ih => exact List.forall_mem_cons.mpr ⟨⟨rfl, hnonneg, hlt⟩, ih (by omega)⟩

variable [ToString α] [ToString ε]

mutual

theorem hung_branchItems {parentId : Int} {id : Nat} (hnonneg : 0 ≤ parentId)
    (hlt : parentId < id) : (b : Branch α ε) → ∀ i ∈ branchItems parentId id b, Hung i.entry
  | .node e ts bs => by
    have hid : (0 : Int) ≤ id := Int.natCast_nonneg id
    refine List.forall_mem_cons.mpr ⟨⟨rfl, hnonneg, hlt⟩, List.forall_mem_append.mpr ⟨?_, ?_⟩⟩
    · exact hung_forestItems hid (by omega) bs
    · exact hung_functionItems hid (by omega)

theorem hung_forestItems {parentId : Int} {id : Nat} (hnonneg : 0 ≤ parentId)
    (hlt : parentId < id) : (bs : List (Branch α ε)) →
      ∀ i ∈ forestItems parentId id bs, Hung i.entry
  | [] => nofun
  | b :: bs => List.forall_mem_append.mpr ⟨hung_branchItems hnonneg hlt b,
      hung_forestItems hnonneg (by omega) bs⟩

end

theorem hung_roots {p : Profile α ε} : ∀ i ∈ forestItems 0 1 p.roots, Hung i.entry :=
  hung_forestItems le_rfl (by decide) p.roots

end Hung

/-! ## Depths of an element -/

section Shows

variable [ToString α] [ToString ε] [DecidableEq ε] {e : ε}

omit [ToString ε] in
theorem filter_shows_eq_nil {is : List (OutlineItem ε)}
    (h : ∀ i ∈ is, ∀ d, i.shows ≠ some (e, d)) :
    (is.filterMap OutlineItem.shows).filter (fun y => y.1 = e) = [] := by
  refine List.filter_eq_nil_iff.mpr ?_
  rintro ⟨e', d⟩ hy
  obtain ⟨i, hi, hs⟩ := List.mem_filterMap.mp hy
  refine mt of_decide_eq_true fun he => h i hi d ?_
  rw [hs, ← show e' = e from he]

theorem filter_shows_forest_eq_nil {parentId : Int} {id : Nat} {bs : List (Branch α ε)}
    (he : e ∉ (Branch.allIn bs).map Branch.element) :
    ((forestItems parentId id bs).filterMap OutlineItem.shows).filter (fun y => y.1 = e) = [] :=
  filter_shows_eq_nil fun i hi d hs => by
    obtain ⟨c, hc, hce, -⟩ := forest_of_shows bs hi hs
    exact he (List.mem_map.mpr ⟨c, hc, hce⟩)

theorem filter_shows_branch_eq_nil {parentId : Int} {id : Nat} {b : Branch α ε}
    (he : e ∉ b.all.map Branch.element) :
    ((branchItems parentId id b).filterMap OutlineItem.shows).filter (fun y => y.1 = e) = [] :=
  filter_shows_eq_nil fun i hi d hs => by
    obtain ⟨c, hc, hce, -⟩ := branch_of_shows b hi hs
    exact he (List.mem_map.mpr ⟨c, hc, hce⟩)

mutual

theorem filter_shows_branchItems {parentId : Int} {id : Nat} {c : Branch α ε} : (b : Branch α ε) →
    c ∈ b.all → (b.all.map Branch.element).Nodup →
      ((branchItems parentId id b).filterMap OutlineItem.shows).filter (fun y => y.1 = c.element) =
        (List.range (depthEnds c.trees).length).map fun d => (c.element, d)
  | .node e ts bs, hc, hnodup => by
    obtain ⟨he, hbs⟩ := List.nodup_cons.mp hnodup
    rw [branchItems, List.filterMap_cons_none rfl, List.filterMap_append, shows_functionItems,
      List.filter_append, List.range_eq_range']
    rcases List.mem_cons.mp hc with rfl | hc
    · rw [filter_shows_forest_eq_nil he, List.nil_append, List.filter_eq_self.mpr]
      · rfl
      · rintro y hy
        obtain ⟨d, -, rfl⟩ := List.mem_map.mp hy
        exact decide_eq_true rfl
    · have hne : e ≠ c.element := fun h => he (List.mem_map.mpr ⟨c, hc, h.symm⟩)
      rw [filter_shows_forestItems bs hc hbs, List.filter_eq_nil_iff.mpr, List.append_nil,
        List.range_eq_range']
      rintro y hy
      obtain ⟨d, -, rfl⟩ := List.mem_map.mp hy
      exact mt of_decide_eq_true hne

/-- The function entries of an element are its depths, in order. -/
theorem filter_shows_forestItems {parentId : Int} {id : Nat} {c : Branch α ε} :
    (bs : List (Branch α ε)) → c ∈ Branch.allIn bs → ((Branch.allIn bs).map Branch.element).Nodup →
      ((forestItems parentId id bs).filterMap OutlineItem.shows).filter (fun y => y.1 = c.element) =
        (List.range (depthEnds c.trees).length).map fun d => (c.element, d)
  | [], hc, _ => nomatch hc
  | b :: bs, hc, hnodup => by
    rw [Branch.allIn, List.map_append] at hnodup
    obtain ⟨hb, hbs, hdisjoint⟩ := List.nodup_append'.mp hnodup
    rw [forestItems, List.filterMap_append, List.filter_append]
    rcases List.mem_append.mp hc with hc | hc
    · rw [filter_shows_branchItems b hc hb,
        filter_shows_forest_eq_nil (hdisjoint (List.mem_map_of_mem hc)), List.append_nil]
    · have hnot : c.element ∉ b.all.map Branch.element := fun h =>
        hdisjoint h (List.mem_map_of_mem hc)
      rw [filter_shows_branch_eq_nil hnot, filter_shows_forestItems bs hc hbs, List.nil_append]

end

end Shows

/-! ## The index -/

section Index

variable [ToString ε]

/-- The outline lists the profile. `level` maps an element to the id of its level. -/
structure Indexes [DecidableEq ε] (level : ε → Int) (p : Profile α ε) (traceName : String)
    (o : Outline ε) : Prop where
  ids : o.entries.map Entry.id = (List.range o.entries.length).map Int.ofNat
  trace : ∃ trace rest, o.entries = trace :: rest ∧
    (trace.kind = .trace ∧ trace.parentId = Entry.noParent ∧ trace.name = traceName) ∧
    ∀ x ∈ rest, x.kind ≠ .trace ∧ x.parentId ≠ Entry.noParent ∧ x.parentId < x.id
  levels : ((o.entries.filter fun x => x.kind = .level).map fun x => (x.id, x.name, x.parentId)) =
    p.elements.map fun e => (level e, toString e, ((p.parentOf e).map level).getD 0)
  depths : ∀ e ∈ p.elements,
    ((o.entries.filter fun x => x.kind = .function ∧ x.parentId = level e).map fun x =>
      (x.depth, x.name)) =
        (List.range (((p.treesOf e).map CallTree.height).max?.getD 0)).map fun d =>
          (some d, toString d)
  functions : o.functions.map Prod.fst = (o.entries.filter fun x => x.kind = .function).map Entry.id
  shown_iff : ∀ id e d, o.shown? id = some (e, d) ↔ e ∈ p.elements ∧
    ∃ x ∈ o.entries, x.id = id ∧ x.kind = .function ∧ x.parentId = level e ∧ x.depth = some d
  shown_once : (o.functions.map Prod.snd).Nodup

variable {level : ε → Int} {is : List (OutlineItem ε)}

theorem Indexes.exists_shown [DecidableEq ε] {p : Profile α ε} {traceName : String} {o : Outline ε}
    (h : Indexes level p traceName o) {e : ε} (he : e ∈ p.elements) {d : Nat}
    (hd : d < ((p.treesOf e).map CallTree.height).max?.getD 0) :
    ∃ id, o.shown? id = some (e, d) := by
  have hmem : (some d, toString d) ∈
      (List.range (((p.treesOf e).map CallTree.height).max?.getD 0)).map
        fun d => (some d, toString d) := List.mem_map_of_mem (List.mem_range.mpr hd)
  rw [← h.depths e he] at hmem
  obtain ⟨x, hx, heq⟩ := List.mem_map.mp hmem
  obtain ⟨hx, hfunction⟩ := List.mem_filter.mp hx
  obtain ⟨hkind, hparent⟩ := of_decide_eq_true hfunction
  exact ⟨x.id, (h.shown_iff x.id e d).mpr
    ⟨he, x, hx, rfl, hkind, hparent, congrArg Prod.fst heq⟩⟩

omit [ToString ε] in
theorem map_filter_function [DecidableEq ε] {e : ε} (h : ∀ i ∈ is, Role level i)
    (hinj : ∀ y ∈ is.filterMap OutlineItem.shows, level y.1 = level e → y.1 = e) :
    (((is.map OutlineItem.entry).filter fun x => x.kind = .function ∧ x.parentId = level e).map
      fun x => (x.depth, x.name)) =
        ((is.filterMap OutlineItem.shows).filter fun y => y.1 = e).map fun y =>
          (some y.2, toString y.2) := by
  induction is with
  | nil => rfl
  | cons i is ih =>
    obtain ⟨hi, his⟩ := List.forall_mem_cons.mp h
    cases hi with
    | level hkind hshows =>
      rw [List.filterMap_cons_none hshows] at hinj ⊢
      rw [List.map_cons, List.filter_cons_of_neg (by simp [hkind]), ih his hinj]
    | @function e' d hkind hshows hparent hdepth hname =>
      rw [List.filterMap_cons_some hshows] at hinj ⊢
      obtain ⟨hhead, hinj⟩ := List.forall_mem_cons.mp hinj
      by_cases he : e' = e
      · rw [List.map_cons, List.filter_cons_of_pos (by simp [hkind, hparent, he]),
          List.filter_cons_of_pos (by simp [he]), List.map_cons, List.map_cons, ih his hinj, hdepth,
          hname]
      · have hlevel : level e' ≠ level e := fun heq => he (hhead heq)
        rw [List.map_cons, List.filter_cons_of_neg (by simp [hparent, hlevel]),
          List.filter_cons_of_neg (by simp [he]), ih his hinj]

omit [ToString ε] in
theorem map_fst_functions (h : ∀ i ∈ is, Role level i) :
    (is.filterMap fun i => i.shows.map fun y => (i.entry.id, y)).map Prod.fst =
      ((is.map OutlineItem.entry).filter fun x => x.kind = .function).map Entry.id := by
  induction is with
  | nil => rfl
  | cons i is ih =>
    obtain ⟨hi, his⟩ := List.forall_mem_cons.mp h
    cases hi with
    | level hkind hshows =>
      rw [List.filterMap_cons_none (by simp [hshows]), List.map_cons,
        List.filter_cons_of_neg (by simp [hkind]), ih his]
    | function hkind hshows =>
      rw [List.filterMap_cons_some (by rw [hshows]; rfl), List.map_cons, List.map_cons,
        List.filter_cons_of_pos (by simp [hkind]), List.map_cons, ih his]

omit [ToString ε] in
theorem map_snd_functions (is : List (OutlineItem ε)) :
    (is.filterMap fun i => i.shows.map fun y => (i.entry.id, y)).map Prod.snd =
      is.filterMap OutlineItem.shows := by
  rw [List.map_filterMap]
  exact List.filterMap_congr fun i _ => by cases i.shows <;> rfl

omit [ToString ε] in
theorem lookup_functions {i : OutlineItem ε} {x : ε × Nat}
    (hnodup : (is.map fun i => i.entry.id).Nodup) (hi : i ∈ is) (hx : i.shows = some x) :
    (is.filterMap fun i => i.shows.map fun y => (i.entry.id, y)).lookup i.entry.id = some x := by
  induction is with
  | nil => cases hi
  | cons j is ih =>
    obtain ⟨hj, hnodup⟩ := List.nodup_cons.mp hnodup
    rcases List.mem_cons.mp hi with rfl | hi
    · rw [List.filterMap_cons_some (by rw [hx]; rfl), List.lookup_cons_self]
    · have hne : (i.entry.id == j.entry.id) = false :=
        beq_false_of_ne fun h => hj (List.mem_map.mpr ⟨i, hi, h⟩)
      cases hs : j.shows with
      | none => rw [List.filterMap_cons_none (by rw [hs]; rfl), ih hnodup hi]
      | some y =>
        rw [List.filterMap_cons_some (by rw [hs]; rfl), List.lookup_cons, hne]
        exact ih hnodup hi

variable [ToString α] {p : Profile α ε} {traceName : String}

theorem shown?_eq_some_iff {id : Int} {x : ε × Nat} :
    (of p traceName).shown? id = some x ↔
      ∃ i ∈ items p traceName, i.entry.id = id ∧ i.shows = some x := by
  refine ⟨item_of_shown?, ?_⟩
  rintro ⟨i, hi, rfl, hx⟩
  exact lookup_functions (nodup_ids p traceName) hi hx

theorem nodup_levelIds (p : Profile α ε) : (levelIds (forestItems 0 1 p.roots)).Nodup := by
  have hids := nodup_ids p ""
  rw [items, List.map_cons] at hids
  exact (List.filter_sublist.map fun i : OutlineItem ε => i.entry.id).nodup
    (List.nodup_cons.mp hids).2

theorem exists_level [DecidableEq ε] (h : p.elements.Nodup) :
    ∃ level : ε → Int, levelIds (forestItems 0 1 p.roots) = p.elements.map level := by
  set found := levelIds (forestItems 0 1 p.roots)
  have hlength : found.length = p.elements.length := by
    rw [length_levelIds_forestItems, Profile.elements, List.length_map, Profile.branches]
  refine ⟨fun e => found.getD (p.elements.idxOf e) 0, ?_⟩
  refine List.ext_getElem (by rw [List.length_map, hlength]) fun i hi hi' => ?_
  have hlt : i < p.elements.length := by rwa [← hlength]
  rw [List.getElem_map, h.idxOf_getElem i hlt, List.getD_eq_getElem?_getD,
    List.getElem?_eq_getElem hi, Option.getD_some]

omit [ToString α] [ToString ε] in
theorem Role.kind_ne_trace {i : OutlineItem ε} (h : Role level i) : i.entry.kind ≠ .trace := by
  cases h with
  | level hkind => simp [hkind]
  | function hkind => simp [hkind]

/-- `shown?` gives the function entries below the level of an element. -/
theorem shown?_iff_of_roles (hroles : ∀ i ∈ forestItems 0 1 p.roots, Role level i)
    (hinj : ∀ e ∈ p.elements, ∀ e' ∈ p.elements, level e = level e' → e = e') {id : Int} {e : ε}
    {d : Nat} : (of p traceName).shown? id = some (e, d) ↔ e ∈ p.elements ∧
      ∃ x ∈ (of p traceName).entries,
        x.id = id ∧ x.kind = .function ∧ x.parentId = level e ∧ x.depth = some d := by
  have hshown : ∀ i ∈ forestItems 0 1 p.roots, ∀ y, i.shows = some y → y.1 ∈ p.elements :=
    fun i hi y hy => element_mem_of_mem_shows (List.mem_filterMap.mpr ⟨i, hi, hy⟩)
  rw [shown?_eq_some_iff]
  constructor
  · rintro ⟨i, hi, rfl, hx⟩
    have hentry : i.entry ∈ (of p traceName).entries := List.mem_map_of_mem hi
    rcases List.mem_cons.mp hi with rfl | hi
    · cases hx
    cases hroles i hi with
    | level _ hnone => rw [hnone] at hx; cases hx
    | function hkind hsome hlevel hdepth =>
      rw [hsome] at hx
      cases hx
      exact ⟨hshown i hi _ hsome, i.entry, hentry, rfl, hkind, hlevel, hdepth⟩
  · rintro ⟨he, x, hx, rfl, hkind, hlevel, hdepth⟩
    obtain ⟨i, hi, rfl⟩ := List.mem_map.mp hx
    refine ⟨i, hi, rfl, ?_⟩
    rcases List.mem_cons.mp hi with rfl | hi
    · cases hkind
    cases hroles i hi with
    | level hkind' => rw [hkind] at hkind'; cases hkind'
    | @function e' d' _ hsome hlevel' hdepth' =>
      have he' : e' = e := hinj e' (hshown i hi _ hsome) e he (hlevel'.symm.trans hlevel)
      have hd : d' = d := Option.some.inj (hdepth'.symm.trans hdepth)
      rw [hsome, he', hd]

/-- The outline of unique elements is an index of the profile. -/
theorem indexes_of [DecidableEq ε] (h : p.elements.Nodup) (traceName : String) :
    ∃ level, Indexes level p traceName (of p traceName) := by
  obtain ⟨level, hids⟩ := exists_level h
  set is := forestItems 0 1 p.roots with his
  have hplaced : Placed level p.links is := by
    refine placed_forestItems rfl p.roots (hids.trans ?_)
    rw [Profile.elements, List.map_map]
    rfl
  have hinj : ∀ e ∈ p.elements, ∀ e' ∈ p.elements, level e = level e' → e = e' := by
    have hnodup : (p.elements.map level).Nodup := hids ▸ nodup_levelIds p
    exact fun e he e' he' heq => List.inj_on_of_nodup_map hnodup he he' heq
  have hentries : (of p traceName).entries =
      { id := 0, parentId := Entry.noParent, name := traceName, finish := forestEnd p.roots,
        kind := .trace } :: is.map OutlineItem.entry := rfl
  have hfunctions : (of p traceName).functions =
      is.filterMap fun i => i.shows.map fun y => (i.entry.id, y) := rfl
  refine ⟨level, ?_, ?_, ?_, ?_, ?_, fun id e d => shown?_iff_of_roles hplaced.roles hinj, ?_⟩
  · rw [of, List.map_map, List.length_map]
    exact ids_items p traceName
  · refine ⟨_, _, hentries, ⟨rfl, rfl, rfl⟩, ?_⟩
    rintro x hx
    obtain ⟨i, hi, rfl⟩ := List.mem_map.mp hx
    obtain ⟨-, hnonneg, hlt⟩ := hung_roots i hi
    have hne : i.entry.parentId ≠ Entry.noParent := fun heq => by
      rw [heq] at hnonneg
      exact absurd hnonneg (by decide)
    exact ⟨(hplaced.roles i hi).kind_ne_trace, hne, hlt⟩
  · rw [hentries, List.filter_cons_of_neg (by simp), List.filter_map, List.map_map]
    refine hplaced.levels.trans ?_
    rw [Profile.links_eq_map h, List.map_map]
    rfl
  · intro e he
    have hlevel : ∀ y ∈ is.filterMap OutlineItem.shows, level y.1 = level e → y.1 = e :=
      fun y hy => hinj _ (element_mem_of_mem_shows hy) _ he
    obtain ⟨b, hb, rfl⟩ := List.mem_map.mp he
    rw [hentries, List.filter_cons_of_neg (by simp), map_filter_function hplaced.roles hlevel, his,
      filter_shows_forestItems p.roots hb h, List.map_map, Profile.treesOf_element h hb,
      length_depthEnds]
    rfl
  · rw [hfunctions, map_fst_functions hplaced.roles, hentries,
      List.filter_cons_of_neg (by simp)]
  · rw [hfunctions, map_snd_functions]
    exact nodup_shows_forestItems 0 1 p.roots h

end Index

end Outline

/-- The outline of a built profile is an index of its elements and of the depths of their trees,
unless cancelled. -/
theorem built_outline_indexes [ToString α] [ToString ε] [DecidableEq ε] [BEq α]
    {kind : CallTree α → Prop} {p : Profile α ε} (h : p.Built kind) (traceName : String) :
    ∃ o, Outline.build p traceName .live = some o ∧
      ∃ level, Outline.Indexes level p traceName o :=
  ⟨_, Engine.build_live p traceName, Outline.indexes_of h.nodup traceName⟩

/-- A process and its thread, both with trees. -/
theorem built_outline_indexes_thread :
    let main : CallTree Frame := (CallTree.leaf ("main" : Frame) 4).graft (.leaf ("draw" : Frame) 3)
    let p : Profile Frame Frame :=
      ((Profile.addChild {} ("p1" : Frame) "t1").addTree "p1" main).addTree "t1" (.leaf "wait" 2)
    p.Built (fun _ => True) ∧ ∃ o, Outline.build p "trace" .live = some o ∧
      o.entries.map (fun x => (x.id, x.name, x.parentId)) =
        [(0, "trace", -1), (1, "p1", 0), (2, "t1", 1), (3, "0", 2), (4, "0", 1), (5, "1", 1)] ∧
      ∃ level, Outline.Indexes level p "trace" o := by
  intro main p
  have hbuilt : p.Built fun _ => True :=
    .addTree _ (.addTree _ (.addChild (.empty []) (by decide)) trivial) trivial
  obtain ⟨o, ho, hindex⟩ := built_outline_indexes hbuilt "trace"
  refine ⟨hbuilt, o, ho, ?_, hindex⟩
  rw [Engine.build_eq_some ho]
  decide +kernel

end StackProfile
