import StackProfile.Proofs.PathWeight

/-!
# Trees of built profiles

`addTree` inserts among the trees of one element. Tallies of `Built` profiles, of one element or of
all, are those of the added trees.
-/

namespace StackProfile

variable {α ε : Type}

/-! ## The trees of one element -/

namespace Branch

variable [DecidableEq ε] [BEq α] {e d : ε} {t : CallTree α}

def treesIn (d : ε) (bs : List (Branch α ε)) : Option (List (CallTree α)) :=
  (bs.find? fun b => b.element = d).map trees

omit [BEq α] in
theorem treesIn_append (d : ε) (as bs : List (Branch α ε)) :
    treesIn d (as ++ bs) = (treesIn d as).or (treesIn d bs) := by
  rw [treesIn, List.find?_append, Option.map_or]
  rfl

omit [BEq α] in
theorem treesIn_node (d e : ε) (ts : List (CallTree α)) (bs : List (Branch α ε)) :
    treesIn d (Branch.node e ts bs).all = if e = d then some ts else treesIn d (allIn bs) := by
  rw [treesIn, all, List.find?_cons]
  by_cases hd : e = d
  · simp [element, trees, hd]
  · simp [element, hd, treesIn]

mutual

theorem treesIn_modify (b : Branch α ε) :
    treesIn d (modify e (addTree t) b).all =
      (treesIn d b.all).map fun ts => if d = e then CallTree.insert ts t else ts := by
  match b with
  | .node c ts bs =>
    unfold modify
    split
    · next hc =>
      subst hc
      by_cases hd : d = c
      · simp [treesIn, addTree, all, element, trees, hd]
      · simp [treesIn, addTree, all, element, Ne.symm hd, hd, Function.comp_def]
    · next hc =>
      by_cases hd : c = d
      · subst hd
        simp [treesIn, all, element, trees, hc]
      · have ih := treesIn_modifyIn bs
        simpa [treesIn, all, element, hd] using ih

/-- `addTree` changes the trees of `e` only. -/
theorem treesIn_modifyIn (bs : List (Branch α ε)) :
    treesIn d (allIn (modifyIn e (addTree t) bs)) =
      (treesIn d (allIn bs)).map fun ts => if d = e then CallTree.insert ts t else ts := by
  match bs with
  | [] => rfl
  | b :: bs =>
    rw [modifyIn, allIn, allIn, treesIn_append, treesIn_append, treesIn_modify b,
      treesIn_modifyIn bs, Option.map_or]

end

end Branch

namespace Profile

variable [DecidableEq ε] {p : Profile α ε} {e d : ε} {t : CallTree α}

theorem treesOf_eq (p : Profile α ε) (d : ε) :
    p.treesOf d = (Branch.treesIn d p.branches).getD [] := rfl

theorem isSome_treesIn {p : Profile α ε} {d : ε} :
    (Branch.treesIn d p.branches).isSome ↔ d ∈ p.elements := by
  rw [← contains_iff, Branch.treesIn, Option.isSome_map]
  rfl

theorem treesOf_of_not_mem (h : d ∉ p.elements) : p.treesOf d = [] := by
  rw [treesOf_eq, Option.not_isSome_iff_eq_none.mp (mt isSome_treesIn.mp h)]
  rfl

theorem mem_elements_addRoot_self (p : Profile α ε) (e : ε) : e ∈ (p.addRoot e).elements := by
  by_cases he : e ∈ p.elements
  · rwa [addRoot_of_mem he]
  · rw [elements_addRoot he]
    exact List.mem_append_right _ List.mem_cons_self

theorem treesOf_addRoot (p : Profile α ε) (e d : ε) : (p.addRoot e).treesOf d = p.treesOf d := by
  by_cases he : e ∈ p.elements
  · rw [addRoot_of_mem he]
  · rw [treesOf_eq, treesOf_eq, branches_addRoot he, Branch.treesIn_append]
    cases Branch.treesIn d p.branches with
    | some ts => rfl
    | none =>
      by_cases hd : e = d
      · simp [Branch.treesIn, Branch.element, Branch.trees, hd]
      · simp [Branch.treesIn, Branch.element, hd]

theorem treesOf_addTree [BEq α] (p : Profile α ε) (e d : ε) (t : CallTree α) :
    (p.addTree e t).treesOf d =
      if d = e then CallTree.insert (p.treesOf d) t else p.treesOf d := by
  have hmap : Branch.treesIn d (p.addTree e t).branches =
      (Branch.treesIn d (p.addRoot e).branches).map
        fun ts => if d = e then CallTree.insert ts t else ts := Branch.treesIn_modifyIn _
  rw [← treesOf_addRoot p e d, treesOf_eq, treesOf_eq, hmap]
  by_cases hd : d = e
  · subst hd
    obtain ⟨ts, hts⟩ := Option.isSome_iff_exists.mp
      (isSome_treesIn.mpr (mem_elements_addRoot_self p d))
    simp [hts]
  · simp [hd]

/-! ## All trees -/

def allTrees (p : Profile α ε) : List (CallTree α) := p.branches.flatMap Branch.trees

theorem Sound.allTrees_eq (h : p.Sound) : p.allTrees = p.elements.flatMap p.treesOf := by
  rw [allTrees, elements, List.flatMap_map]
  exact List.flatMap_congr fun b hb => (treesOf_element h.distinct hb).symm

omit [DecidableEq ε] in
theorem Sound.of_mem_allTrees (h : p.Sound) : ∀ t ∈ p.allTrees, t.Sound := by
  intro t ht
  obtain ⟨b, hb, ht⟩ := List.mem_flatMap.mp ht
  exact h.trees b hb t ht

theorem allTrees_addRoot (p : Profile α ε) (e : ε) : (p.addRoot e).allTrees = p.allTrees := by
  by_cases he : e ∈ p.elements
  · rw [addRoot_of_mem he]
  · simp [allTrees, branches_addRoot he, Branch.trees]

/-- `addTree` adds to the tallies of all trees. -/
theorem Sound.tallyAt_allTrees_addTree [BEq α] [PartialEquivBEq α] (h : p.Sound) (ht : t.Sound)
    (path : List α) :
    CallTree.tallyAt path (p.addTree e t).allTrees = CallTree.tallyAt path (p.allTrees ++ [t]) := by
  have hroot := h.addRoot e
  obtain ⟨before, after, hsplit⟩ := List.append_of_mem (mem_elements_addRoot_self p e)
  have hnodup : (before ++ e :: after).Nodup := hsplit ▸ hroot.distinct
  rw [List.nodup_append', List.nodup_cons, List.disjoint_cons_right] at hnodup
  obtain ⟨-, ⟨hafter, -⟩, hbefore, -⟩ := hnodup
  have hsame : ∀ l : List ε, e ∉ l → l.flatMap (p.addTree e t).treesOf = l.flatMap p.treesOf :=
    fun l hl => List.flatMap_congr fun d hd => by
      have hde : d ≠ e := fun hde => hl (hde ▸ hd)
      rw [treesOf_addTree, if_neg hde]
  have hnew : (p.addTree e t).allTrees = before.flatMap p.treesOf ++
      (CallTree.insert (p.treesOf e) t ++ after.flatMap p.treesOf) := by
    rw [(h.addTree e ht).allTrees_eq, elements_addTree, hsplit, List.flatMap_append,
      List.flatMap_cons, hsame before hbefore, hsame after hafter, treesOf_addTree, if_pos rfl]
  have hold : p.allTrees = before.flatMap p.treesOf ++
      (p.treesOf e ++ after.flatMap p.treesOf) := by
    have hroots : (p.addRoot e).treesOf = p.treesOf := funext (treesOf_addRoot p e)
    rw [← allTrees_addRoot p e, hroot.allTrees_eq, hsplit, hroots, List.flatMap_append,
      List.flatMap_cons]
  have hinsert := CallTree.tallyAt_insert (h.treesOf e) ht path
  rw [hnew, hold, CallTree.tallyAt_append_congr rfl (CallTree.tallyAt_append_congr hinsert rfl)]
  refine CallTree.tallyAt_perm path ?_
  rw [List.append_assoc, List.append_assoc, List.append_assoc]
  exact (List.perm_append_comm.append_left _).append_left _

/-! ## Profiles as they are built -/

section Built

variable [BEq α]

/-- Profiles built by additions of trees of a `kind`, with no element below itself. -/
inductive Built (kind : CallTree α → Prop) : Profile α ε → Prop where
  | empty (titles : List String) : Built kind { extraTitles := titles }
  | addRoot {p : Profile α ε} (e : ε) : Built kind p → Built kind (p.addRoot e)
  | addChild {p : Profile α ε} {parent e : ε} :
      Built kind p → e ≠ parent → Built kind (p.addChild parent e)
  | addTree {p : Profile α ε} (e : ε) {t : CallTree α} :
      Built kind p → kind t → Built kind (p.addTree e t)

variable {kind : CallTree α → Prop}

theorem Built.nodup (h : p.Built kind) : p.elements.Nodup := by
  induction h with
  | empty titles => exact List.nodup_nil
  | addRoot e _ ih => exact nodup_addRoot ih e
  | addChild _ hne ih => exact nodup_addChild ih hne
  | addTree e _ _ ih => exact nodup_addTree ih e _

theorem Built.imp {kind' : CallTree α → Prop} (h : p.Built kind)
    (hkind : ∀ t, kind t → kind' t) : p.Built kind' := by
  induction h with
  | empty titles => exact .empty titles
  | addRoot e _ ih => exact .addRoot e ih
  | addChild _ hne ih => exact .addChild ih hne
  | addTree e _ ht ih => exact .addTree e ih (hkind _ ht)

theorem Built.sound (h : p.Built kind) (hkind : ∀ t, kind t → t.Sound) : p.Sound := by
  induction h with
  | empty titles => exact sound_of_titles titles
  | addRoot e _ ih => exact ih.addRoot e
  | addChild _ hne ih => exact ih.addChild hne
  | addTree e _ ht ih => exact ih.addTree e (hkind _ ht)

theorem Built.eachTrees {P : List (CallTree α) → Prop} (h : p.Built kind) (hnil : P [])
    (hinsert : ∀ ts t, kind t → P ts → P (CallTree.insert ts t)) :
    Branch.EachTrees P p.branches := by
  induction h with
  | empty titles => exact fun b hb => nomatch hb
  | addRoot e _ ih => exact eachTrees_addRoot hnil ih e
  | addChild _ _ ih => exact eachTrees_addChild hnil ih _ _
  | addTree e _ ht ih => exact eachTrees_addTree hnil (fun ts => hinsert ts _ ht) ih e

theorem Built.apart (h : p.Built kind) : Branch.EachTrees CallTree.Apart p.branches :=
  h.eachTrees .nil fun _ t _ hts => hts.insert t

theorem Built.distinct (h : p.Built kind) (hkind : ∀ t, kind t → t.Distinct) :
    Branch.EachTrees CallTree.DistinctAll p.branches :=
  h.eachTrees .nil fun _ _ ht hts => hts.insert (hkind _ ht)

end Built

/-! ## One element -/

variable {ts : List (CallTree α)}

omit [DecidableEq ε] in
theorem allTrees_of_lone (h : p.roots = [.node e ts []]) : p.allTrees = ts := by
  simp [allTrees, branches, h, Branch.allIn, Branch.all, Branch.trees]

omit [DecidableEq ε] in
theorem mem_elements_of_lone (h : p.roots = [.node e ts []]) : e ∈ p.elements := by
  simp [elements, branches, h, Branch.allIn, Branch.all, Branch.element]

theorem treesOf_of_lone (h : p.roots = [.node e ts []]) : p.treesOf e = ts := by
  simp [treesOf_eq, branches, h, Branch.allIn, Branch.treesIn_node]

omit [DecidableEq ε] in
/-- `coarsen 0` merges all trees under one element. -/
theorem roots_coarsen_zero [BEq α] [Grouping ε] (p : Profile α ε) :
    (p.coarsen 0).roots = [.node Grouping.everything (p.allTrees.foldl CallTree.insert []) []] :=
  rfl

theorem roots_addTree_of_lone [BEq α] (h : p.roots = [.node e ts []])
    (t : CallTree α) : (p.addTree e t).roots = [.node e (CallTree.insert ts t) []] := by
  rw [Profile.addTree, addRoot_of_mem (mem_elements_of_lone h)]
  simp [h, Branch.modifyIn, Branch.modify, Branch.addTree]

theorem treesOf_coarsen_zero [BEq α] [Grouping ε] (p : Profile α ε) :
    (p.coarsen 0).treesOf Grouping.everything = p.allTrees.foldl CallTree.insert [] :=
  treesOf_of_lone p.roots_coarsen_zero

end Profile

end StackProfile
