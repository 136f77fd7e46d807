import Mathlib.Logic.Relation
import StackProfile.Proofs.Hierarchy
import StackProfile.Proofs.MergeSteps

/-!
# Coarser profiles

`coarsen (n + 1)` is a cut at level `n` (`CutAt`), `coarsen 0` pools all elements (`Pooled`), and a
cut below the last level is the identity.
-/

namespace StackProfile

variable {α ε : Type}

namespace Branch

/-! ## Forests with few levels -/

theorem levelIn_cons (k : Nat) (b : Branch α ε) (bs : List (Branch α ε)) :
    levelIn k (b :: bs) = levelIn k [b] ++ levelIn k bs := levelIn_append k [b] bs

theorem levelIn_succ_singleton (k : Nat) (b : Branch α ε) :
    levelIn (k + 1) [b] = levelIn k b.children := by
  rw [levelIn, List.flatMap_singleton]

theorem cutBelowIn_eq_self [BEq α] {n : Nat} {bs : List (Branch α ε)}
    (hlevel : levelIn (n + 1) bs = []) (hapart : EachTrees CallTree.Apart (allIn bs)) :
    cutBelowIn n bs = bs := by
  -- induction on the level, and on the forest to get at the children of one branch
  induction n generalizing bs with
  | zero =>
    induction bs with
    | nil => rw [cutBelowIn]
    | cons b bs ih =>
      obtain ⟨hb, hbs⟩ := List.append_eq_nil_iff.mp (levelIn_cons 1 b bs ▸ hlevel)
      obtain ⟨hapart, hrest⟩ := eachTrees_append.mp hapart
      obtain ⟨e, ts, cs⟩ := b
      rw [levelIn_succ_singleton] at hb
      obtain rfl : cs = [] := hb
      have hts : ts.foldl CallTree.insert [] = ts :=
        (eachTrees_singleton.mp hapart : CallTree.Apart ts).foldl_insert
      have hself : cutBelow 0 (.node e ts []) = .node e ts [] := by
        rw [cutBelow_zero, gather, all, allIn, List.flatMap_singleton]
        exact congrArg (Branch.node e · []) hts
      rw [cutBelowIn, hself, ih hbs hrest]
  | succ n ihn =>
    induction bs with
    | nil => rw [cutBelowIn]
    | cons b bs ih =>
      obtain ⟨hb, hbs⟩ := List.append_eq_nil_iff.mp (levelIn_cons (n + 2) b bs ▸ hlevel)
      obtain ⟨hapart, hrest⟩ := eachTrees_append.mp hapart
      obtain ⟨e, ts, cs⟩ := b
      obtain ⟨hts, hcs⟩ := eachTrees_cons.mp hapart
      rw [levelIn_succ_singleton] at hb
      have hchildren : cutBelowIn n cs = cs := ihn hb hcs
      have hts : ts.foldl CallTree.insert [] = ts := CallTree.Apart.foldl_insert hts
      rw [cutBelowIn, cutBelow, hchildren, hts, ih hbs hrest]

end Branch

namespace Profile

variable [DecidableEq ε] {p : Profile α ε} {e d : ε}

/-! ## Elements below -/

/-- Reflexive and transitive closure of `childrenOf`. -/
def Under (p : Profile α ε) : ε → ε → Prop := Relation.ReflTransGen fun d c => c ∈ p.childrenOf d

omit [DecidableEq ε] in
theorem mem_branches_of_mem_all {b c : Branch α ε} (hb : b ∈ p.branches) (hc : c ∈ b.all) :
    c ∈ p.branches := (Branch.all_infix_allIn p.roots hb).subset hc

mutual

theorem under_of_mem_all (h : p.elements.Nodup) {c : Branch α ε} : (b : Branch α ε) →
    b ∈ p.branches → c ∈ b.all → p.Under b.element c.element
  | .node d ts bs, hb, hc => by
    rcases List.mem_cons.mp hc with rfl | hc
    · exact .refl
    · obtain ⟨a, ha, hca⟩ := under_of_mem_allIn h bs
        (fun a ha => mem_branches_of_mem_all hb (Branch.mem_all_of_mem_children ha)) hc
      have hchild : a.element ∈ p.childrenOf d := by
        rw [← show (Branch.node d ts bs).element = d from rfl, childrenOf_element h hb]
        exact List.mem_map_of_mem ha
      exact .head hchild hca

theorem under_of_mem_allIn (h : p.elements.Nodup) {c : Branch α ε} : (bs : List (Branch α ε)) →
    (∀ b ∈ bs, b ∈ p.branches) → c ∈ Branch.allIn bs → ∃ b ∈ bs, p.Under b.element c.element
  | [], _, hc => nomatch hc
  | b :: bs, hbs, hc => by
    obtain ⟨hb, hbs⟩ := List.forall_mem_cons.mp hbs
    rcases List.mem_append.mp hc with hc | hc
    · exact ⟨b, List.mem_cons_self, under_of_mem_all h b hb hc⟩
    · obtain ⟨a, ha, hca⟩ := under_of_mem_allIn h bs hbs hc
      exact ⟨a, List.mem_cons_of_mem _ ha, hca⟩

end

theorem mem_below_iff (h : p.elements.Nodup) (he : e ∈ p.elements) :
    d ∈ p.below e ↔ p.Under e d := by
  obtain ⟨b, hb, rfl⟩ := List.mem_map.mp he
  rw [below_element h hb]
  constructor
  · intro hd
    obtain ⟨c, hc, rfl⟩ := List.mem_map.mp hd
    exact under_of_mem_all h b hb hc
  · intro hd
    induction hd with
    | refl => exact List.mem_map_of_mem (Branch.mem_all_self b)
    | tail _ hstep ih =>
      obtain ⟨c, hc, rfl⟩ := List.mem_map.mp ih
      rw [childrenOf_element h (mem_branches_of_mem_all hb hc)] at hstep
      obtain ⟨a, ha, rfl⟩ := List.mem_map.mp hstep
      have hac : a ∈ c.all := Branch.mem_all_of_mem_children ha
      exact List.mem_map_of_mem ((Branch.all_infix_all b hc).subset hac)

theorem nodup_below (h : p.elements.Nodup) (he : e ∈ p.elements) : (p.below e).Nodup := by
  obtain ⟨b, hb, rfl⟩ := List.mem_map.mp he
  rw [below_element h hb]
  exact ((Branch.all_infix_allIn p.roots hb).sublist.map Branch.element).nodup h

/-- `below` lists the trees of the branches. -/
theorem flatMap_treesOf_below (h : p.elements.Nodup) {b : Branch α ε} (hb : b ∈ p.branches) :
    (p.below b.element).flatMap p.treesOf = b.all.flatMap Branch.trees := by
  rw [below_element h hb, List.flatMap_map]
  exact List.flatMap_congr fun c hc => treesOf_element h (mem_branches_of_mem_all hb hc)

/-! ## Cutting off -/

variable [BEq α]

/-- `q` is `p` with lowest level `n`. Elements there carry the tallies of everything below them. -/
structure CutAt (n : Nat) (p q : Profile α ε) : Prop where
  titles : q.extraTitles = p.extraTitles
  roots : q.rootElements = p.rootElements
  elements : ∀ e, e ∈ q.elements ↔ ∃ k ≤ n, e ∈ p.level k
  parents : ∀ k ≤ n, ∀ e ∈ p.level k, q.parentOf e = p.parentOf e
  children : ∀ k < n, ∀ e ∈ p.level k, q.childrenOf e = p.childrenOf e
  trees : ∀ k < n, ∀ e ∈ p.level k, q.treesOf e = p.treesOf e
  lowest_children : ∀ e ∈ p.level n, q.childrenOf e = []
  lowest_nodup : ∀ e ∈ p.level n, (p.below e).Nodup
  lowest_below : ∀ e ∈ p.level n, ∀ d, d ∈ p.below e ↔ p.Under e d
  lowest_tally : ∀ e ∈ p.level n, ∀ path, CallTree.tallyAt path (q.treesOf e) =
    CallTree.tallyAt path ((p.below e).flatMap p.treesOf)

variable [Grouping ε] {kind : CallTree α → Prop}

section CutAt

variable {n k : Nat}

/-- The branch of an upper element in `p.coarsen (n + 1)`. -/
theorem Sound.exists_cutBelow (h : p.Sound) (hk : k ≤ n) (he : e ∈ p.level k) :
    ∃ b ∈ p.branches, b.element = e ∧ Branch.cutBelow (n - k) b ∈ (p.coarsen (n + 1)).branches := by
  obtain ⟨b, hb, hbe⟩ := branch_of_mem_level h.distinct he
  exact ⟨b, Branch.levelIn_subset k p.roots hb, hbe, cutBelow_mem_branches_coarsen hk hb⟩

theorem Sound.mem_elements_coarsen_succ (h : p.Sound) :
    e ∈ (p.coarsen (n + 1)).elements ↔ ∃ k ≤ n, e ∈ p.level k := by
  rw [mem_elements_iff (h.coarsen (n + 1)).distinct]
  refine exists_congr fun k => ?_
  rw [h.level_coarsen]
  split
  · next hk => simp [hk]
  · next hk => simp [hk]

theorem Sound.parentOf_coarsen_succ (h : p.Sound) (he : e ∈ (p.coarsen (n + 1)).elements) :
    (p.coarsen (n + 1)).parentOf e = p.parentOf e :=
  Branch.parentIn?_cutBelowIn n p.roots h.distinct fun _ => he

theorem Sound.childrenOf_coarsen_succ (h : p.Sound) (hk : k < n) (he : e ∈ p.level k) :
    (p.coarsen (n + 1)).childrenOf e = p.childrenOf e := by
  obtain ⟨b, hb, rfl, hcut⟩ := h.exists_cutBelow (Nat.le_of_lt hk) he
  obtain ⟨m, hm⟩ : ∃ m, n - k = m + 1 := ⟨n - k - 1, by omega⟩
  have hchildren := childrenOf_element (h.coarsen (n + 1)).distinct hcut
  rwa [Branch.element_cutBelow, hm, Branch.children_cutBelow_succ, Branch.map_element_cutBelowIn,
    ← childrenOf_element h.distinct hb] at hchildren

theorem Built.treesOf_coarsen_succ (h : p.Built kind) (hs : p.Sound) (hk : k < n)
    (he : e ∈ p.level k) : (p.coarsen (n + 1)).treesOf e = p.treesOf e := by
  obtain ⟨b, hb, rfl, hcut⟩ := hs.exists_cutBelow (Nat.le_of_lt hk) he
  obtain ⟨m, hm⟩ : ∃ m, n - k = m + 1 := ⟨n - k - 1, by omega⟩
  have hmerged : b.trees.foldl CallTree.insert [] = b.trees :=
    CallTree.Apart.foldl_insert (h.apart b hb)
  have htrees := treesOf_element (hs.coarsen (n + 1)).distinct hcut
  rwa [Branch.element_cutBelow, hm, Branch.trees_cutBelow_succ, hmerged,
    ← treesOf_element hs.distinct hb] at htrees

/-- On the lowest level nothing is left below, and trees are merged from there downwards. -/
theorem Sound.lowest_coarsen_succ (h : p.Sound) (he : e ∈ p.level n) :
    (p.coarsen (n + 1)).childrenOf e = [] ∧
    (p.coarsen (n + 1)).treesOf e =
      ((p.below e).flatMap p.treesOf).foldl CallTree.insert [] := by
  obtain ⟨b, hb, rfl, hcut⟩ := h.exists_cutBelow (Nat.le_refl n) he
  rw [Nat.sub_self] at hcut
  have hnodup := (h.coarsen (n + 1)).distinct
  have hchildren := childrenOf_element hnodup hcut
  have htrees := treesOf_element hnodup hcut
  rw [Branch.element_cutBelow, Branch.children_cutBelow_zero] at hchildren
  rw [Branch.element_cutBelow, Branch.trees_cutBelow_zero, Branch.gather,
    ← flatMap_treesOf_below h.distinct hb] at htrees
  exact ⟨hchildren, htrees⟩

omit [BEq α] [Grouping ε] in
theorem Sound.of_mem_flatMap_treesOf (h : p.Sound) (es : List ε) :
    ∀ t ∈ es.flatMap p.treesOf, t.Sound := by
  intro t ht
  obtain ⟨e, -, ht⟩ := List.mem_flatMap.mp ht
  exact h.treesOf e t ht

theorem Built.cutAt_coarsen_succ [PartialEquivBEq α] (h : p.Built kind)
    (hkind : ∀ t, kind t → t.Sound) (n : Nat) : CutAt n p (p.coarsen (n + 1)) := by
  have hs := h.sound hkind
  have hmem : ∀ k ≤ n, ∀ e ∈ p.level k, e ∈ (p.coarsen (n + 1)).elements := fun k hk e he =>
    hs.mem_elements_coarsen_succ.mpr ⟨k, hk, he⟩
  have hknown : ∀ e ∈ p.level n, e ∈ p.elements := fun e he =>
    (mem_elements_iff hs.distinct).mpr ⟨n, he⟩
  exact {
    titles := rfl
    roots := Branch.map_element_cutBelowIn n p.roots
    elements := fun e => hs.mem_elements_coarsen_succ
    parents := fun k hk e he => hs.parentOf_coarsen_succ (hmem k hk e he)
    children := fun k hk e he => hs.childrenOf_coarsen_succ hk he
    trees := fun k hk e he => h.treesOf_coarsen_succ hs hk he
    lowest_children := fun e he => (hs.lowest_coarsen_succ he).1
    lowest_nodup := fun e he => nodup_below hs.distinct (hknown e he)
    lowest_below := fun e he d => mem_below_iff hs.distinct (hknown e he)
    lowest_tally := fun e he path => by
      rw [(hs.lowest_coarsen_succ he).2]
      exact CallTree.tallyAt_foldl_insert (by simp) (hs.of_mem_flatMap_treesOf _) path }

end CutAt

/-- `coarsen` below the last level is the identity. -/
theorem Built.coarsen_eq_self (h : p.Built kind) (hs : p.Sound) {n : Nat}
    (hn : p.level (n + 1) = []) : p.coarsen (n + 1) = p := by
  have hroots : Branch.cutBelowIn n p.roots = p.roots :=
    Branch.cutBelowIn_eq_self (List.map_eq_nil_iff.mp (level_eq hs.distinct (n + 1) ▸ hn)) h.apart
  rw [Profile.coarsen, hroots]

/-- `q` has a single element, with the tallies of all of `p`. -/
structure Pooled (p q : Profile α ε) : Prop where
  titles : q.extraTitles = p.extraTitles
  roots : q.rootElements = [Grouping.everything]
  elements : q.elements = [Grouping.everything]
  nodup : p.elements.Nodup
  tally : ∀ path, CallTree.tallyAt path (q.treesOf Grouping.everything) =
    CallTree.tallyAt path (p.elements.flatMap p.treesOf)

theorem Sound.pooled_coarsen_zero [PartialEquivBEq α] (h : p.Sound) : Pooled p (p.coarsen 0) where
  titles := rfl
  roots := rfl
  elements := rfl
  nodup := h.distinct
  tally path := by
    rw [treesOf_coarsen_zero, h.allTrees_eq]
    exact CallTree.tallyAt_foldl_insert (by simp) (h.of_mem_flatMap_treesOf _) path

/-- `coarsen` keeps distinct trees distinct, so a path has at most one node. -/
theorem Sound.length_nodesAt_coarsen [PartialEquivBEq α] (h : p.Sound)
    (hdistinct : ∀ e, ∀ t ∈ p.treesOf e, t.Distinct) (n : Nat) (e : ε) (path : List α) :
    (CallTree.nodesAt path ((p.coarsen n).treesOf e)).length ≤ 1 := by
  have hbranches : Branch.EachTrees (fun ts => ∀ t ∈ ts, t.Distinct) p.branches := fun b hb => by
    rw [← treesOf_element h.distinct hb]
    exact hdistinct b.element
  have hcoarse : Branch.EachTrees CallTree.DistinctAll (p.coarsen n).branches :=
    eachTrees_coarsen (fun bs hbs => CallTree.DistinctAll.foldl_insert .nil fun t ht => by
      obtain ⟨b, hb, ht⟩ := List.mem_flatMap.mp ht
      exact hbs b hb t ht) hbranches n
  exact CallTree.length_nodesAt_le path (of_eachTrees .nil hcoarse e)

/-- `coarsen` neither loses nor doubles a sample: `coarsen (n + 1)` cuts the profile at level `n`,
`coarsen 0` pools it, and a cut below the last level is the identity. Equal siblings are allowed,
nodes at one path then count together; without any, a path has at most one node. -/
theorem coarsen_keeps_samples [PartialEquivBEq α] (h : p.Built CallTree.Sound) :
    (∀ n, CutAt n p (p.coarsen (n + 1))) ∧
    Pooled p (p.coarsen 0) ∧
    (∀ n, p.level (n + 1) = [] → p.coarsen (n + 1) = p) ∧
    ((∀ e, ∀ t ∈ p.treesOf e, t.Distinct) → ∀ n e path,
      (CallTree.nodesAt path ((p.coarsen n).treesOf e)).length ≤ 1) := by
  have hs : p.Sound := h.sound fun t ht => ht
  refine ⟨?_, hs.pooled_coarsen_zero, ?_, hs.length_nodesAt_coarsen⟩
  · exact h.cutAt_coarsen_succ fun t ht => ht
  · exact fun n hn => h.coarsen_eq_self hs hn

/-- Two threads cut off below their process. -/
theorem coarsen_keeps_samples_threads :
    let process : Frame := "p1"
    let main (weight : Int) (callee : Frame) : CallTree Frame :=
      (CallTree.leaf ("main" : Frame) weight).graft (CallTree.leaf callee 3)
    let p : Profile Frame Frame :=
      ((Profile.addChild {} process "t1").addChild process "t2" |>.addTree "t1" (main 4 "draw"))
        |>.addTree "t2" (main 6 "read")
    p.Built CallTree.Sound ∧ CutAt 0 p (p.coarsen 1) ∧ p.coarsen 2 = p ∧
      CallTree.tallyAt [("main" : Frame)] ((p.coarsen 1).treesOf process) = some 10 := by
  intro process main p
  have hmain : ∀ (weight : Int) (callee : Frame), weight ≤ maxTime →
      (main weight callee).Sound := fun weight callee hweight =>
    (CallTree.sound_leaf _ hweight).graft (CallTree.sound_leaf _ (by decide))
  have hbuilt : p.Built CallTree.Sound := by
    refine .addTree _ (.addTree _ (.addChild (.addChild (.empty []) ?_) ?_) ?_) ?_
    · decide
    · decide
    · exact hmain 4 "draw" (by decide)
    · exact hmain 6 "read" (by decide)
  obtain ⟨hcut, -, hself, -⟩ := coarsen_keeps_samples hbuilt
  have hlevel : process ∈ p.level 0 := by decide
  refine ⟨hbuilt, hcut 0, hself 1 (by decide), ?_⟩
  rw [(hcut 0).lowest_tally process hlevel]
  decide

end Profile

end StackProfile
