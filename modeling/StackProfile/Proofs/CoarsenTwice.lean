import StackProfile.Proofs.CoarserProfile
import StackProfile.Proofs.GrownTree

/-!
# Coarsening twice

`(p.coarsen m).coarsen n` against `p.coarsen (min m n)`: equal hierarchies and tallies always, equal
profiles for `m ≤ n` or distinct trees. `Matched R` relates the two branch by branch, with `R`
equality of trees or of tallies, none of which sees that trees were merged beforehand
(`IgnoresMerging`).
-/

namespace StackProfile

variable {α ε : Type} [BEq α]

namespace Branch

/-! ## Trees merged beforehand -/

/-- Which of the trees, all with `P`, are merged beforehand makes no difference to `F`. -/
def IgnoresMerging {β : Type} (P : CallTree α → Prop) (F : List (CallTree α) → β) : Prop :=
  ∀ before ts after : List (CallTree α), (∀ t ∈ before, P t) → (∀ t ∈ ts, P t) →
    F (before ++ ts.foldl CallTree.insert [] ++ after) = F (before ++ ts ++ after)

theorem ignoresMerging_insert [PartialEquivBEq α] :
    IgnoresMerging (α := α) CallTree.Proper (List.foldl CallTree.insert []) := by
  intro before ts after hbefore hts
  have hsound : ∀ t ∈ before.foldl CallTree.insert [], t.Sound :=
    CallTree.sound_foldl_insert (by simp) fun t ht => (hbefore t ht).sound
  simp only [List.foldl_append, CallTree.foldl_insert_merged hsound hts]

theorem ignoresMerging_tallyAt [PartialEquivBEq α] (path : List α) :
    IgnoresMerging CallTree.Sound (CallTree.tallyAt path) := by
  intro before ts after _ hts
  have hmerged : CallTree.tallyAt path (ts.foldl CallTree.insert []) = CallTree.tallyAt path ts :=
    CallTree.tallyAt_foldl_insert (by simp) hts path
  exact CallTree.tallyAt_append_congr (CallTree.tallyAt_append_congr rfl hmerged) rfl

section IgnoresMerging

variable {β : Type} {P : CallTree α → Prop} {F : List (CallTree α) → β}

mutual

theorem IgnoresMerging.cutBelow (hF : IgnoresMerging P F) (before after : List (CallTree α))
    (hbefore : ∀ t ∈ before, P t) : (n : Nat) → (b : Branch α ε) →
      EachTrees (fun ts => ∀ t ∈ ts, P t) b.all →
        F (before ++ (Branch.cutBelow n b).all.flatMap trees ++ after) =
          F (before ++ b.all.flatMap trees ++ after)
  | 0, b, h => by
    rw [cutBelow_zero, all, allIn, List.flatMap_singleton]
    exact hF before _ after hbefore h.flatMap_trees
  | n + 1, .node e ts bs, h => by
    obtain ⟨hts, hbs⟩ := eachTrees_cons.mp h
    have hhead := hF before ts ((allIn (Branch.cutBelowIn n bs)).flatMap trees ++ after) hbefore hts
    have hrest := hF.cutBelowIn (before ++ ts) after (List.forall_mem_append.mpr ⟨hbefore, hts⟩)
      n bs hbs
    simp only [Branch.cutBelow, all, List.flatMap_cons, trees, List.append_assoc] at hhead hrest ⊢
    exact hhead.trans hrest

theorem IgnoresMerging.cutBelowIn (hF : IgnoresMerging P F) (before after : List (CallTree α))
    (hbefore : ∀ t ∈ before, P t) : (n : Nat) → (bs : List (Branch α ε)) →
      EachTrees (fun ts => ∀ t ∈ ts, P t) (allIn bs) →
        F (before ++ (allIn (Branch.cutBelowIn n bs)).flatMap trees ++ after) =
          F (before ++ (allIn bs).flatMap trees ++ after)
  | _, [], _ => by rw [Branch.cutBelowIn]
  | n, b :: bs, h => by
    obtain ⟨hb, hbs⟩ := eachTrees_append.mp h
    have hhead := hF.cutBelow before ((allIn (Branch.cutBelowIn n bs)).flatMap trees ++ after)
      hbefore n b hb
    have hrest := hF.cutBelowIn (before ++ b.all.flatMap trees) after
      (List.forall_mem_append.mpr ⟨hbefore, hb.flatMap_trees⟩) n bs hbs
    simp only [Branch.cutBelowIn, allIn, List.flatMap_append, List.append_assoc] at hhead hrest ⊢
    exact hhead.trans hrest

end

/-- Among the trees of a branch, `F` does not see a cut. -/
theorem IgnoresMerging.all_cutBelow (hF : IgnoresMerging P F) (n : Nat) {b : Branch α ε}
    (h : EachTrees (fun ts => ∀ t ∈ ts, P t) b.all) :
    F ((Branch.cutBelow n b).all.flatMap trees) = F (b.all.flatMap trees) := by
  simpa using hF.cutBelow [] [] (by simp) n b h

end IgnoresMerging

/-! ## Matched branches -/

mutual

/-- Equal elements in equal places, with trees related by `R`. -/
def Matched (R : List (CallTree α) → List (CallTree α) → Prop) :
    Branch α ε → Branch α ε → Prop
  | .node e ts bs, .node e' ts' bs' => e = e' ∧ R ts ts' ∧ MatchedIn R bs bs'

def MatchedIn (R : List (CallTree α) → List (CallTree α) → Prop) :
    List (Branch α ε) → List (Branch α ε) → Prop
  | [], [] => True
  | b :: bs, b' :: bs' => Matched R b b' ∧ MatchedIn R bs bs'
  | _, _ => False

end

section Matched

variable {R : List (CallTree α) → List (CallTree α) → Prop}

omit [BEq α]

theorem Matched.element : {b b' : Branch α ε} → Matched R b b' → b.element = b'.element
  | .node _ _ _, .node _ _ _, ⟨he, _, _⟩ => he

theorem Matched.trees : {b b' : Branch α ε} → Matched R b b' → R b.trees b'.trees
  | .node _ _ _, .node _ _ _, ⟨_, hts, _⟩ => hts

theorem Matched.children :
    {b b' : Branch α ε} → Matched R b b' → MatchedIn R b.children b'.children
  | .node _ _ _, .node _ _ _, ⟨_, _, hbs⟩ => hbs

namespace MatchedIn

theorem map_element : {bs bs' : List (Branch α ε)} → MatchedIn R bs bs' →
    bs.map Branch.element = bs'.map Branch.element
  | [], [], _ => rfl
  | _ :: _, _ :: _, ⟨hb, hbs⟩ => by
    rw [List.map_cons, List.map_cons, hb.element, map_element hbs]

theorem append : {as as' bs bs' : List (Branch α ε)} → MatchedIn R as as' →
    MatchedIn R bs bs' → MatchedIn R (as ++ bs) (as' ++ bs')
  | [], [], _, _, _, h => h
  | _ :: _, _ :: _, _, _, ⟨ha, has⟩, h => ⟨ha, append has h⟩

theorem find? [DecidableEq ε] (e : ε) : {bs bs' : List (Branch α ε)} → MatchedIn R bs bs' →
    Option.Rel (Matched R) (bs.find? fun b => b.element = e) (bs'.find? fun b => b.element = e)
  | [], [], _ => .none
  | _ :: _, _ :: _, ⟨hb, hbs⟩ => by
    rw [List.find?_cons, List.find?_cons, hb.element]
    split
    · exact .some hb
    · exact find? e hbs

end MatchedIn

mutual

theorem Matched.all : {b b' : Branch α ε} → Matched R b b' → MatchedIn R b.all b'.all
  | .node _ _ _, .node _ _ _, h => ⟨h, MatchedIn.allIn h.children⟩

theorem MatchedIn.allIn : {bs bs' : List (Branch α ε)} → MatchedIn R bs bs' →
    MatchedIn R (Branch.allIn bs) (Branch.allIn bs')
  | [], [], _ => trivial
  | _ :: _, _ :: _, ⟨hb, hbs⟩ => (Matched.all hb).append (MatchedIn.allIn hbs)

end

mutual

theorem Matched.parentBelow? [DecidableEq ε] {e : ε} : {b b' : Branch α ε} → Matched R b b' →
    Branch.parentBelow? e b = Branch.parentBelow? e b'
  | .node p _ bs, .node _ _ bs', ⟨rfl, _, hbs⟩ => by
    have hany : bs.any (fun b => b.element = e) = bs'.any fun b => b.element = e := by
      have h := congrArg (List.any · fun d => decide (d = e)) hbs.map_element
      simpa only [List.any_map, Function.comp_def] using h
    rw [Branch.parentBelow?, Branch.parentBelow?, hany, MatchedIn.parentIn? hbs]

theorem MatchedIn.parentIn? [DecidableEq ε] {e : ε} : {bs bs' : List (Branch α ε)} →
    MatchedIn R bs bs' → Branch.parentIn? e bs = Branch.parentIn? e bs'
  | [], [], _ => rfl
  | _ :: _, _ :: _, ⟨hb, hbs⟩ => by
    rw [Branch.parentIn?, Branch.parentIn?, Matched.parentBelow? hb, MatchedIn.parentIn? hbs]

end

mutual

theorem Matched.eq : {b b' : Branch α ε} → Matched Eq b b' → b = b'
  | .node _ _ _, .node _ _ _, ⟨rfl, rfl, hbs⟩ => by rw [MatchedIn.eq hbs]

theorem MatchedIn.eq : {bs bs' : List (Branch α ε)} → MatchedIn Eq bs bs' → bs = bs'
  | [], [], _ => rfl
  | _ :: _, _ :: _, ⟨hb, hbs⟩ => by rw [Matched.eq hb, MatchedIn.eq hbs]

end

end Matched

/-! ## Cutting twice -/

section Twice

variable {R : List (CallTree α) → List (CallTree α) → Prop} {P : CallTree α → Prop}

/-- Up to `R`, `cutBelow` does not change what the trees of a branch merge to. -/
def MergesThrough (ε : Type) (P : CallTree α → Prop)
    (R : List (CallTree α) → List (CallTree α) → Prop) : Prop :=
  ∀ (n : Nat) (b : Branch α ε), EachTrees (fun ts => ∀ t ∈ ts, P t) b.all →
    R (gather (cutBelow n b).all) (gather b.all)

theorem mergesThrough_eq [PartialEquivBEq α] : MergesThrough ε (α := α) CallTree.Proper Eq :=
  fun n _ h => ignoresMerging_insert.all_cutBelow n h

theorem mergesThrough_tallyAt [PartialEquivBEq α] :
    MergesThrough ε (α := α) CallTree.Sound fun ts ts' =>
      ∀ path, CallTree.tallyAt path ts = CallTree.tallyAt path ts' := by
  intro n b h path
  have hcut : TreesSound (cutBelow n b).all := eachTrees_cutBelow (fun _ => sound_gather) n b h
  rw [gather, gather, CallTree.tallyAt_foldl_insert (by simp) hcut.flatMap_trees,
    CallTree.tallyAt_foldl_insert (by simp) h.flatMap_trees]
  exact (ignoresMerging_tallyAt path).all_cutBelow n h

theorem MergesThrough.merged (hR : MergesThrough ε P R) (e : ε) {ts : List (CallTree α)}
    (hts : ∀ t ∈ ts, P t) :
    R ((ts.foldl CallTree.insert []).foldl CallTree.insert []) (ts.foldl CallTree.insert []) := by
  have h := hR 1 (.node e ts []) (eachTrees_singleton.mpr hts)
  simpa only [cutBelow, cutBelowIn, all, allIn, gather, List.flatMap_singleton, trees] using h

mutual

/-- The higher of two cuts counts, up to `R`. -/
theorem matched_cutBelow_cutBelow (hR : MergesThrough ε P R) : (n m : Nat) → (b : Branch α ε) →
    EachTrees (fun ts => ∀ t ∈ ts, P t) b.all →
      Matched R (cutBelow n (cutBelow m b)) (cutBelow (min n m) b)
  | 0, m, b, h => by
    rw [Nat.zero_min, cutBelow_zero, cutBelow_zero b, element_cutBelow]
    exact ⟨rfl, hR m b h, trivial⟩
  | n + 1, 0, b, h => by
    have hgather := hR 0 b h
    rw [cutBelow_zero, all, allIn, gather, List.flatMap_singleton] at hgather
    rw [Nat.min_zero, cutBelow_zero, cutBelow, cutBelowIn]
    exact ⟨rfl, hgather, trivial⟩
  | n + 1, m + 1, .node e ts bs, h => by
    obtain ⟨hts, hbs⟩ := eachTrees_cons.mp h
    rw [Nat.succ_min_succ, cutBelow, cutBelow, cutBelow]
    exact ⟨rfl, hR.merged e hts, matchedIn_cutBelowIn_cutBelowIn hR n m bs hbs⟩

theorem matchedIn_cutBelowIn_cutBelowIn (hR : MergesThrough ε P R) : (n m : Nat) →
    (bs : List (Branch α ε)) → EachTrees (fun ts => ∀ t ∈ ts, P t) (allIn bs) →
      MatchedIn R (cutBelowIn n (cutBelowIn m bs)) (cutBelowIn (min n m) bs)
  | _, _, [], _ => trivial
  | n, m, b :: bs, h => by
    obtain ⟨hb, hbs⟩ := eachTrees_append.mp h
    rw [cutBelowIn, cutBelowIn, cutBelowIn]
    exact ⟨matched_cutBelow_cutBelow hR n m b hb, matchedIn_cutBelowIn_cutBelowIn hR n m bs hbs⟩

end

end Twice

end Branch

namespace Profile

open Branch (Matched MatchedIn MergesThrough)

variable [DecidableEq ε] {p q : Profile α ε}

/-- Equal hierarchies, extra titles, and tallies under every element. -/
structure SameSamples (p q : Profile α ε) : Prop where
  titles : p.extraTitles = q.extraTitles
  roots : p.rootElements = q.rootElements
  elements : p.elements = q.elements
  children : ∀ e, p.childrenOf e = q.childrenOf e
  parents : ∀ e, p.parentOf e = q.parentOf e
  tally : ∀ e path, CallTree.tallyAt path (p.treesOf e) = CallTree.tallyAt path (q.treesOf e)

omit [BEq α] [DecidableEq ε] in
theorem eq_of_roots (hroots : p.roots = q.roots) (htitles : p.extraTitles = q.extraTitles) :
    p = q := by
  cases p; cases q; cases hroots; cases htitles; rfl

theorem sameSamples_of_matched (htitles : p.extraTitles = q.extraTitles)
    (h : MatchedIn (fun ts ts' => ∀ path, CallTree.tallyAt path ts = CallTree.tallyAt path ts')
      p.roots q.roots) : SameSamples p q := by
  have hbranch : ∀ e, Option.Rel (Matched _) (p.branch? e) (q.branch? e) := fun e => h.allIn.find? e
  refine ⟨htitles, h.map_element, h.allIn.map_element, fun e => ?_, fun e => h.parentIn?,
    fun e path => ?_⟩
  · have hb := hbranch e
    rw [childrenOf, childrenOf]
    generalize p.branch? e = x, q.branch? e = y at hb
    cases hb with
    | none => rfl
    | some hb => exact hb.children.map_element
  · have hb := hbranch e
    rw [treesOf, treesOf]
    generalize p.branch? e = x, q.branch? e = y at hb
    cases hb with
    | none => rfl
    | some hb => exact hb.trees path

variable [Grouping ε]

omit [DecidableEq ε] in
theorem extraTitles_coarsen (p : Profile α ε) (n : Nat) :
    (p.coarsen n).extraTitles = p.extraTitles := by
  cases n <;> rfl

omit [DecidableEq ε] in
theorem extraTitles_coarsen_coarsen (p : Profile α ε) (m n : Nat) :
    ((p.coarsen m).coarsen n).extraTitles = (p.coarsen (min m n)).extraTitles := by
  rw [extraTitles_coarsen, extraTitles_coarsen, extraTitles_coarsen]

section Twice

variable {R : List (CallTree α) → List (CallTree α) → Prop} {P : CallTree α → Prop}

omit [DecidableEq ε] in
theorem matchedIn_coarsen_coarsen (hR : MergesThrough ε P R)
    (h : Branch.EachTrees (fun ts => ∀ t ∈ ts, P t) p.branches) (m n : Nat) :
    MatchedIn R ((p.coarsen m).coarsen n).roots (p.coarsen (min m n)).roots := by
  -- `coarsen 0` is `cutBelow 0` of one element over all roots
  let top : Branch α ε := .node Grouping.everything [] p.roots
  have htop : Branch.EachTrees (fun ts => ∀ t ∈ ts, P t) top.all :=
    Branch.eachTrees_cons.mpr ⟨fun t ht => (List.not_mem_nil ht).elim, h⟩
  match m, n with
  | 0, 0 => exact ⟨⟨rfl, hR 0 top htop, trivial⟩, trivial⟩
  | m + 1, 0 => exact ⟨⟨rfl, hR (m + 1) top htop, trivial⟩, trivial⟩
  | 0, n + 1 =>
    have htwice := Branch.matched_cutBelow_cutBelow hR n 0 top htop
    rw [Nat.min_zero] at htwice
    exact ⟨htwice, trivial⟩
  | m + 1, n + 1 =>
    rw [Nat.succ_min_succ, Nat.min_comm]
    exact Branch.matchedIn_cutBelowIn_cutBelowIn hR n m p.roots h

end Twice

omit [DecidableEq ε] in
theorem coarsen_coarsen_of_le {m n : Nat} (h : m ≤ n) :
    (p.coarsen m).coarsen n = p.coarsen m := by
  have hapart : Branch.EachTrees CallTree.Apart (p.coarsen m).branches :=
    eachTrees_coarsen (P := fun _ => True) (fun bs _ => CallTree.apart_foldl_insert .nil _)
      (fun _ _ => trivial) m
  match m, n, h with
  | 0, 0, _ =>
    have hmerged : (p.coarsen 0).allTrees.foldl CallTree.insert [] =
        p.allTrees.foldl CallTree.insert [] := by
      rw [allTrees_of_lone p.roots_coarsen_zero]
      exact (Branch.eachTrees_singleton.mp hapart).foldl_insert
    exact eq_of_roots (by rw [roots_coarsen_zero, roots_coarsen_zero, hmerged]) rfl
  | 0, n + 1, _ =>
    have hlevel : Branch.levelIn (n + 1) (p.coarsen 0).roots = [] := Branch.levelIn_nil n
    exact eq_of_roots (Branch.cutBelowIn_eq_self hlevel hapart) rfl
  | m + 1, n + 1, h =>
    have hlevel : Branch.levelIn (n + 1) (p.coarsen (m + 1)).roots = [] :=
      Branch.levelIn_cutBelowIn_of_lt h p.roots
    exact eq_of_roots (Branch.cutBelowIn_eq_self hlevel hapart) rfl

/-- Grouping composes. `(p.coarsen m).coarsen n` has the hierarchy and the tallies of
`p.coarsen (min m n)`, and is `p.coarsen m` for `m ≤ n`. It is `p.coarsen (min m n)` if all trees
of `p` are distinct, which `CallTree.map` need not keep them. -/
theorem coarsen_coarsen [PartialEquivBEq α] (h : p.Built CallTree.Sound) :
    (∀ m n, SameSamples ((p.coarsen m).coarsen n) (p.coarsen (min m n))) ∧
    (∀ m n, m ≤ n → (p.coarsen m).coarsen n = p.coarsen m) ∧
    ((∀ e, ∀ t ∈ p.treesOf e, t.Distinct) →
      ∀ m n, (p.coarsen m).coarsen n = p.coarsen (min m n)) := by
  have hs : p.Sound := h.sound fun t ht => ht
  refine ⟨fun m n => ?_, fun m n => coarsen_coarsen_of_le, fun hdistinct m n => ?_⟩
  · exact sameSamples_of_matched (extraTitles_coarsen_coarsen p m n)
      (matchedIn_coarsen_coarsen Branch.mergesThrough_tallyAt hs.trees m n)
  · have hproper : Branch.EachTrees (fun ts => ∀ t ∈ ts, t.Proper) p.branches := fun b hb t ht => by
      rw [← treesOf_element hs.distinct hb] at ht
      exact ⟨hs.treesOf _ t ht, hdistinct _ t ht⟩
    exact eq_of_roots (matchedIn_coarsen_coarsen Branch.mergesThrough_eq hproper m n).eq
      (extraTitles_coarsen_coarsen p m n)

/-- A process with two threads in one function, one with an extra set. -/
theorem coarsen_coarsen_threads :
    let process : Frame := "p1"
    let main (callee : Frame) : CallTree Frame :=
      ((CallTree.leaf ("main" : Frame) 4).graft (CallTree.leaf callee 3)).graftExtra 1
        (CallTree.leaf callee 2)
    let p : Profile Frame Frame :=
      ((Profile.addChild {} process "t1").addTree process (main "read")).addTree "t1" (main "draw")
    (p.Built CallTree.Sound ∧ ∀ e, ∀ t ∈ p.treesOf e, t.Distinct) ∧
      SameSamples ((p.coarsen 2).coarsen 1) (p.coarsen 1) ∧
      (p.coarsen 1).coarsen 0 = p.coarsen 0 ∧ (p.coarsen 2).coarsen 2 = p.coarsen 2 := by
  intro process main p
  have hmain : ∀ callee : Frame, (main callee).Proper := fun callee =>
    ((CallTree.proper_leaf _ (by decide)).graft (CallTree.proper_leaf _ (by decide))).graftExtra 1
      (CallTree.proper_leaf _ (by decide))
  have hproper : p.Built CallTree.Proper :=
    .addTree _ (.addTree _ (.addChild (.empty []) (by decide)) (hmain "read")) (hmain "draw")
  have hbuilt : p.Built CallTree.Sound := hproper.imp fun t ht => ht.sound
  have hdistinct : ∀ e, ∀ t ∈ p.treesOf e, t.Distinct :=
    fun e => (of_eachTrees .nil (hproper.distinct fun t ht => ht.distinct) e).trees
  obtain ⟨hsamples, hkept, htwice⟩ := coarsen_coarsen hbuilt
  exact ⟨⟨hbuilt, hdistinct⟩, hsamples 2 1, htwice hdistinct 1 0, hkept 2 2 le_rfl⟩

/-- `coarsen_coarsen` fails node for node with equal siblings, as `CallTree.map` leaves them: the
two sides merge `t2` with another sibling, and callees change places. -/
theorem coarsen_coarsen_equal_siblings :
    let node (name : Frame) (weight : Int) : CallTree Frame := .leaf name weight
    let unnumbered (f : Frame) : Frame :=
      if f = "draw:1" ∨ f = "draw:2" then "draw"
      else if f = "glyph:1" ∨ f = "glyph:2" then "glyph" else f
    let text := ((node "text" 2).graft (node "glyph:1" 1)).graft (node "glyph:2" 1)
    let t1 := (((node "main" 3).graft ((node "draw:1" 1).graft (node "fill" 1))).graft
      ((node "draw:2" 2).graft text)).map unnumbered
    let t2 := (node "main" 4).graft
      (((node "draw" 4).graft (node "line" 1)).graft ((node "text" 3).graft (node "glyph" 3)))
    let p : Profile Frame Frame :=
      ((((Profile.addTree {} ("p1" : Frame) (node "main" 1)).addChild "p2" "t1").addChild
        "p2" "t2").addTree "t1" t1).addTree "t2" t2
    let callees (q : Profile Frame Frame) (path : List Frame) : List Frame :=
      (CallTree.nodesAt path (q.treesOf ⟨"All"⟩)).flatMap fun t => t.children.map CallTree.payload
    p.Built (fun t => Grown False (.tree t)) ∧
      callees (p.coarsen 0) ["main", "draw"] = ["fill", "text", "line"] ∧
      callees ((p.coarsen 1).coarsen 0) ["main", "draw"] = ["fill", "line", "text"] ∧
      callees (p.coarsen 0) ["main", "draw", "text"] = ["glyph", "glyph"] ∧
      callees ((p.coarsen 1).coarsen 0) ["main", "draw", "text"] = ["glyph"] ∧
      ¬∀ m n, (p.coarsen m).coarsen n = p.coarsen (min m n) := by
  intro node unnumbered text t1 t2 p callees
  have hnode (name : Frame) {weight : Int} (h : weight ≤ maxTime) :
      Grown False (.tree (node name weight)) := .leaf name h
  have ht1 : Grown False (.tree t1) := by
    refine .map unnumbered (.graft (.graft (hnode _ (by decide)) ?_) ?_) False.elim
    · exact .graft (hnode _ (by decide)) (hnode _ (by decide))
    · refine .graft (hnode _ (by decide)) ?_
      exact .graft (.graft (hnode _ (by decide)) (hnode _ (by decide))) (hnode _ (by decide))
  have ht2 : Grown False (.tree t2) := by
    refine .graft (hnode _ (by decide)) (.graft (.graft (hnode _ (by decide)) ?_) ?_)
    · exact hnode _ (by decide)
    · exact .graft (hnode _ (by decide)) (hnode _ (by decide))
  have hbuilt : p.Built (fun t => Grown False (.tree t)) := by
    refine .addTree _ (.addTree _ (.addChild (.addChild (.addTree _ (.empty []) ?_) ?_) ?_) ht1) ht2
    · exact hnode _ (by decide)
    · decide
    · decide
  have honce : callees (p.coarsen 0) ["main", "draw"] = ["fill", "text", "line"] := by decide
  have htwice : callees ((p.coarsen 1).coarsen 0) ["main", "draw"] = ["fill", "line", "text"] := by
    decide
  refine ⟨hbuilt, honce, htwice, by decide, by decide, fun h => ?_⟩
  have hsame : (p.coarsen 1).coarsen 0 = p.coarsen 0 := h 1 0
  rw [hsame, honce] at htwice
  exact absurd htwice (by decide)

end Profile

end StackProfile
