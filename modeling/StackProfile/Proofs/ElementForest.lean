import StackProfile.Proofs.Links

/-!
# The forest of elements

A `Register` lists elements with their parents in the order of additions. The profile of a regular
sequence of additions is a forest in that order, and its walk is `elements`.
-/

namespace StackProfile

variable {α ε : Type}

/-! ## Walks -/

namespace Profile

variable [DecidableEq ε] {p : Profile α ε} {e : ε}

/-- Depth-first walk over pending elements: a visited element is replaced by its children. -/
inductive Walks (p : Profile α ε) : List ε → List ε → Prop where
  | done : Walks p [] []
  | visit {e : ε} {pending out : List ε} :
      Walks p (p.childrenOf e ++ pending) out → Walks p (e :: pending) (e :: out)

theorem Walks.unique {pending out out' : List ε} (h : p.Walks pending out)
    (h' : p.Walks pending out') : out = out' := by
  induction h generalizing out' with
  | done => cases h'; rfl
  | visit _ ih =>
    cases h' with
    | visit h' => rw [ih h']

mutual

theorem walks_branch (h : p.elements.Nodup) {pending out : List ε} : (b : Branch α ε) →
    b ∈ p.branches → p.Walks pending out →
      p.Walks (b.element :: pending) (b.all.map Branch.element ++ out)
  | .node e ts bs, hb, hrest => by
    have hbs : ∀ c ∈ bs, c ∈ p.branches := fun c hc =>
      mem_branches_of_mem_all hb (Branch.mem_all_of_mem_children hc)
    refine .visit ?_
    rw [childrenOf_element h hb]
    exact walks_forest h bs hbs hrest

/-- The branches of a forest are a walk. -/
theorem walks_forest (h : p.elements.Nodup) {pending out : List ε} : (bs : List (Branch α ε)) →
    (∀ b ∈ bs, b ∈ p.branches) → p.Walks pending out →
      p.Walks (bs.map Branch.element ++ pending) ((Branch.allIn bs).map Branch.element ++ out)
  | [], _, hrest => hrest
  | b :: bs, hbs, hrest => by
    obtain ⟨hb, hbs⟩ := List.forall_mem_cons.mp hbs
    rw [Branch.allIn, List.map_append, List.append_assoc]
    exact walks_branch h b hb (walks_forest h bs hbs hrest)

end

theorem walks_elements_iff (h : p.elements.Nodup) {out : List ε} :
    p.Walks p.rootElements out ↔ out = p.elements := by
  have hroots : ∀ b ∈ p.roots, b ∈ p.branches := fun b hb =>
    Branch.mem_allIn.mpr ⟨b, hb, b.mem_all_self⟩
  have hwalk : p.Walks p.rootElements p.elements := by
    simpa [rootElements, elements, branches] using walks_forest h p.roots hroots .done
  exact ⟨fun hout => hout.unique hwalk, fun hout => hout ▸ hwalk⟩

theorem walks_below_iff (h : p.elements.Nodup) {out : List ε} :
    p.Walks [e] out ↔ out = p.below e := by
  have hwalk : p.Walks [e] (p.below e) := by
    by_cases he : e ∈ p.elements
    · obtain ⟨b, hb, rfl⟩ := List.mem_map.mp he
      rw [below_element h hb]
      simpa using walks_branch h b hb .done
    · have hlone : p.below e = [e] := by
        rw [below, Option.not_isSome_iff_eq_none.mp (mt contains_iff.mp he)]
        rfl
      rw [hlone]
      refine .visit ?_
      rw [childrenOf_of_not_mem he]
      exact .done
  exact ⟨fun hout => hout.unique hwalk, fun hout => hout ▸ hwalk⟩

/-! ## Parents and roots -/

/-- A known element is a root or has a parent. -/
theorem mem_elements_iff_root_or_parent (h : p.elements.Nodup) :
    e ∈ p.elements ↔ e ∈ p.rootElements ∨ (p.parentOf e).isSome := by
  rw [mem_rootElements_iff h]
  cases hp : p.parentOf e with
  | none => simp
  | some q =>
    have he : e ∈ p.elements := Branch.mem_of_parentIn? p.roots hp
    simpa using he

theorem exists_root (h : p.elements.Nodup) (he : e ∈ p.elements) :
    ∃ r ∈ p.rootElements, Relation.ReflTransGen (fun d q => p.parentOf d = some q) e r := by
  obtain ⟨k, hk⟩ := (mem_elements_iff h).mp he
  clear he
  induction k generalizing e with
  | zero => exact ⟨e, hk, .refl⟩
  | succ k ih =>
    obtain ⟨q, hq, he⟩ := List.mem_flatMap.mp hk
    obtain ⟨r, hr, hsteps⟩ := ih hq
    exact ⟨r, hr, .head ((parentOf_eq_some_iff h).mpr he) hsteps⟩

theorem sublist_elements_of_parentOf (h : p.elements.Nodup) {q : ε} (hq : p.parentOf e = some q) :
    [q, e].Sublist p.elements := by
  obtain ⟨b, hb, rfl, he⟩ := exists_branch_of_mem_childrenOf ((parentOf_eq_some_iff h).mp hq)
  obtain ⟨c, hc, rfl⟩ := List.mem_map.mp he
  have hcb : c ∈ Branch.allIn b.children := Branch.mem_allIn.mpr ⟨c, hc, c.mem_all_self⟩
  have hpair : [b.element, c.element].Sublist (b.all.map Branch.element) := by
    rw [Branch.all_eq, List.map_cons]
    exact (List.singleton_sublist.mpr (List.mem_map_of_mem hcb)).cons_cons _
  exact hpair.trans ((Branch.all_infix_allIn p.roots hb).sublist.map Branch.element)

theorem mem_elements_of_treesOf (he : p.treesOf e ≠ []) : e ∈ p.elements := by
  rw [← contains_iff, contains]
  unfold treesOf at he
  cases hb : p.branch? e with
  | none => simp [hb] at he
  | some b => rfl

end Profile

/-! ## Additions -/

inductive Addition (α ε : Type) where
  | root (e : ε)
  | child (parent e : ε)
  | tree (e : ε) (t : CallTree α)

abbrev Register (ε : Type) := List (Option ε × ε)

/-- Appends an unknown element; a known one keeps its place and parent. -/
def Register.enrol [DecidableEq ε] (r : Register ε) (parent : Option ε) (e : ε) : Register ε :=
  if e ∈ r.map Prod.snd then r else r ++ [(parent, e)]

namespace Addition

variable [DecidableEq ε]

def apply [BEq α] (p : Profile α ε) : Addition α ε → Profile α ε
  | root e => p.addRoot e
  | child parent e => p.addChild parent e
  | tree e t => p.addTree e t

/-- The register after an addition. An unknown parent becomes a root. -/
def enter (r : Register ε) : Addition α ε → Register ε
  | root e | tree e _ => r.enrol none e
  | child parent e =>
    if e ∈ r.map Prod.snd then r else r.enrol none parent ++ [(some parent, e)]

def Regular : Addition α ε → Prop
  | child parent e => e ≠ parent
  | root _ | tree _ _ => True

instance : (a : Addition α ε) → Decidable a.Regular
  | child parent e => inferInstanceAs (Decidable (e ≠ parent))
  | root _ | tree _ _ => inferInstanceAs (Decidable True)

def profile [BEq α] (as : List (Addition α ε)) : Profile α ε := as.foldl apply {}

def register (as : List (Addition α ε)) : Register ε := as.foldl enter []

end Addition

/-! ## The register of a profile -/

namespace Branch

variable [DecidableEq ε] [BEq α] {e : ε} {t : CallTree α}

mutual

theorem links_modify_addTree {above : Option ε} : (b : Branch α ε) →
    (modify e (addTree t) b).links above = b.links above
  | .node d ts bs => by
    unfold modify
    split
    · rfl
    · rw [links, links, linksIn_modifyIn_addTree bs]

theorem linksIn_modifyIn_addTree {above : Option ε} : (bs : List (Branch α ε)) →
    linksIn above (modifyIn e (addTree t) bs) = linksIn above bs
  | [] => rfl
  | b :: bs => by
    rw [modifyIn, linksIn, linksIn, links_modify_addTree b, linksIn_modifyIn_addTree bs]

end

end Branch

namespace Profile

variable [DecidableEq ε] {p : Profile α ε} {e : ε}

theorem links_addRoot (he : e ∉ p.elements) : (p.addRoot e).links = p.links ++ [(none, e)] := by
  rw [links, roots_addRoot he, Branch.linksIn_append]
  rfl

theorem links_addTree [BEq α] (p : Profile α ε) (e : ε) (t : CallTree α) :
    (p.addTree e t).links = (p.addRoot e).links :=
  Branch.linksIn_modifyIn_addTree (p.addRoot e).roots

/-- `addChild` appends the new element to its parent's children and to no other list. -/
theorem filter_links_addChild (h : p.elements.Nodup) {parent : ε} (he : e ∉ p.elements)
    (x : Option ε) : (p.addChild parent e).links.filter (fun y => y.1 = x) =
      (p.addRoot parent).links.filter (fun y => y.1 = x) ++
        [(some parent, e)].filter fun y => y.1 = x := by
  obtain ⟨b, hb, rfl⟩ := List.mem_map.mp (mem_elements_addRoot_self p parent)
  rw [addChild, if_neg (mt contains_iff.mp he)]
  exact (Branch.around_linksIn (Option.some_ne_none b.element).symm _ hb
    (nodup_addRoot h b.element)).filter_sprouted x

/-- `r` has the links of `p`, those of one parent in order. -/
structure Registered (r : Register ε) (p : Profile α ε) : Prop where
  nodup : p.elements.Nodup
  links : ∀ x, p.links.filter (fun y => y.1 = x) = r.filter fun y => y.1 = x

namespace Registered

variable {r : Register ε}

theorem mem_links_iff (h : Registered r p) (y : Option ε × ε) : y ∈ p.links ↔ y ∈ r := by
  have hmem : ∀ l : List (Option ε × ε), y ∈ l ↔ y ∈ l.filter fun z => z.1 = y.1 := by simp
  rw [hmem, hmem r, h.links]

theorem known_iff (h : Registered r p) : e ∈ r.map Prod.snd ↔ e ∈ p.elements := by
  rw [elements, branches, ← Branch.map_snd_linksIn none]
  exact (List.mem_map.trans (exists_congr fun y => and_congr_left' (h.mem_links_iff y).symm)).trans
    List.mem_map.symm

theorem addRoot (h : Registered r p) (e : ε) : Registered (r.enrol none e) (p.addRoot e) := by
  unfold Register.enrol
  split
  · next he => rwa [addRoot_of_mem (h.known_iff.mp he)]
  · next he =>
    refine ⟨nodup_addRoot h.nodup e, fun x => ?_⟩
    rw [links_addRoot (mt h.known_iff.mpr he), List.filter_append, List.filter_append, h.links]

theorem addChild (h : Registered r p) {parent e : ε} (hne : e ≠ parent) :
    Registered ((Addition.child parent e : Addition α ε).enter r) (p.addChild parent e) := by
  show Registered (if e ∈ r.map Prod.snd then r else _) _
  split
  · next he => rwa [Profile.addChild, if_pos (contains_iff.mpr (h.known_iff.mp he))]
  · next he =>
    refine ⟨nodup_addChild h.nodup hne, fun x => ?_⟩
    rw [filter_links_addChild h.nodup (mt h.known_iff.mpr he), List.filter_append,
      (h.addRoot parent).links]

theorem addTree [BEq α] (h : Registered r p) (e : ε) (t : CallTree α) :
    Registered (r.enrol none e) (p.addTree e t) :=
  ⟨nodup_addTree h.nodup e t, fun x => by rw [links_addTree]; exact (h.addRoot e).links x⟩

theorem apply [BEq α] (h : Registered r p) {a : Addition α ε} (ha : a.Regular) :
    Registered (a.enter r) (a.apply p) := by
  cases a with
  | root e => exact h.addRoot e
  | child parent e => exact h.addChild ha
  | tree e t => exact h.addTree e t

theorem foldl [BEq α] (h : Registered r p) (as : List (Addition α ε)) (has : ∀ a ∈ as, a.Regular) :
    Registered (as.foldl Addition.enter r) (as.foldl Addition.apply p) := by
  induction as generalizing r p with
  | nil => exact h
  | cons a as ih =>
    obtain ⟨ha, has⟩ := List.forall_mem_cons.mp has
    exact ih (h.apply ha) has

theorem listed_eq (h : Registered r p) (x : Option ε) :
    p.listed x = (r.filter fun y => y.1 = x).map Prod.snd := by
  rw [← h.links, filter_links h.nodup, List.map_map]
  exact (List.map_id _).symm

end Registered

/-! ## The forest -/

/-- The elements are a forest with the roots and children of the register, in its order, and
`elements` is the walk over it. -/
structure IsForest (r : Register ε) (p : Profile α ε) : Prop where
  parent_iff : ∀ e q, p.parentOf e = some q ↔ e ∈ p.childrenOf q
  one_place : ∀ e q, e ∈ p.childrenOf q →
    (p.childrenOf q).count e = 1 ∧ (∀ d ≠ q, e ∉ p.childrenOf d) ∧ e ∉ p.rootElements
  roots_nodup : p.rootElements.Nodup
  roots_parentless : ∀ e ∈ p.rootElements, p.parentOf e = none
  ancestry : ∀ e, p.contains e →
    ∃ r ∈ p.rootElements, Relation.ReflTransGen (fun d q => p.parentOf d = some q) e r
  roots_order : p.rootElements = (r.filter fun y => y.1 = none).map Prod.snd
  children_order : ∀ q, p.childrenOf q = (r.filter fun y => y.1 = some q).map Prod.snd
  known_iff : ∀ e, p.contains e ↔ e ∈ p.rootElements ∨ (p.parentOf e).isSome
  walks_all : ∀ out, p.Walks p.rootElements out ↔ out = p.elements
  walks_below : ∀ e out, p.Walks [e] out ↔ out = p.below e
  listed_once : ∀ e, p.elements.count e = if p.contains e then 1 else 0
  parents_first : ∀ e q, p.parentOf e = some q → [q, e].Sublist p.elements
  block : ∀ e, p.contains e → p.below e <:+: p.elements ∧ ∀ d, d ∈ p.below e ↔ p.Under e d
  trees_known : ∀ e, p.treesOf e ≠ [] → p.contains e

theorem one_place (h : p.elements.Nodup) {q : ε} (he : e ∈ p.childrenOf q) :
    (p.childrenOf q).count e = 1 ∧ (∀ d ≠ q, e ∉ p.childrenOf d) ∧ e ∉ p.rootElements := by
  have hparent : p.parentOf e = some q := (parentOf_eq_some_iff h).mpr he
  have honce := List.count_eq_one_of_mem (nodup_listed h (some q)) he
  refine ⟨honce, fun d hd hed => hd ?_, fun hr => ?_⟩
  · exact Option.some.inj (((parentOf_eq_some_iff h).mpr hed).symm.trans hparent)
  · have hnone : p.parentOf e = none := ((mem_rootElements_iff h).mp hr).2
    exact Option.some_ne_none q (hparent.symm.trans hnone)

theorem block (h : p.elements.Nodup) (he : e ∈ p.elements) :
    p.below e <:+: p.elements ∧ ∀ d, d ∈ p.below e ↔ p.Under e d := by
  refine ⟨?_, fun d => mem_below_iff h he⟩
  obtain ⟨b, hb, rfl⟩ := List.mem_map.mp he
  rw [below_element h hb]
  exact (Branch.all_infix_allIn p.roots hb).map Branch.element

theorem Registered.isForest {r : Register ε} (hr : Registered r p) : IsForest r p := by
  have h := hr.nodup
  exact {
    parent_iff := fun e q => parentOf_eq_some_iff h
    one_place := fun e q => p.one_place h
    roots_nodup := nodup_listed h none
    roots_parentless := fun e he => ((mem_rootElements_iff h).mp he).2
    ancestry := fun e he => exists_root h (contains_iff.mp he)
    roots_order := hr.listed_eq none
    children_order := fun q => hr.listed_eq (some q)
    known_iff := fun e => contains_iff.trans (mem_elements_iff_root_or_parent h)
    walks_all := fun out => walks_elements_iff h
    walks_below := fun e out => walks_below_iff h
    listed_once := fun e => by simp only [h.count, contains_iff]
    parents_first := fun e q => sublist_elements_of_parentOf h
    block := fun e he => p.block h (contains_iff.mp he)
    trees_known := fun e he => contains_iff.mpr (mem_elements_of_treesOf he) }

end Profile

/-- Regular additions make a forest, with roots and children in the order in which
they became known. -/
theorem additions_make_forest [DecidableEq ε] [BEq α] (as : List (Addition α ε))
    (h : ∀ a ∈ as, a.Regular) : (Addition.profile as).IsForest (Addition.register as) := by
  have hempty : Profile.Registered ([] : Register ε) ({} : Profile α ε) :=
    ⟨List.nodup_nil, fun _ => rfl⟩
  exact (hempty.foldl as h).isForest

/-- Two processes, one of them known by its thread first, with repeated additions. -/
theorem additions_make_forest_threads :
    let as : List (Addition Frame Frame) :=
      [.root "p1", .child "p1" "t1", .child "p2" "t3", .child "p1" "t2", .child "p2" "t1",
        .tree "t1" (.leaf "main" 3), .child "t3" "p1", .root "t2"]
    let p := Addition.profile as
    (∀ a ∈ as, a.Regular) ∧ p.IsForest (Addition.register as) ∧
      p.rootElements = ["p1", "p2"] ∧ p.childrenOf "p1" = ["t1", "t2"] ∧
      p.elements = ["p1", "t1", "t2", "p2", "t3"] := by
  intro as p
  have has : ∀ a ∈ as, a.Regular := by decide
  exact ⟨has, additions_make_forest as has, by decide, by decide, by decide⟩

end StackProfile
