import Mathlib.Data.List.Nodup
import StackProfile.Coarsen
import StackProfile.Proofs.SoundTree

/-!
# Sound profiles

Sound trees under unique elements, so `treesOf` is that of one branch. Additions and `coarsen`
preserve soundness.
-/

namespace StackProfile

variable {α ε : Type}

namespace Branch

def EachTrees (P : List (CallTree α) → Prop) (bs : List (Branch α ε)) : Prop := ∀ b ∈ bs, P b.trees

section EachTrees

variable {P : List (CallTree α) → Prop}

theorem eachTrees_cons {b : Branch α ε} {bs : List (Branch α ε)} :
    EachTrees P (b :: bs) ↔ P b.trees ∧ EachTrees P bs := List.forall_mem_cons

theorem eachTrees_append {as bs : List (Branch α ε)} :
    EachTrees P (as ++ bs) ↔ EachTrees P as ∧ EachTrees P bs := List.forall_mem_append

theorem eachTrees_singleton {b : Branch α ε} : EachTrees P [b] ↔ P b.trees :=
  List.forall_mem_singleton

theorem EachTrees.flatMap_trees {P : CallTree α → Prop} {bs : List (Branch α ε)}
    (h : EachTrees (fun ts => ∀ t ∈ ts, P t) bs) : ∀ t ∈ bs.flatMap trees, P t := by
  intro t ht
  obtain ⟨b, hb, ht⟩ := List.mem_flatMap.mp ht
  exact h b hb t ht

end EachTrees

abbrev TreesSound (bs : List (Branch α ε)) : Prop := EachTrees (fun ts => ∀ t ∈ ts, t.Sound) bs

section Cutting

variable [BEq α]

theorem sound_gather {bs : List (Branch α ε)} (h : TreesSound bs) : ∀ t ∈ gather bs, t.Sound :=
  CallTree.sound_foldl_insert (by simp) h.flatMap_trees

mutual

theorem eachTrees_cutBelow {P Q : List (CallTree α) → Prop}
    (hgather : ∀ bs : List (Branch α ε), EachTrees P bs → Q (gather bs)) :
    ∀ (n : Nat) (b : Branch α ε), EachTrees P b.all → EachTrees Q (cutBelow n b).all
  | 0, b, h => by
    simp only [cutBelow, all, allIn]
    exact eachTrees_singleton.mpr (hgather b.all h)
  | n + 1, .node e ts bs, h => by
    obtain ⟨hts, hbs⟩ := eachTrees_cons.mp h
    have hlone : Q (gather [.node e ts bs]) := hgather _ (eachTrees_singleton.mpr hts)
    rw [gather, List.flatMap_singleton] at hlone
    simp only [cutBelow, all]
    exact eachTrees_cons.mpr ⟨hlone, eachTrees_cutBelowIn hgather n bs hbs⟩

/-- Trees of a cut are gathered from branches. -/
theorem eachTrees_cutBelowIn {P Q : List (CallTree α) → Prop}
    (hgather : ∀ bs : List (Branch α ε), EachTrees P bs → Q (gather bs)) :
    ∀ (n : Nat) (bs : List (Branch α ε)), EachTrees P (allIn bs) →
      EachTrees Q (allIn (cutBelowIn n bs))
  | _, [], _ => by simp [cutBelowIn, allIn, EachTrees]
  | n, b :: bs, h => by
    obtain ⟨hb, hbs⟩ := eachTrees_append.mp h
    simp only [cutBelowIn, allIn]
    exact eachTrees_append.mpr
      ⟨eachTrees_cutBelow hgather n b hb, eachTrees_cutBelowIn hgather n bs hbs⟩

end

mutual

theorem elements_cutBelow_sublist :
    ∀ (n : Nat) (b : Branch α ε), ((cutBelow n b).all.map element).Sublist (b.all.map element)
  | 0, .node e ts bs => by
    simp only [cutBelow, all, allIn, List.map_cons, List.map_nil]
    exact (List.nil_sublist _).cons_cons e
  | n + 1, .node e ts bs => by
    simp only [cutBelow, all, List.map_cons]
    exact (elements_cutBelowIn_sublist n bs).cons_cons e

theorem elements_cutBelowIn_sublist :
    ∀ (n : Nat) (bs : List (Branch α ε)),
      ((allIn (cutBelowIn n bs)).map element).Sublist ((allIn bs).map element)
  | _, [] => by simp [cutBelowIn, allIn]
  | n, b :: bs => by
    simp only [cutBelowIn, allIn, List.map_append]
    exact (elements_cutBelow_sublist n b).append (elements_cutBelowIn_sublist n bs)

end

end Cutting

/-! ## Changing a branch -/

theorem allIn_append (as bs : List (Branch α ε)) : allIn (as ++ bs) = allIn as ++ allIn bs := by
  induction as with
  | nil => rfl
  | cons a as ih => simp only [List.cons_append, allIn, ih, List.append_assoc]

section Modifying

variable [DecidableEq ε] {e child : ε} {f : Branch α ε → Branch α ε}

mutual

theorem eachTrees_modify {P : List (CallTree α) → Prop}
    (hf : ∀ b : Branch α ε, EachTrees P b.all → EachTrees P (f b).all) :
    (b : Branch α ε) → EachTrees P b.all → EachTrees P (modify e f b).all
  | .node d ts bs, h => by
    unfold modify
    split
    · exact hf _ h
    · obtain ⟨hts, hbs⟩ := eachTrees_cons.mp h
      exact eachTrees_cons.mpr ⟨hts, eachTrees_modifyIn hf bs hbs⟩

theorem eachTrees_modifyIn {P : List (CallTree α) → Prop}
    (hf : ∀ b : Branch α ε, EachTrees P b.all → EachTrees P (f b).all) :
    (bs : List (Branch α ε)) → EachTrees P (allIn bs) → EachTrees P (allIn (modifyIn e f bs))
  | [], h => h
  | b :: bs, h => by
    obtain ⟨hb, hbs⟩ := eachTrees_append.mp h
    exact eachTrees_append.mpr ⟨eachTrees_modify hf b hb, eachTrees_modifyIn hf bs hbs⟩

end

theorem map_element_modifyIn_addTree [BEq α] (t : CallTree α) (bs : List (Branch α ε)) :
    (modifyIn e (addTree t) bs).map element = bs.map element := by
  induction bs with
  | nil => rfl
  | cons b bs ih =>
    obtain ⟨d, ts, cs⟩ := b
    have hhead : (modify e (addTree t) (.node d ts cs)).element = d := by
      unfold modify
      split <;> rfl
    rw [modifyIn, List.map_cons, List.map_cons, ih, hhead]
    rfl

mutual

theorem elements_modify_addTree [BEq α] (t : CallTree α) : (b : Branch α ε) →
    (modify e (addTree t) b).all.map element = b.all.map element
  | .node d ts bs => by
    unfold modify
    split
    · rfl
    · simp only [all, List.map_cons, elements_modifyIn_addTree t bs]
      rfl

theorem elements_modifyIn_addTree [BEq α] (t : CallTree α) : (bs : List (Branch α ε)) →
    (allIn (modifyIn e (addTree t) bs)).map element = (allIn bs).map element
  | [] => rfl
  | b :: bs => by
    simp only [modifyIn, allIn, List.map_append, elements_modify_addTree t b,
      elements_modifyIn_addTree t bs]

end

mutual

theorem mem_modify_sprout {x : ε} : (b : Branch α ε) →
    x ∈ (modify e (sprout child) b).all.map element →
      x ∈ b.all.map element ∨ x = child ∧ e ∈ b.all.map element
  | .node d ts bs, h => by
    unfold modify at h
    split at h
    · next hd =>
      subst hd
      simp only [sprout, all, allIn_append, List.map_cons, List.map_append, List.mem_cons,
        List.mem_append, element, allIn, List.append_nil, List.map_nil, List.not_mem_nil,
        or_false] at h ⊢
      tauto
    · simp only [all, List.map_cons, List.mem_cons, element] at h ⊢
      rcases h with h | h
      · exact .inl (.inl h)
      · rcases mem_modifyIn_sprout bs h with h | ⟨hx, he⟩
        · exact .inl (.inr h)
        · exact .inr ⟨hx, .inr he⟩

theorem mem_modifyIn_sprout {x : ε} : (bs : List (Branch α ε)) →
    x ∈ (allIn (modifyIn e (sprout child) bs)).map element →
      x ∈ (allIn bs).map element ∨ x = child ∧ e ∈ (allIn bs).map element
  | [], h => .inl h
  | b :: bs, h => by
    simp only [modifyIn, allIn, List.map_append, List.mem_append] at h ⊢
    rcases h with h | h
    · have := mem_modify_sprout b h
      tauto
    · have := mem_modifyIn_sprout bs h
      tauto

end

mutual

theorem nodup_modify_sprout : (b : Branch α ε) → (b.all.map element).Nodup →
    child ∉ b.all.map element → ((modify e (sprout child) b).all.map element).Nodup
  | .node d ts bs, h, hc => by
    simp only [all, List.map_cons, List.mem_cons, not_or] at h hc
    obtain ⟨hd, hbs⟩ := List.nodup_cons.mp h
    unfold modify
    split
    · simp only [sprout, all, allIn_append, List.map_cons, List.map_append, allIn,
        List.append_nil, List.map_nil]
      refine List.nodup_cons.mpr ⟨?_, ?_⟩
      · rw [List.mem_append, List.mem_singleton]
        exact fun hmem => hmem.elim hd fun he => hc.1 he.symm
      · exact List.nodup_append'.mpr ⟨hbs, List.nodup_singleton _,
          List.disjoint_singleton.mpr hc.2⟩
    · simp only [all, List.map_cons]
      refine List.nodup_cons.mpr ⟨fun hmem => ?_, nodup_modifyIn_sprout bs hbs hc.2⟩
      rcases mem_modifyIn_sprout bs hmem with hmem | ⟨he, -⟩
      · exact hd hmem
      · exact hc.1 he.symm

theorem nodup_modifyIn_sprout : (bs : List (Branch α ε)) → ((allIn bs).map element).Nodup →
    child ∉ (allIn bs).map element →
      ((allIn (modifyIn e (sprout child) bs)).map element).Nodup
  | [], _, _ => List.nodup_nil
  | b :: bs, h, hc => by
    simp only [allIn, List.map_append, List.mem_append, not_or] at h hc
    obtain ⟨hb, hbs, hdis⟩ := List.nodup_append'.mp h
    simp only [modifyIn, allIn, List.map_append]
    refine List.nodup_append'.mpr
      ⟨nodup_modify_sprout b hb hc.1, nodup_modifyIn_sprout bs hbs hc.2, fun x hx hx' => ?_⟩
    rcases mem_modify_sprout b hx with hxb | ⟨hxc, he⟩ <;>
      rcases mem_modifyIn_sprout bs hx' with hxbs | ⟨hxc', he'⟩
    · exact hdis hxb hxbs
    · exact hc.1 (hxc' ▸ hxb)
    · exact hc.2 (hxc ▸ hxbs)
    · exact hdis he he'

end

end Modifying

end Branch

/-- Sound trees under unique elements. -/
structure Profile.Sound (p : Profile α ε) : Prop where
  trees : Branch.TreesSound p.branches
  distinct : p.elements.Nodup

namespace Profile

variable {p : Profile α ε}

theorem sound_of_titles (titles : List String) :
    Profile.Sound ({ extraTitles := titles } : Profile α ε) :=
  ⟨fun _ hb => (List.not_mem_nil hb).elim, List.nodup_nil⟩

theorem sound_empty : Profile.Sound ({} : Profile α ε) := sound_of_titles []

theorem branch?_element [DecidableEq ε] (h : p.elements.Nodup) {b : Branch α ε}
    (hb : b ∈ p.branches) : p.branch? b.element = some b := by
  unfold branch?
  cases hf : p.branches.find? fun c => c.element = b.element with
  | none => simpa using List.find?_eq_none.mp hf b hb
  | some c =>
    have hc := List.mem_of_find?_eq_some hf
    have he : c.element = b.element := by simpa using List.find?_some hf
    rw [List.inj_on_of_nodup_map h hc hb he]

/-- With unique elements, `treesOf` is that of the one branch. -/
theorem treesOf_element [DecidableEq ε] (h : p.elements.Nodup) {b : Branch α ε}
    (hb : b ∈ p.branches) : p.treesOf b.element = b.trees := by
  rw [treesOf, branch?_element h hb]
  rfl

theorem childrenOf_element [DecidableEq ε] (h : p.elements.Nodup) {b : Branch α ε}
    (hb : b ∈ p.branches) : p.childrenOf b.element = b.children.map Branch.element := by
  rw [childrenOf, branch?_element h hb]
  rfl

theorem below_element [DecidableEq ε] (h : p.elements.Nodup) {b : Branch α ε}
    (hb : b ∈ p.branches) : p.below b.element = b.all.map Branch.element := by
  rw [below, branch?_element h hb]
  rfl

theorem of_eachTrees [DecidableEq ε] {P : List (CallTree α) → Prop} (hnil : P [])
    (h : Branch.EachTrees P p.branches) (e : ε) : P (p.treesOf e) := by
  unfold Profile.treesOf branch?
  cases hf : p.branches.find? fun b => b.element = e with
  | none => exact hnil
  | some b => exact h b (List.mem_of_find?_eq_some hf)

theorem Sound.treesOf [DecidableEq ε] (h : p.Sound) (e : ε) : ∀ t ∈ p.treesOf e, t.Sound :=
  of_eachTrees (P := fun ts => ∀ t ∈ ts, t.Sound) (by simp) h.trees e

/-! ## Building -/

section Building

variable [DecidableEq ε]

theorem contains_iff {e : ε} : p.contains e ↔ e ∈ p.elements := by
  simp [contains, branch?, elements, List.find?_isSome]

theorem addRoot_of_mem {e : ε} (he : e ∈ p.elements) : p.addRoot e = p := by
  rw [Profile.addRoot, if_pos (contains_iff.mpr he)]

theorem roots_addRoot {e : ε} (he : e ∉ p.elements) :
    (p.addRoot e).roots = p.roots ++ [.node e [] []] := by
  rw [Profile.addRoot, if_neg (mt contains_iff.mp he)]

theorem branches_addRoot {e : ε} (he : e ∉ p.elements) :
    (p.addRoot e).branches = p.branches ++ [.node e [] []] := by
  rw [branches, roots_addRoot he]
  exact Branch.allIn_append ..

theorem elements_addRoot {e : ε} (he : e ∉ p.elements) :
    (p.addRoot e).elements = p.elements ++ [e] := by
  rw [elements, branches_addRoot he, List.map_append]
  rfl

theorem eachTrees_addRoot {P : List (CallTree α) → Prop} (hnil : P [])
    (h : Branch.EachTrees P p.branches) (e : ε) : Branch.EachTrees P (p.addRoot e).branches := by
  by_cases he : e ∈ p.elements
  · rwa [addRoot_of_mem he]
  · rw [branches_addRoot he]
    exact Branch.eachTrees_append.mpr ⟨h, Branch.eachTrees_singleton.mpr hnil⟩

theorem eachTrees_addChild {P : List (CallTree α) → Prop} (hnil : P [])
    (h : Branch.EachTrees P p.branches) (parent e : ε) :
    Branch.EachTrees P (p.addChild parent e).branches := by
  unfold Profile.addChild
  split
  · exact h
  · refine Branch.eachTrees_modifyIn (fun b hb => ?_) _ (eachTrees_addRoot hnil h parent)
    obtain ⟨d, ts, bs⟩ := b
    obtain ⟨hts, hbs⟩ := Branch.eachTrees_cons.mp hb
    refine Branch.eachTrees_cons.mpr ⟨hts, ?_⟩
    rw [Branch.allIn_append]
    exact Branch.eachTrees_append.mpr ⟨hbs, Branch.eachTrees_singleton.mpr hnil⟩

/-- What `insert` preserves, `addTree` preserves. -/
theorem eachTrees_addTree [BEq α] {P : List (CallTree α) → Prop} {t : CallTree α} (hnil : P [])
    (hinsert : ∀ ts, P ts → P (CallTree.insert ts t)) (h : Branch.EachTrees P p.branches) (e : ε) :
    Branch.EachTrees P (p.addTree e t).branches := by
  refine Branch.eachTrees_modifyIn (fun b hb => ?_) _ (eachTrees_addRoot hnil h e)
  obtain ⟨d, ts, bs⟩ := b
  obtain ⟨hts, hbs⟩ := Branch.eachTrees_cons.mp hb
  exact Branch.eachTrees_cons.mpr ⟨hinsert ts hts, hbs⟩

theorem nodup_addRoot (h : p.elements.Nodup) (e : ε) : (p.addRoot e).elements.Nodup := by
  by_cases he : e ∈ p.elements
  · rwa [addRoot_of_mem he]
  · rw [elements_addRoot he]
    exact List.nodup_append'.mpr
      ⟨h, List.nodup_singleton _, List.disjoint_singleton.mpr he⟩

theorem Sound.addRoot (h : p.Sound) (e : ε) : (p.addRoot e).Sound :=
  ⟨eachTrees_addRoot (by simp) h.trees e, nodup_addRoot h.distinct e⟩

theorem mem_elements_addRoot {parent e : ε} (h : e ∈ (p.addRoot parent).elements) :
    e ∈ p.elements ∨ e = parent := by
  by_cases hparent : parent ∈ p.elements
  · rw [addRoot_of_mem hparent] at h
    exact .inl h
  · rw [elements_addRoot hparent, List.mem_append, List.mem_singleton] at h
    exact h

theorem nodup_addChild (h : p.elements.Nodup) {parent e : ε} (hne : e ≠ parent) :
    (p.addChild parent e).elements.Nodup := by
  unfold Profile.addChild
  split
  · exact h
  · next he =>
    rw [contains_iff] at he
    exact Branch.nodup_modifyIn_sprout _ (nodup_addRoot h parent) fun hmem =>
      (mem_elements_addRoot hmem).elim he hne

theorem Sound.addChild (h : p.Sound) {parent e : ε} (hne : e ≠ parent) :
    (p.addChild parent e).Sound :=
  ⟨eachTrees_addChild (by simp) h.trees parent e, nodup_addChild h.distinct hne⟩

theorem elements_addTree [BEq α] (p : Profile α ε) (e : ε) (t : CallTree α) :
    (p.addTree e t).elements = (p.addRoot e).elements :=
  Branch.elements_modifyIn_addTree t (p.addRoot e).roots

theorem nodup_addTree [BEq α] (h : p.elements.Nodup) (e : ε) (t : CallTree α) :
    (p.addTree e t).elements.Nodup := by
  rw [elements_addTree]
  exact nodup_addRoot h e

theorem Sound.addTree [BEq α] (h : p.Sound) (e : ε) {t : CallTree α} (ht : t.Sound) :
    (p.addTree e t).Sound :=
  ⟨eachTrees_addTree (P := fun ts => ∀ t ∈ ts, t.Sound) (by simp)
    (fun ts hts => CallTree.sound_insert hts ht) h.trees e, nodup_addTree h.distinct e t⟩

end Building

theorem eachTrees_coarsen [BEq α] [Grouping ε] {P Q : List (CallTree α) → Prop}
    (hgather : ∀ bs : List (Branch α ε), Branch.EachTrees P bs → Q (Branch.gather bs))
    (h : Branch.EachTrees P p.branches) (n : Nat) : Branch.EachTrees Q (p.coarsen n).branches := by
  cases n with
  | zero => exact Branch.eachTrees_singleton.mpr (hgather p.branches h)
  | succ n => exact Branch.eachTrees_cutBelowIn hgather n p.roots h

theorem nodup_coarsen [BEq α] [Grouping ε] (h : p.elements.Nodup) (n : Nat) :
    (p.coarsen n).elements.Nodup := by
  cases n with
  | zero => exact List.nodup_singleton _
  | succ n => exact (Branch.elements_cutBelowIn_sublist n p.roots).nodup h

/-- `coarsen` preserves soundness. -/
theorem Sound.coarsen [BEq α] [Grouping ε] (h : p.Sound) (n : Nat) : (p.coarsen n).Sound :=
  ⟨eachTrees_coarsen (fun _ => Branch.sound_gather) h.trees n, nodup_coarsen h.distinct n⟩

end Profile

end StackProfile
