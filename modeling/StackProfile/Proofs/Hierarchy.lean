import StackProfile.Proofs.ProfileTrees

/-!
# Levels

`levelIn k` and `level k` are the branches and elements at depth `k`. Cutting off keeps the upper
levels, with parents and children.
-/

namespace StackProfile

variable {α ε : Type}

/-! ## Branches by level -/

namespace Branch

/-- The branches on level `k`, the forest being level 0. -/
def levelIn : Nat → List (Branch α ε) → List (Branch α ε)
  | 0, bs => bs
  | k + 1, bs => levelIn k (bs.flatMap children)

theorem levelIn_nil (k : Nat) : levelIn k ([] : List (Branch α ε)) = [] := by
  induction k with
  | zero => rfl
  | succ k ih => exact ih

theorem levelIn_append (k : Nat) (as bs : List (Branch α ε)) :
    levelIn k (as ++ bs) = levelIn k as ++ levelIn k bs := by
  induction k generalizing as bs with
  | zero => rfl
  | succ k ih => rw [levelIn, List.flatMap_append, ih]; rfl

theorem flatMap_children_levelIn (k : Nat) (bs : List (Branch α ε)) :
    (levelIn k bs).flatMap children = levelIn (k + 1) bs := by
  induction k generalizing bs with
  | zero => rfl
  | succ k ih => exact ih (bs.flatMap children)

theorem all_eq (b : Branch α ε) : b.all = b :: allIn b.children := by
  obtain ⟨e, ts, bs⟩ := b
  rfl

theorem allIn_eq_flatMap (bs : List (Branch α ε)) : allIn bs = bs.flatMap all := by
  induction bs with
  | nil => rfl
  | cons b bs ih => rw [allIn, ih, List.flatMap_cons]

theorem mem_allIn {b : Branch α ε} {bs : List (Branch α ε)} :
    b ∈ allIn bs ↔ ∃ c ∈ bs, b ∈ c.all := by
  rw [allIn_eq_flatMap, List.mem_flatMap]

theorem mem_all_self (b : Branch α ε) : b ∈ b.all := by
  rw [all_eq]
  exact List.mem_cons_self

theorem allIn_children_subset {bs : List (Branch α ε)} :
    allIn (bs.flatMap children) ⊆ allIn bs := by
  intro b hb
  obtain ⟨c, hc, hbc⟩ := mem_allIn.mp hb
  obtain ⟨d, hd, hcd⟩ := List.mem_flatMap.mp hc
  refine mem_allIn.mpr ⟨d, hd, ?_⟩
  rw [all_eq]
  exact List.mem_cons_of_mem _ (mem_allIn.mpr ⟨c, hcd, hbc⟩)

theorem levelIn_subset (k : Nat) (bs : List (Branch α ε)) : levelIn k bs ⊆ allIn bs := by
  induction k generalizing bs with
  | zero => exact fun b hb => mem_allIn.mpr ⟨b, hb, mem_all_self b⟩
  | succ k ih => exact fun b hb => allIn_children_subset (ih _ hb)

mutual

theorem exists_level_of_mem_all {b : Branch α ε} :
    (c : Branch α ε) → b ∈ c.all → ∃ k, b ∈ levelIn k [c]
  | .node e ts bs, h => by
    rcases List.mem_cons.mp h with rfl | h
    · exact ⟨0, List.mem_cons_self⟩
    · obtain ⟨k, hk⟩ := exists_level_of_mem_allIn bs h
      exact ⟨k + 1, by simpa [levelIn, children] using hk⟩

theorem exists_level_of_mem_allIn {b : Branch α ε} :
    (bs : List (Branch α ε)) → b ∈ allIn bs → ∃ k, b ∈ levelIn k bs
  | [], h => nomatch h
  | c :: bs, h => by
    have hsplit : ∀ k, levelIn k (c :: bs) = levelIn k [c] ++ levelIn k bs := fun k =>
      levelIn_append k [c] bs
    rcases List.mem_append.mp h with h | h
    · obtain ⟨k, hk⟩ := exists_level_of_mem_all c h
      exact ⟨k, hsplit k ▸ List.mem_append_left _ hk⟩
    · obtain ⟨k, hk⟩ := exists_level_of_mem_allIn bs h
      exact ⟨k, hsplit k ▸ List.mem_append_right _ hk⟩

end

mutual

/-- What lies below a branch is a contiguous part of the forest. -/
theorem all_infix_all {b : Branch α ε} : (c : Branch α ε) → b ∈ c.all → b.all <:+: c.all
  | .node e ts bs, h => by
    rcases List.mem_cons.mp h with rfl | h
    · exact List.infix_rfl
    · exact List.infix_cons (all_infix_allIn bs h)

theorem all_infix_allIn {b : Branch α ε} :
    (bs : List (Branch α ε)) → b ∈ allIn bs → b.all <:+: allIn bs
  | [], h => nomatch h
  | c :: bs, h => by
    rcases List.mem_append.mp h with h | h
    · exact (all_infix_all c h).trans (List.prefix_append _ _).isInfix
    · exact (all_infix_allIn bs h).trans (List.suffix_append _ _).isInfix

end

theorem mem_all_of_mem_children {b c : Branch α ε} (h : c ∈ b.children) : c ∈ b.all := by
  rw [all_eq]
  exact List.mem_cons_of_mem _ (mem_allIn.mpr ⟨c, h, mem_all_self c⟩)

/-! ## Cutting off -/

section Cutting

variable [BEq α]

theorem cutBelowIn_eq_map (n : Nat) (bs : List (Branch α ε)) :
    cutBelowIn n bs = bs.map (cutBelow n) := by
  induction bs with
  | nil => rfl
  | cons b bs ih => rw [cutBelowIn, ih, List.map_cons]

@[simp] theorem element_cutBelow (n : Nat) (b : Branch α ε) :
    (cutBelow n b).element = b.element := by
  obtain ⟨e, ts, bs⟩ := b
  cases n <;> rfl

theorem cutBelow_zero (b : Branch α ε) : cutBelow 0 b = .node b.element (gather b.all) [] := by
  rw [cutBelow]

theorem children_cutBelow_zero (b : Branch α ε) : (cutBelow 0 b).children = [] := by
  rw [cutBelow_zero]
  rfl

theorem children_cutBelow_succ (n : Nat) (b : Branch α ε) :
    (cutBelow (n + 1) b).children = cutBelowIn n b.children := by
  obtain ⟨e, ts, bs⟩ := b
  rfl

theorem trees_cutBelow_zero (b : Branch α ε) : (cutBelow 0 b).trees = gather b.all := by
  rw [cutBelow_zero]
  rfl

theorem trees_cutBelow_succ (n : Nat) (b : Branch α ε) :
    (cutBelow (n + 1) b).trees = b.trees.foldl CallTree.insert [] := by
  obtain ⟨e, ts, bs⟩ := b
  rfl

theorem map_element_cutBelowIn (n : Nat) (bs : List (Branch α ε)) :
    (cutBelowIn n bs).map element = bs.map element := by
  simp [cutBelowIn_eq_map]

theorem flatMap_children_cutBelowIn_zero (bs : List (Branch α ε)) :
    (cutBelowIn 0 bs).flatMap children = [] := by
  simp [cutBelowIn_eq_map, List.flatMap_map, children_cutBelow_zero]

theorem flatMap_children_cutBelowIn_succ (n : Nat) (bs : List (Branch α ε)) :
    (cutBelowIn (n + 1) bs).flatMap children = cutBelowIn n (bs.flatMap children) := by
  simp only [cutBelowIn_eq_map, List.flatMap_map, children_cutBelow_succ, List.map_flatMap]

/-- `cutBelowIn` keeps the upper levels, each branch cut off. -/
theorem levelIn_cutBelowIn {n k : Nat} (h : k ≤ n) (bs : List (Branch α ε)) :
    levelIn k (cutBelowIn n bs) = (levelIn k bs).map (cutBelow (n - k)) := by
  induction k generalizing n bs with
  | zero => exact cutBelowIn_eq_map n bs
  | succ k ih =>
    obtain ⟨n, rfl⟩ : ∃ m, n = m + 1 := ⟨n - 1, by omega⟩
    rw [levelIn, levelIn, flatMap_children_cutBelowIn_succ, ih (by omega), Nat.succ_sub_succ]

theorem levelIn_cutBelowIn_of_lt {n k : Nat} (h : n < k) (bs : List (Branch α ε)) :
    levelIn k (cutBelowIn n bs) = [] := by
  induction n generalizing k bs with
  | zero =>
    obtain ⟨k, rfl⟩ : ∃ m, k = m + 1 := ⟨k - 1, by omega⟩
    rw [levelIn, flatMap_children_cutBelowIn_zero, levelIn_nil]
  | succ n ih =>
    obtain ⟨k, rfl⟩ : ∃ m, k = m + 1 := ⟨k - 1, by omega⟩
    rw [levelIn, flatMap_children_cutBelowIn_succ, ih (by omega)]

end Cutting

/-! ## Parents -/

section Parents

variable [DecidableEq ε] {e d : ε}

mutual

theorem mem_of_parentBelow? : (b : Branch α ε) → parentBelow? e b = some d →
    e ∈ (allIn b.children).map element
  | .node p ts bs, h => by
    unfold parentBelow? at h
    split at h
    · next hany =>
      obtain ⟨c, hc, hce⟩ := List.any_eq_true.mp hany
      exact List.mem_map.mpr ⟨c, mem_allIn.mpr ⟨c, hc, mem_all_self c⟩, of_decide_eq_true hce⟩
    · exact mem_of_parentIn? bs h

theorem mem_of_parentIn? : (bs : List (Branch α ε)) → parentIn? e bs = some d →
    e ∈ (allIn bs).map element
  | [], h => nomatch h
  | b :: bs, h => by
    rw [allIn, List.map_append, List.mem_append]
    unfold parentIn? at h
    split at h
    · next p hp =>
      rw [all_eq, List.map_cons]
      exact .inl (List.mem_cons_of_mem _ (mem_of_parentBelow? b (hp.trans h)))
    · exact .inr (mem_of_parentIn? bs h)

end

variable [BEq α]

mutual

theorem parentBelow?_cutBelow : (n : Nat) → (b : Branch α ε) → (b.all.map element).Nodup →
    (e ∈ b.all.map element → e ∈ (cutBelow n b).all.map element) →
      parentBelow? e (cutBelow n b) = parentBelow? e b
  | 0, b, hnodup, h => by
    rw [all_eq, List.map_cons] at hnodup h
    have hnone : parentBelow? e b = none := by
      cases hp : parentBelow? e b with
      | none => rfl
      | some d =>
        have hbelow := mem_of_parentBelow? b hp
        have hmem := h (List.mem_cons_of_mem _ hbelow)
        rw [cutBelow_zero] at hmem
        have he : e = b.element := List.mem_singleton.mp hmem
        exact absurd (he ▸ hbelow) (List.nodup_cons.mp hnodup).1
    rw [hnone, cutBelow_zero]
    rfl
  | n + 1, .node p ts bs, hnodup, h => by
    obtain ⟨hp, hnodup⟩ := List.nodup_cons.mp hnodup
    have hany : (cutBelowIn n bs).any (fun b => b.element = e) =
        bs.any fun b => b.element = e := by
      simp [cutBelowIn_eq_map, List.any_map, Function.comp_def]
    have hrest : parentIn? e (cutBelowIn n bs) = parentIn? e bs := by
      refine parentIn?_cutBelowIn n bs hnodup fun hmem => ?_
      rcases List.mem_cons.mp (h (List.mem_cons_of_mem _ hmem)) with he | hcut
      · exact absurd (he ▸ hmem) hp
      · exact hcut
    rw [cutBelow, parentBelow?, parentBelow?, hany, hrest]

/-- Remaining elements keep their parents. -/
theorem parentIn?_cutBelowIn : (n : Nat) → (bs : List (Branch α ε)) →
    ((allIn bs).map element).Nodup →
    (e ∈ (allIn bs).map element → e ∈ (allIn (cutBelowIn n bs)).map element) →
      parentIn? e (cutBelowIn n bs) = parentIn? e bs
  | _, [], _, _ => by rw [cutBelowIn]
  | n, b :: bs, hnodup, h => by
    simp only [allIn, cutBelowIn, List.map_append, List.mem_append] at hnodup h
    obtain ⟨hb, hbs, hdisjoint⟩ := List.nodup_append'.mp hnodup
    have hhead : parentBelow? e (cutBelow n b) = parentBelow? e b := by
      refine parentBelow?_cutBelow n b hb fun hmem => (h (.inl hmem)).resolve_right fun hcut => ?_
      exact hdisjoint hmem ((elements_cutBelowIn_sublist n bs).subset hcut)
    have htail : parentIn? e (cutBelowIn n bs) = parentIn? e bs := by
      refine parentIn?_cutBelowIn n bs hbs fun hmem => (h (.inr hmem)).resolve_left fun hcut => ?_
      exact hdisjoint ((elements_cutBelow_sublist n b).subset hcut) hmem
    rw [cutBelowIn, parentIn?, parentIn?, hhead, htail]

end

end Parents

end Branch

/-! ## Elements by level -/

namespace Profile

variable [DecidableEq ε] {p : Profile α ε}

/-- The elements on level `k`, the roots being level 0. -/
def level (p : Profile α ε) : Nat → List ε
  | 0 => p.rootElements
  | k + 1 => (p.level k).flatMap p.childrenOf

theorem level_eq (h : p.elements.Nodup) (k : Nat) :
    p.level k = (Branch.levelIn k p.roots).map Branch.element := by
  induction k with
  | zero => rfl
  | succ k ih =>
    rw [level, ih, List.flatMap_map, ← Branch.flatMap_children_levelIn, List.map_flatMap]
    exact List.flatMap_congr fun b hb =>
      childrenOf_element h (Branch.levelIn_subset k p.roots hb)

theorem branch_of_mem_level (h : p.elements.Nodup) {k : Nat} {e : ε} (he : e ∈ p.level k) :
    ∃ b ∈ Branch.levelIn k p.roots, b.element = e := by
  rw [level_eq h] at he
  exact List.mem_map.mp he

theorem mem_elements_iff (h : p.elements.Nodup) {e : ε} :
    e ∈ p.elements ↔ ∃ k, e ∈ p.level k := by
  constructor
  · intro he
    obtain ⟨b, hb, rfl⟩ := List.mem_map.mp he
    obtain ⟨k, hk⟩ := Branch.exists_level_of_mem_allIn p.roots hb
    exact ⟨k, by rw [level_eq h]; exact List.mem_map_of_mem hk⟩
  · rintro ⟨k, he⟩
    obtain ⟨b, hb, rfl⟩ := branch_of_mem_level h he
    exact List.mem_map_of_mem (Branch.levelIn_subset k p.roots hb)

variable [BEq α] [Grouping ε]

theorem Sound.level_coarsen (h : p.Sound) (n k : Nat) :
    (p.coarsen (n + 1)).level k = if k ≤ n then p.level k else [] := by
  have hroots : (p.coarsen (n + 1)).roots = Branch.cutBelowIn n p.roots := rfl
  rw [level_eq (h.coarsen (n + 1)).distinct, level_eq h.distinct, hroots]
  split
  · next hk =>
    rw [Branch.levelIn_cutBelowIn hk, List.map_map]
    exact List.map_congr_left fun b _ => Branch.element_cutBelow _ b
  · next hk => rw [Branch.levelIn_cutBelowIn_of_lt (Nat.lt_of_not_le hk), List.map_nil]

omit [DecidableEq ε] in
theorem cutBelow_mem_branches_coarsen {n k : Nat} (hk : k ≤ n) {b : Branch α ε}
    (hb : b ∈ Branch.levelIn k p.roots) :
    Branch.cutBelow (n - k) b ∈ (p.coarsen (n + 1)).branches := by
  refine Branch.levelIn_subset k (Branch.cutBelowIn n p.roots) ?_
  rw [Branch.levelIn_cutBelowIn hk]
  exact List.mem_map_of_mem hb

end Profile

end StackProfile
