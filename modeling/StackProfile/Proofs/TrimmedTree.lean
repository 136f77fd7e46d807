import StackProfile.Proofs.MergeSteps

/-!
# Trimmed extra sets

Extra sets are padded with empty ones below an index only, so the last set of a node has members.
-/

namespace StackProfile

namespace CallTree

variable {α β : Type}

def TrimSets (xs : List (List (CallTree α))) : Prop := xs.getLast? ≠ some []

theorem trimSets_nil : TrimSets ([] : List (List (CallTree α))) := by simp [TrimSets]

theorem trimSets_cons {x : List (CallTree α)} {xs : List (List (CallTree α))} :
    TrimSets (x :: xs) ↔ (xs = [] → x ≠ []) ∧ TrimSets xs := by
  cases xs with
  | nil => simp [TrimSets]
  | cons y ys => simp [TrimSets, List.getLast?_cons_cons]

/-- No node has an empty last extra set. -/
inductive Trimmed : CallTree α → Prop where
  | node {p : α} {w : Int} {h : Nat} {cs : List (CallTree α)} {xs : List (List (CallTree α))}
      (trim : TrimSets xs) (children : ∀ c ∈ cs, Trimmed c)
      (extras : ∀ x ∈ xs, ∀ t ∈ x, Trimmed t) : Trimmed (.node p w h cs xs)

namespace Trimmed

variable {t : CallTree α}

theorem trim (h : t.Trimmed) : TrimSets t.extras := by cases h; assumption

theorem children (h : t.Trimmed) : ∀ c ∈ t.children, c.Trimmed := by cases h; assumption

theorem extras (h : t.Trimmed) : ∀ x ∈ t.extras, ∀ m ∈ x, m.Trimmed := by cases h; assumption

end Trimmed

theorem trimmed_leaf (p : α) (w : Int) : (leaf p w).Trimmed :=
  .node trimSets_nil (by simp) (by simp)

theorem Trimmed.addWeight {t : CallTree α} (h : t.Trimmed) (w : Int) : (t.addWeight w).Trimmed :=
  .node h.trim h.children h.extras

/-! ## Merging -/

section Merging

variable [BEq α]

omit [BEq α] in
theorem trimSets_consSet (x : List (CallTree α)) {xs : List (List (CallTree α))}
    (h : TrimSets xs) : TrimSets (consSet x xs) := by
  unfold consSet
  split
  · exact trimSets_nil
  · next hne => exact trimSets_cons.mpr ⟨fun hxs hx => hne hx hxs, h⟩

theorem trimSets_absorbSets {xs ys : List (List (CallTree α))} (hx : TrimSets xs)
    (hy : TrimSets ys) : TrimSets (absorbSets xs ys) := by
  induction ys generalizing xs with
  | nil => simpa only [absorbSets] using hx
  | cons y ys ih =>
    obtain ⟨-, hys⟩ := trimSets_cons.mp hy
    cases xs with
    | nil =>
      rw [absorbSets_nil_cons]
      exact trimSets_consSet _ (ih trimSets_nil hys)
    | cons x xs =>
      obtain ⟨hlast, hxs⟩ := trimSets_cons.mp hx
      rw [absorbSets]
      refine trimSets_cons.mpr ⟨fun hnil => ?_, ih hxs hys⟩
      exact mt absorbAll_eq_nil (hlast (absorbSets_eq_nil hnil))

mutual

theorem Trimmed.absorb {s : CallTree α} (hs : s.Trimmed) :
    ∀ {t : CallTree α}, t.Trimmed → (s.absorb t).Trimmed
  | .node _ _ _ cs xs, ht => by
    simp only [CallTree.absorb]
    exact .node (trimSets_absorbSets hs.trim ht.trim) (trimmed_absorbAll hs.children ht.children)
      (trimmed_absorbSets hs.extras ht.extras)

theorem trimmed_absorbAll {siblings : List (CallTree α)} (hs : ∀ s ∈ siblings, s.Trimmed) :
    ∀ {cs : List (CallTree α)}, (∀ c ∈ cs, c.Trimmed) → ∀ s ∈ absorbAll siblings cs, s.Trimmed
  | [], _ => by simpa only [absorbAll] using hs
  | c :: cs, hcs => by
    obtain ⟨hc, hcs⟩ := List.forall_mem_cons.mp hcs
    simp only [absorbAll]
    exact trimmed_absorbAll (forall_mem_settle hs hc fun s hs => hs.absorb hc) hcs

theorem trimmed_absorbSets {xs : List (List (CallTree α))} (hx : ∀ x ∈ xs, ∀ t ∈ x, t.Trimmed) :
    ∀ {ys : List (List (CallTree α))}, (∀ y ∈ ys, ∀ t ∈ y, t.Trimmed) →
      ∀ x ∈ absorbSets xs ys, ∀ t ∈ x, t.Trimmed
  | [], _ => by cases xs <;> simpa only [absorbSets] using hx
  | y :: ys, hys => by
    obtain ⟨hy, hrest⟩ := List.forall_mem_cons.mp hys
    cases xs with
    | nil =>
      have hset : ∀ t ∈ absorbAll [] y, t.Trimmed := trimmed_absorbAll (by simp) hy
      have hsets : ∀ x ∈ absorbSets [] ys, ∀ t ∈ x, t.Trimmed := trimmed_absorbSets (by simp) hrest
      simp only [absorbSets]
      split
      · simp
      · exact List.forall_mem_cons.mpr ⟨hset, hsets⟩
    | cons x xs =>
      obtain ⟨hx, hxs⟩ := List.forall_mem_cons.mp hx
      simp only [absorbSets]
      exact List.forall_mem_cons.mpr ⟨trimmed_absorbAll hx hy, trimmed_absorbSets hxs hrest⟩

end

theorem trimmed_insert {siblings : List (CallTree α)} (hs : ∀ s ∈ siblings, s.Trimmed)
    {t : CallTree α} (ht : t.Trimmed) : ∀ s ∈ insert siblings t, s.Trimmed :=
  forall_mem_settle hs ht fun _ hs => hs.absorb ht

theorem Trimmed.graft {t c : CallTree α} (h : t.Trimmed) (hc : c.Trimmed) : (t.graft c).Trimmed :=
  .node h.trim (trimmed_insert h.children hc) h.extras

theorem insertAt_ne_nil (m : CallTree α) (i : Nat) (xs : List (List (CallTree α))) :
    insertAt m i xs ≠ [] := by
  cases i <;> cases xs <;> exact List.cons_ne_nil _ _

theorem trimSets_insertAt (m : CallTree α) (i : Nat) {xs : List (List (CallTree α))}
    (h : TrimSets xs) : TrimSets (insertAt m i xs) := by
  fun_induction insertAt m i xs with
  | case1 => exact trimSets_cons.mpr ⟨fun _ => insert_ne_nil [] m, trimSets_nil⟩
  | case2 x xs => exact trimSets_cons.mpr ⟨fun _ => insert_ne_nil x m, (trimSets_cons.mp h).2⟩
  | case3 i ih => exact trimSets_cons.mpr ⟨fun hnil => absurd hnil (insertAt_ne_nil m i []), ih h⟩
  | case4 i x xs ih =>
    exact trimSets_cons.mpr
      ⟨fun hnil => absurd hnil (insertAt_ne_nil m i xs), ih (trimSets_cons.mp h).2⟩

theorem trimmed_insertAt {m : CallTree α} (hm : m.Trimmed) (i : Nat)
    {xs : List (List (CallTree α))} (h : ∀ x ∈ xs, ∀ t ∈ x, t.Trimmed) :
    ∀ x ∈ insertAt m i xs, ∀ t ∈ x, t.Trimmed := by
  fun_induction insertAt m i xs with
  | case1 => exact List.forall_mem_singleton.mpr (trimmed_insert (by simp) hm)
  | case2 x xs =>
    obtain ⟨hx, hxs⟩ := List.forall_mem_cons.mp h
    exact List.forall_mem_cons.mpr ⟨trimmed_insert hx hm, hxs⟩
  | case3 i ih => exact List.forall_mem_cons.mpr ⟨by simp, ih h⟩
  | case4 i x xs ih =>
    obtain ⟨hx, hxs⟩ := List.forall_mem_cons.mp h
    exact List.forall_mem_cons.mpr ⟨hx, ih hxs⟩

theorem Trimmed.graftExtra {t m : CallTree α} (h : t.Trimmed) (i : Nat) (hm : m.Trimmed) :
    (t.graftExtra i m).Trimmed :=
  .node (trimSets_insertAt m i h.trim) h.children (trimmed_insertAt hm i h.extras)

/-- Trimmed sets are unchanged when they join none. -/
theorem absorbSets_nil_left {ys : List (List (CallTree α))} (ht : TrimSets ys)
    (hy : ∀ y ∈ ys, Apart y) : absorbSets [] ys = ys := by
  induction ys with
  | nil => rw [absorbSets]
  | cons y ys ih =>
    obtain ⟨hlast, hys⟩ := trimSets_cons.mp ht
    obtain ⟨hapart, hrest⟩ := List.forall_mem_cons.mp hy
    rw [absorbSets_nil_cons, ih hys hrest, absorbAll_eq_foldl, hapart.foldl_insert]
    unfold consSet
    split
    · next hset => exact absurd rfl (hlast rfl)
    · rfl

end Merging

/-! ## Mapping -/

theorem trimSets_mapSets (f : α → β) {xs : List (List (CallTree α))} (h : TrimSets xs) :
    TrimSets (mapSets f xs) := by
  induction xs with
  | nil => exact trimSets_nil
  | cons x xs ih =>
    obtain ⟨hlast, hxs⟩ := trimSets_cons.mp h
    refine trimSets_cons.mpr ⟨fun hnil => ?_, ih hxs⟩
    have hempty : xs = [] := by
      cases xs with
      | nil => rfl
      | cons y ys => cases hnil
    rw [mapAll_eq_map]
    exact mt List.map_eq_nil_iff.mp (hlast hempty)

mutual

theorem Trimmed.map (f : α → β) : ∀ {t : CallTree α}, t.Trimmed → (t.map f).Trimmed
  | .node _ _ _ cs xs, ht => by
    exact .node (trimSets_mapSets f ht.trim) (trimmed_mapAll f ht.children)
      (trimmed_mapSets f ht.extras)

theorem trimmed_mapAll (f : α → β) : ∀ {cs : List (CallTree α)}, (∀ c ∈ cs, c.Trimmed) →
    ∀ c ∈ mapAll f cs, c.Trimmed
  | [], _ => by simp [mapAll]
  | c :: cs, h => by
    obtain ⟨hc, hcs⟩ := List.forall_mem_cons.mp h
    exact List.forall_mem_cons.mpr ⟨hc.map f, trimmed_mapAll f hcs⟩

theorem trimmed_mapSets (f : α → β) : ∀ {xs : List (List (CallTree α))},
    (∀ x ∈ xs, ∀ t ∈ x, t.Trimmed) → ∀ x ∈ mapSets f xs, ∀ t ∈ x, t.Trimmed
  | [], _ => by simp [mapSets]
  | x :: xs, h => by
    obtain ⟨hx, hxs⟩ := List.forall_mem_cons.mp h
    exact List.forall_mem_cons.mpr ⟨trimmed_mapAll f hx, trimmed_mapSets f hxs⟩

end

end CallTree

end StackProfile
