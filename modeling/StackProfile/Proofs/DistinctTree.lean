import StackProfile.Proofs.SoundProfile

/-!
# Distinct siblings

`Apart` siblings have pairwise unequal payloads, `Distinct` trees have apart children and extra sets
throughout. All insertions keep both, for any `BEq`.
-/

namespace StackProfile

namespace CallTree

variable {α : Type} [BEq α]

/-- Pairwise unequal payloads. -/
def Apart (ts : List (CallTree α)) : Prop := ts.Pairwise fun s t => ¬s.payload == t.payload

/-- Children and members of extra sets are apart, at every node. -/
inductive Distinct : CallTree α → Prop where
  | node {p : α} {w : Int} {h : Nat} {cs : List (CallTree α)} {xs : List (List (CallTree α))}
      (apart : Apart cs) (children : ∀ c ∈ cs, Distinct c) (apart_extras : ∀ x ∈ xs, Apart x)
      (extras : ∀ x ∈ xs, ∀ t ∈ x, Distinct t) : Distinct (.node p w h cs xs)

/-- `R` holds between earlier and later children of each node, extra sets aside. -/
inductive Siblings (R : CallTree α → CallTree α → Prop) : CallTree α → Prop where
  | node {p : α} {w : Int} {h : Nat} {cs : List (CallTree α)} {xs : List (List (CallTree α))}
      (pairwise : cs.Pairwise R) (children : ∀ c ∈ cs, Siblings R c) :
      Siblings R (.node p w h cs xs)

/-- No two children of a node have equal payloads. -/
abbrev ChildrenApart (t : CallTree α) : Prop := t.Siblings fun s u => ¬s.payload == u.payload

namespace Siblings

variable {R S : CallTree α → CallTree α → Prop} {t : CallTree α}

omit [BEq α]

theorem pairwise (h : t.Siblings R) : t.children.Pairwise R := by cases h; assumption

theorem children (h : t.Siblings R) : ∀ c ∈ t.children, c.Siblings R := by cases h; assumption

theorem imp (h : t.Siblings R) (himp : ∀ s u, R s u → S s u) : t.Siblings S := by
  induction h with
  | node hpairwise _ ih => exact .node (hpairwise.imp (himp _ _)) ih

end Siblings

theorem Distinct.childrenApart {t : CallTree α} (h : t.Distinct) : t.ChildrenApart := by
  induction h with
  | node hapart _ _ _ ihcs _ => exact .node hapart ihcs

structure DistinctAll (ts : List (CallTree α)) : Prop where
  apart : Apart ts
  trees : ∀ t ∈ ts, t.Distinct

theorem DistinctAll.nil : DistinctAll ([] : List (CallTree α)) := ⟨.nil, by simp⟩

theorem DistinctAll.cons {t : CallTree α} {ts : List (CallTree α)} (h : DistinctAll (t :: ts)) :
    t.Distinct ∧ (∀ u ∈ ts, ¬t.payload == u.payload) ∧ DistinctAll ts := by
  obtain ⟨hapart, htrees⟩ := h
  obtain ⟨hne, hrest⟩ := List.pairwise_cons.mp hapart
  obtain ⟨ht, hts⟩ := List.forall_mem_cons.mp htrees
  exact ⟨ht, hne, hrest, hts⟩

theorem DistinctAll.nodup [LawfulBEq α] {ts : List (CallTree α)} (h : DistinctAll ts) :
    (ts.map payload).Nodup :=
  List.pairwise_map.mpr (h.apart.imp fun hne heq => hne (beq_iff_eq.mpr heq))

theorem Distinct.children {t : CallTree α} (h : t.Distinct) : DistinctAll t.children := by
  cases h with
  | node hapart hcs => exact ⟨hapart, hcs⟩

theorem Distinct.extras {t : CallTree α} (h : t.Distinct) : ∀ x ∈ t.extras, DistinctAll x := by
  cases h with
  | node _ _ hapart hxs => exact fun x hx => ⟨hapart x hx, hxs x hx⟩

theorem Distinct.of_parts {p : α} {w : Int} {h : Nat} {cs : List (CallTree α)}
    {xs : List (List (CallTree α))} (hcs : DistinctAll cs) (hxs : ∀ x ∈ xs, DistinctAll x) :
    Distinct (.node p w h cs xs) :=
  .node hcs.apart hcs.trees (fun x hx => (hxs x hx).apart) fun x hx => (hxs x hx).trees

theorem distinct_leaf (p : α) (w : Int) : (leaf p w).Distinct :=
  .of_parts .nil (by simp)

/-! ## Merging -/

section Merging

@[simp] theorem payload_absorb (s t : CallTree α) : (s.absorb t).payload = s.payload := by
  obtain ⟨p, w, h, cs, xs⟩ := t
  rfl

/-- `settle` keeps siblings apart. -/
theorem Apart.settle {t : CallTree α} {join : CallTree α → CallTree α}
    {siblings : List (CallTree α)} (h : Apart siblings) (hj : ∀ s, (join s).payload = s.payload) :
    Apart (settle t join siblings) := by
  induction siblings with
  | nil => exact List.pairwise_singleton _ _
  | cons s rest ih =>
    obtain ⟨hs, hrest⟩ := List.pairwise_cons.mp h
    unfold CallTree.settle
    split
    · exact List.pairwise_cons.mpr ⟨fun u hu => hj s ▸ hs u hu, hrest⟩
    · next hne =>
      refine List.pairwise_cons.mpr ⟨fun u hu => ?_, ih hrest⟩
      rcases mem_settle hu with hu | rfl | ⟨r, hr, rfl⟩
      · exact hs u hu
      · exact hne
      · rw [hj r]; exact hs r hr

theorem DistinctAll.settle {t : CallTree α} {join : CallTree α → CallTree α}
    {siblings : List (CallTree α)} (h : DistinctAll siblings) (ht : t.Distinct)
    (hp : ∀ s, (join s).payload = s.payload) (hj : ∀ s, s.Distinct → (join s).Distinct) :
    DistinctAll (settle t join siblings) :=
  ⟨h.apart.settle hp, forall_mem_settle h.trees ht hj⟩

mutual

theorem Distinct.absorb {s : CallTree α} (hs : s.Distinct) :
    ∀ {t : CallTree α}, t.Distinct → (s.absorb t).Distinct
  | .node _ _ _ cs xs, ht => by
    simp only [CallTree.absorb]
    exact .of_parts (DistinctAll.absorbAll hs.children ht.children.trees)
      (distinct_absorbSets hs.extras fun x hx => (ht.extras x hx).trees)

theorem DistinctAll.absorbAll {siblings : List (CallTree α)} (hs : DistinctAll siblings) :
    ∀ {cs : List (CallTree α)}, (∀ c ∈ cs, c.Distinct) → DistinctAll (absorbAll siblings cs)
  | [], _ => by simpa only [CallTree.absorbAll] using hs
  | c :: cs, hcs => by
    have hc := hcs c List.mem_cons_self
    simp only [CallTree.absorbAll]
    exact DistinctAll.absorbAll
      (hs.settle hc (fun s => payload_absorb s c) fun s hs => hs.absorb hc)
      fun d hd => hcs d (List.mem_cons_of_mem _ hd)

theorem distinct_absorbSets {xs : List (List (CallTree α))} (hx : ∀ x ∈ xs, DistinctAll x) :
    ∀ {ys : List (List (CallTree α))}, (∀ y ∈ ys, ∀ t ∈ y, t.Distinct) →
      ∀ x ∈ absorbSets xs ys, DistinctAll x
  | [], _ => by cases xs <;> simpa only [absorbSets] using hx
  | y :: ys, hys => by
    obtain ⟨hy, hrest⟩ := List.forall_mem_cons.mp hys
    cases xs with
    | nil =>
      have hset : DistinctAll (CallTree.absorbAll [] y) := DistinctAll.absorbAll .nil hy
      have hsets : ∀ x ∈ absorbSets [] ys, DistinctAll x := distinct_absorbSets (by simp) hrest
      simp only [absorbSets]
      split
      · simp
      · exact List.forall_mem_cons.mpr ⟨hset, hsets⟩
    | cons x xs =>
      obtain ⟨hx, hxs⟩ := List.forall_mem_cons.mp hx
      simp only [absorbSets]
      exact List.forall_mem_cons.mpr
        ⟨DistinctAll.absorbAll hx hy, distinct_absorbSets hxs hrest⟩

end

theorem Apart.insert {siblings : List (CallTree α)} (h : Apart siblings) (t : CallTree α) :
    Apart (insert siblings t) := h.settle fun s => payload_absorb s t

theorem apart_foldl_insert {siblings : List (CallTree α)} (h : Apart siblings)
    (ts : List (CallTree α)) : Apart (ts.foldl CallTree.insert siblings) := by
  induction ts generalizing siblings with
  | nil => exact h
  | cons t ts ih => exact ih (h.insert t)

theorem DistinctAll.insert {siblings : List (CallTree α)} (hs : DistinctAll siblings)
    {t : CallTree α} (ht : t.Distinct) : DistinctAll (insert siblings t) :=
  hs.settle ht (fun s => payload_absorb s t) fun _ hs => hs.absorb ht

theorem DistinctAll.foldl_insert {siblings ts : List (CallTree α)}
    (hs : DistinctAll siblings) (ht : ∀ t ∈ ts, t.Distinct) :
    DistinctAll (ts.foldl CallTree.insert siblings) := by
  induction ts generalizing siblings with
  | nil => exact hs
  | cons t ts ih =>
    exact ih (hs.insert (ht t List.mem_cons_self)) fun u hu => ht u (List.mem_cons_of_mem _ hu)

theorem Distinct.graft {t c : CallTree α} (h : t.Distinct) (hc : c.Distinct) :
    (t.graft c).Distinct :=
  .of_parts (h.children.insert hc) h.extras

theorem distinct_insertAt {m : CallTree α} (hm : m.Distinct) (i : Nat)
    {xs : List (List (CallTree α))} (h : ∀ x ∈ xs, DistinctAll x) :
    ∀ x ∈ insertAt m i xs, DistinctAll x := by
  fun_induction insertAt m i xs with
  | case1 => exact List.forall_mem_singleton.mpr (DistinctAll.nil.insert hm)
  | case2 x xs =>
    obtain ⟨hx, hxs⟩ := List.forall_mem_cons.mp h
    exact List.forall_mem_cons.mpr ⟨hx.insert hm, hxs⟩
  | case3 i ih => exact List.forall_mem_cons.mpr ⟨.nil, ih h⟩
  | case4 i x xs ih =>
    obtain ⟨hx, hxs⟩ := List.forall_mem_cons.mp h
    exact List.forall_mem_cons.mpr ⟨hx, ih hxs⟩

theorem Distinct.graftExtra {t m : CallTree α} (h : t.Distinct) (i : Nat) (hm : m.Distinct) :
    (t.graftExtra i m).Distinct :=
  .of_parts h.children (distinct_insertAt hm i h.extras)

end Merging

/-! ## Proper trees -/

/-- Invariant of merging. `CallTree.map` preserves `Sound` but not `Distinct`. -/
structure Proper (t : CallTree α) : Prop where
  sound : t.Sound
  distinct : t.Distinct

theorem proper_leaf (p : α) {w : Int} (hw : w ≤ maxTime) : (leaf p w).Proper :=
  ⟨sound_leaf p hw, distinct_leaf p w⟩

namespace Proper

variable {s t : CallTree α}

theorem graft (ht : t.Proper) (hs : s.Proper) : (t.graft s).Proper :=
  ⟨ht.sound.graft hs.sound, ht.distinct.graft hs.distinct⟩

theorem graftExtra (ht : t.Proper) (i : Nat) (hs : s.Proper) : (t.graftExtra i s).Proper :=
  ⟨ht.sound.graftExtra i hs.sound, ht.distinct.graftExtra i hs.distinct⟩

end Proper

end CallTree

end StackProfile
