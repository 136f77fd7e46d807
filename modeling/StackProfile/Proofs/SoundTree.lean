import StackProfile.CallTree
import StackProfile.Proofs.TimeRange

/-!
# Sound call trees

Weights in range and exact heights. All operations on trees preserve soundness.
-/

namespace StackProfile

namespace CallTree

variable {α β : Type}

/-- Weights in range and heights one above the highest child, extra sets included. -/
inductive Sound : CallTree α → Prop where
  | node {p : α} {w : Int} {h : Nat} {cs : List (CallTree α)} {xs : List (List (CallTree α))}
      (weight_nonneg : 0 ≤ w) (weight_le : w ≤ maxTime) (height_eq : h = heightOver 1 cs)
      (children : ∀ c ∈ cs, Sound c) (extras : ∀ x ∈ xs, ∀ t ∈ x, Sound t) :
      Sound (.node p w h cs xs)

namespace Sound

variable {t : CallTree α}

theorem weight_nonneg (h : t.Sound) : 0 ≤ t.weight := by cases h; assumption

theorem weight_le (h : t.Sound) : t.weight ≤ maxTime := by cases h; assumption

theorem height_eq (h : t.Sound) : t.height = heightOver 1 t.children := by cases h; assumption

theorem children (h : t.Sound) : ∀ c ∈ t.children, c.Sound := by cases h; assumption

theorem extras (h : t.Sound) : ∀ x ∈ t.extras, ∀ m ∈ x, m.Sound := by cases h; assumption

end Sound

theorem weights_nonneg {ts : List (CallTree α)} (h : ∀ t ∈ ts, t.Sound) :
    ∀ w ∈ ts.map weight, 0 ≤ w := by
  intro w hw
  obtain ⟨t, ht, rfl⟩ := List.mem_map.mp hw
  exact (h t ht).weight_nonneg

/-! ## Heights -/

theorem heightOver_cons (h : Nat) (c : CallTree α) (cs : List (CallTree α)) :
    heightOver h (c :: cs) = heightOver (max h (c.height + 1)) cs := rfl

theorem heightOver_max (a b : Nat) (cs : List (CallTree α)) :
    heightOver (max a b) cs = max a (heightOver b cs) := by
  induction cs generalizing b with
  | nil => rfl
  | cons c cs ih => rw [heightOver_cons, Nat.max_assoc, ih, heightOver_cons]

theorem le_heightOver (h : Nat) (cs : List (CallTree α)) : h ≤ heightOver h cs := by
  have := heightOver_max h h cs
  rw [Nat.max_self] at this
  omega

theorem height_lt_heightOver {c : CallTree α} {cs : List (CallTree α)} (h : Nat) (hc : c ∈ cs) :
    c.height < heightOver h cs := by
  induction cs generalizing h with
  | nil => cases hc
  | cons d cs ih =>
    rw [heightOver_cons]
    rcases List.mem_cons.mp hc with rfl | hc
    · have := le_heightOver (max h (c.height + 1)) cs
      omega
    · exact ih _ hc

theorem Sound.height_pos {t : CallTree α} (h : t.Sound) : 1 ≤ t.height := by
  rw [h.height_eq]; exact le_heightOver 1 _

theorem Sound.height_lt {t c : CallTree α} (h : t.Sound) (hc : c ∈ t.children) :
    c.height < t.height := by
  rw [h.height_eq]; exact height_lt_heightOver 1 hc

/-! ## Growing a tree -/

theorem sound_leaf (p : α) {w : Int} (hw : w ≤ maxTime) : (leaf p w).Sound := by
  refine .node (by omega) ?_ rfl (by simp) (by simp)
  have := maxTime_pos
  omega

theorem Sound.addWeight {t : CallTree α} (h : t.Sound) (w : Int) : (t.addWeight w).Sound := by
  have hw := h.weight_nonneg
  exact .node (satAdd_nonneg hw (by omega)) (satAdd_le _ _) h.height_eq h.children h.extras

theorem mem_settle [BEq α] {t x : CallTree α} {join : CallTree α → CallTree α}
    {siblings : List (CallTree α)} (h : x ∈ settle t join siblings) :
    x ∈ siblings ∨ x = t ∨ ∃ s ∈ siblings, x = join s := by
  induction siblings with
  | nil => exact .inr (.inl (List.mem_singleton.mp h))
  | cons s rest ih =>
    unfold settle at h
    split at h
    · rcases List.mem_cons.mp h with rfl | h
      · exact .inr (.inr ⟨s, List.mem_cons_self, rfl⟩)
      · exact .inl (List.mem_cons_of_mem _ h)
    · rcases List.mem_cons.mp h with rfl | h
      · exact .inl List.mem_cons_self
      · rcases ih h with h | h | ⟨r, hr, h⟩
        · exact .inl (List.mem_cons_of_mem _ h)
        · exact .inr (.inl h)
        · exact .inr (.inr ⟨r, List.mem_cons_of_mem _ hr, h⟩)

theorem forall_mem_settle [BEq α] {P : CallTree α → Prop} {t : CallTree α}
    {join : CallTree α → CallTree α} {siblings : List (CallTree α)} (hs : ∀ s ∈ siblings, P s)
    (ht : P t) (hj : ∀ s, P s → P (join s)) : ∀ s ∈ settle t join siblings, P s := by
  intro x hx
  rcases mem_settle hx with h | rfl | ⟨s, h, rfl⟩
  · exact hs x h
  · exact ht
  · exact hj s (hs s h)

section Merging

variable [BEq α]

theorem height_absorb {s t : CallTree α} (hs : 1 ≤ s.height) (ht : t.Sound) :
    (absorb s t).height = max s.height t.height := by
  have h := ht.height_eq
  obtain ⟨p, w, n, cs, xs⟩ := t
  have hmax := heightOver_max s.height 1 cs
  rw [Nat.max_eq_left hs] at hmax
  rw [h]
  exact hmax

theorem heightOver_settle {c : CallTree α} (hc : c.Sound) (h : Nat) {siblings : List (CallTree α)}
    (hs : ∀ s ∈ siblings, 1 ≤ s.height) :
    heightOver h (settle c (fun s => absorb s c) siblings) =
      max (heightOver h siblings) (c.height + 1) := by
  induction siblings generalizing h with
  | nil => rfl
  | cons s rest ih =>
    have hrest : ∀ r ∈ rest, 1 ≤ r.height := fun r hr => hs r (List.mem_cons_of_mem _ hr)
    unfold settle
    split
    · rw [heightOver_cons, heightOver_cons, height_absorb (hs s List.mem_cons_self) hc,
        Nat.max_comm _ (c.height + 1), ← heightOver_max]
      congr 1; omega
    · rw [heightOver_cons, heightOver_cons, ih _ hrest]

theorem heightOver_absorbAll {siblings cs : List (CallTree α)} (h : Nat)
    (hs : ∀ s ∈ siblings, 1 ≤ s.height) (hcs : ∀ c ∈ cs, c.Sound) :
    heightOver h (absorbAll siblings cs) = heightOver (heightOver h siblings) cs := by
  induction cs generalizing siblings with
  | nil => simp [absorbAll, heightOver]
  | cons c cs ih =>
    have hc := hcs c List.mem_cons_self
    simp only [absorbAll]
    rw [ih, heightOver_settle hc h hs, heightOver_cons]
    · refine forall_mem_settle hs hc.height_pos fun s hs => ?_
      rw [height_absorb hs hc]; omega
    · exact fun d hd => hcs d (List.mem_cons_of_mem _ hd)

mutual

theorem Sound.absorb {s : CallTree α} (hs : s.Sound) :
    ∀ {t : CallTree α}, t.Sound → (s.absorb t).Sound
  | .node _ w _ cs xs, ht => by
    have hw := ht.weight_nonneg
    simp only [CallTree.absorb]
    refine .node (satAdd_nonneg hs.weight_nonneg (by omega)) (satAdd_le _ _) ?_
      (sound_absorbAll hs.children ht.children) (sound_absorbSets hs.extras ht.extras)
    rw [hs.height_eq]
    exact (heightOver_absorbAll 1 (fun c hc => (hs.children c hc).height_pos) ht.children).symm

theorem sound_absorbAll {siblings : List (CallTree α)} (hs : ∀ s ∈ siblings, s.Sound) :
    ∀ {cs : List (CallTree α)}, (∀ c ∈ cs, c.Sound) → ∀ s ∈ absorbAll siblings cs, s.Sound
  | [], _ => by simpa only [absorbAll] using hs
  | c :: cs, hcs => by
    have hc := hcs c List.mem_cons_self
    simp only [absorbAll]
    exact sound_absorbAll (forall_mem_settle hs hc fun s hs => hs.absorb hc)
      fun d hd => hcs d (List.mem_cons_of_mem _ hd)

theorem sound_absorbSets {xs : List (List (CallTree α))} (hx : ∀ x ∈ xs, ∀ t ∈ x, t.Sound) :
    ∀ {ys : List (List (CallTree α))}, (∀ y ∈ ys, ∀ t ∈ y, t.Sound) →
      ∀ x ∈ absorbSets xs ys, ∀ t ∈ x, t.Sound
  | [], _ => by cases xs <;> simpa only [absorbSets] using hx
  | y :: ys, hys => by
    have hy := hys y List.mem_cons_self
    have hrest : ∀ z ∈ ys, ∀ t ∈ z, t.Sound := fun z hz => hys z (List.mem_cons_of_mem _ hz)
    cases xs with
    | nil =>
      have hset : ∀ t ∈ absorbAll [] y, t.Sound := sound_absorbAll (by simp) hy
      have hsets : ∀ x ∈ absorbSets [] ys, ∀ t ∈ x, t.Sound := sound_absorbSets (by simp) hrest
      simp only [absorbSets]
      split
      · simp
      · exact List.forall_mem_cons.mpr ⟨hset, hsets⟩
    | cons x xs =>
      have hx' := List.forall_mem_cons.mp hx
      simp only [absorbSets]
      exact List.forall_mem_cons.mpr ⟨sound_absorbAll hx'.1 hy, sound_absorbSets hx'.2 hrest⟩

end

theorem sound_insert {siblings : List (CallTree α)} (hs : ∀ s ∈ siblings, s.Sound)
    {t : CallTree α} (ht : t.Sound) : ∀ s ∈ insert siblings t, s.Sound :=
  forall_mem_settle hs ht fun _ hs => hs.absorb ht

theorem sound_foldl_insert {siblings ts : List (CallTree α)} (hs : ∀ s ∈ siblings, s.Sound)
    (ht : ∀ t ∈ ts, t.Sound) : ∀ s ∈ ts.foldl insert siblings, s.Sound := by
  induction ts generalizing siblings with
  | nil => exact hs
  | cons t ts ih =>
    exact ih (sound_insert hs (ht t List.mem_cons_self))
      fun u hu => ht u (List.mem_cons_of_mem _ hu)

theorem Sound.graft {t c : CallTree α} (h : t.Sound) (hc : c.Sound) : (t.graft c).Sound := by
  refine .node h.weight_nonneg h.weight_le ?_ (sound_insert h.children hc) h.extras
  rw [insert, heightOver_settle hc 1 fun s hs => (h.children s hs).height_pos, ← h.height_eq]

theorem sound_insertAt {m : CallTree α} (hm : m.Sound) (i : Nat) {xs : List (List (CallTree α))}
    (h : ∀ x ∈ xs, ∀ t ∈ x, t.Sound) : ∀ x ∈ insertAt m i xs, ∀ t ∈ x, t.Sound := by
  fun_induction insertAt m i xs with
  | case1 => exact List.forall_mem_singleton.mpr (sound_insert (by simp) hm)
  | case2 x xs =>
    obtain ⟨hx, hxs⟩ := List.forall_mem_cons.mp h
    exact List.forall_mem_cons.mpr ⟨sound_insert hx hm, hxs⟩
  | case3 i ih => exact List.forall_mem_cons.mpr ⟨by simp, ih h⟩
  | case4 i x xs ih =>
    obtain ⟨hx, hxs⟩ := List.forall_mem_cons.mp h
    exact List.forall_mem_cons.mpr ⟨hx, ih hxs⟩

theorem Sound.graftExtra {t m : CallTree α} (h : t.Sound) (i : Nat) (hm : m.Sound) :
    (t.graftExtra i m).Sound :=
  .node h.weight_nonneg h.weight_le h.height_eq h.children (sound_insertAt hm i h.extras)

end Merging

/-! ## Mapping -/

theorem height_map (f : α → β) (t : CallTree α) : (t.map f).height = t.height := by
  obtain ⟨p, w, h, cs, xs⟩ := t
  rfl

theorem payload_map (f : α → β) (t : CallTree α) : (t.map f).payload = f t.payload := by
  obtain ⟨p, w, h, cs, xs⟩ := t
  rfl

theorem mapAll_eq_map (f : α → β) (ts : List (CallTree α)) : mapAll f ts = ts.map (map f) := by
  induction ts with
  | nil => rfl
  | cons t ts ih => rw [mapAll, ih, List.map_cons]

theorem heightOver_mapAll (f : α → β) (h : Nat) (cs : List (CallTree α)) :
    heightOver h (mapAll f cs) = heightOver h cs := by
  induction cs generalizing h with
  | nil => rfl
  | cons c cs ih => rw [mapAll, heightOver_cons, heightOver_cons, height_map, ih]

mutual

theorem Sound.map (f : α → β) : ∀ {t : CallTree α}, t.Sound → (t.map f).Sound
  | .node _ _ _ cs xs, ht => by
    refine .node ht.weight_nonneg ht.weight_le ?_ (sound_mapAll f ht.children)
      (sound_mapSets f ht.extras)
    rw [heightOver_mapAll]
    exact ht.height_eq

theorem sound_mapAll (f : α → β) : ∀ {cs : List (CallTree α)}, (∀ c ∈ cs, c.Sound) →
    ∀ c ∈ mapAll f cs, c.Sound
  | [], _ => by simp [mapAll]
  | c :: cs, h => by
    obtain ⟨hc, hcs⟩ := List.forall_mem_cons.mp h
    exact List.forall_mem_cons.mpr ⟨hc.map f, sound_mapAll f hcs⟩

theorem sound_mapSets (f : α → β) : ∀ {xs : List (List (CallTree α))},
    (∀ x ∈ xs, ∀ t ∈ x, t.Sound) → ∀ x ∈ mapSets f xs, ∀ t ∈ x, t.Sound
  | [], _ => by simp [mapSets]
  | x :: xs, h => by
    obtain ⟨hx, hxs⟩ := List.forall_mem_cons.mp h
    exact List.forall_mem_cons.mpr ⟨sound_mapAll f hx, sound_mapSets f hxs⟩

end

end CallTree

end StackProfile
