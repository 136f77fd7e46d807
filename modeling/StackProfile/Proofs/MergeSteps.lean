import StackProfile.Proofs.DistinctTree

/-!
# Merging in steps

`insert` and `absorb` associate, in the order of siblings and extra sets too. The operand in the
middle must be distinct: of equal siblings only the first one merges.
-/

namespace StackProfile

namespace CallTree

variable {α : Type} [BEq α]

/-! ## One tree among siblings -/

theorem settle_eq_append {t : CallTree α} {join : CallTree α → CallTree α}
    {siblings : List (CallTree α)} (h : ∀ s ∈ siblings, ¬s.payload == t.payload) :
    settle t join siblings = siblings ++ [t] := by
  induction siblings with
  | nil => rfl
  | cons s rest ih =>
    obtain ⟨hs, hrest⟩ := List.forall_mem_cons.mp h
    rw [settle, if_neg hs, ih hrest, List.cons_append]

theorem insert_cons_of_beq {s t : CallTree α} (h : s.payload == t.payload)
    (rest : List (CallTree α)) : insert (s :: rest) t = s.absorb t :: rest := by
  rw [insert, settle, if_pos h]

theorem insert_cons_of_ne {s t : CallTree α} (h : ¬s.payload == t.payload)
    (rest : List (CallTree α)) : insert (s :: rest) t = s :: insert rest t := by
  rw [insert, settle, if_neg h, ← insert]

theorem exists_mem_insert {p : α} {siblings : List (CallTree α)} (t : CallTree α)
    (h : ∃ s ∈ siblings, s.payload == p) : ∃ s ∈ insert siblings t, s.payload == p := by
  induction siblings with
  | nil => simp at h
  | cons s rest ih =>
    obtain ⟨r, hr, hp⟩ := h
    by_cases hs : s.payload == t.payload
    · rw [insert_cons_of_beq hs]
      rcases List.mem_cons.mp hr with rfl | hr
      · exact ⟨r.absorb t, List.mem_cons_self, (payload_absorb r t).symm ▸ hp⟩
      · exact ⟨r, List.mem_cons_of_mem _ hr, hp⟩
    · rw [insert_cons_of_ne hs]
      rcases List.mem_cons.mp hr with rfl | hr
      · exact ⟨r, List.mem_cons_self, hp⟩
      · obtain ⟨u, hu, hup⟩ := ih ⟨r, hr, hp⟩
        exact ⟨u, List.mem_cons_of_mem _ hu, hup⟩

theorem exists_mem_insert_self {p : α} {t : CallTree α} (h : t.payload == p)
    (htrans : ∀ s : CallTree α, s.payload == t.payload → s.payload == p)
    (siblings : List (CallTree α)) : ∃ s ∈ insert siblings t, s.payload == p := by
  induction siblings with
  | nil => exact ⟨t, List.mem_cons_self, h⟩
  | cons s rest ih =>
    by_cases hs : s.payload == t.payload
    · rw [insert_cons_of_beq hs]
      exact ⟨s.absorb t, List.mem_cons_self, (payload_absorb s t).symm ▸ htrans s hs⟩
    · rw [insert_cons_of_ne hs]
      obtain ⟨u, hu, hup⟩ := ih
      exact ⟨u, List.mem_cons_of_mem _ hu, hup⟩

/-! ## Many trees among siblings -/

theorem absorbAll_eq_foldl (siblings cs : List (CallTree α)) :
    absorbAll siblings cs = cs.foldl insert siblings := by
  induction cs generalizing siblings with
  | nil => rw [absorbAll, List.foldl_nil]
  | cons c cs ih => rw [absorbAll, ih, List.foldl_cons, insert]

theorem foldl_insert_of_apart {siblings ts : List (CallTree α)} (h : Apart (siblings ++ ts)) :
    ts.foldl insert siblings = siblings ++ ts := by
  induction ts generalizing siblings with
  | nil => simp
  | cons t ts ih =>
    have hlast : insert siblings t = siblings ++ [t] :=
      settle_eq_append fun s hs => (List.pairwise_append.mp h).2.2 s hs t List.mem_cons_self
    rw [List.append_cons] at h
    rw [List.foldl_cons, hlast, ih h, List.append_cons siblings t ts]

theorem Apart.foldl_insert {ts : List (CallTree α)} (h : Apart ts) :
    ts.foldl CallTree.insert [] = ts :=
  foldl_insert_of_apart h

section Steps

variable [PartialEquivBEq α] {b c : CallTree α} {as bs : List (CallTree α)}

/-- Equal payloads can be merged before insertion. -/
theorem insert_insert_of_beq (h : b.payload == c.payload)
    (hassoc : ∀ a ∈ as, (a.absorb b).absorb c = a.absorb (b.absorb c)) :
    insert (insert as b) c = insert as (b.absorb c) := by
  have hbc : ∀ a : CallTree α, a.payload == (b.absorb c).payload ↔ a.payload == b.payload := by
    simp
  induction as with
  | nil => exact insert_cons_of_beq h []
  | cons a as ih =>
    obtain ⟨ha, has⟩ := List.forall_mem_cons.mp hassoc
    by_cases hab : a.payload == b.payload
    · have hac : (a.absorb b).payload == c.payload := by
        rw [payload_absorb]; exact BEq.trans hab h
      rw [insert_cons_of_beq hab, insert_cons_of_beq hac, insert_cons_of_beq ((hbc a).mpr hab), ha]
    · have hac : ¬a.payload == c.payload := fun hac => hab (BEq.trans hac (BEq.symm h))
      rw [insert_cons_of_ne hab, insert_cons_of_ne hac,
        insert_cons_of_ne (mt (hbc a).mp hab), ih has]

/-- Insertions of different payloads commute if one of them is present. -/
theorem insert_insert_comm (h : ¬b.payload == c.payload) (hc : ∃ a ∈ as, a.payload == c.payload) :
    insert (insert as b) c = insert (insert as c) b := by
  induction as with
  | nil => simp at hc
  | cons a as ih =>
    by_cases hac : a.payload == c.payload
    · have hab : ¬a.payload == b.payload := fun hab => h (BEq.trans (BEq.symm hab) hac)
      have hjoined : ¬(a.absorb c).payload == b.payload := by rwa [payload_absorb]
      rw [insert_cons_of_ne hab, insert_cons_of_beq hac, insert_cons_of_beq hac,
        insert_cons_of_ne hjoined]
    · obtain ⟨d, hd, hdc⟩ := hc
      have hrest : ∃ d ∈ as, d.payload == c.payload := by
        rcases List.mem_cons.mp hd with rfl | hd
        · exact absurd hdc hac
        · exact ⟨d, hd, hdc⟩
      by_cases hab : a.payload == b.payload
      · have hjoined : ¬(a.absorb b).payload == c.payload := by rwa [payload_absorb]
        rw [insert_cons_of_beq hab, insert_cons_of_ne hjoined, insert_cons_of_ne hac,
          insert_cons_of_beq hab]
      · rw [insert_cons_of_ne hab, insert_cons_of_ne hac, insert_cons_of_ne hac,
          insert_cons_of_ne hab, ih hrest]

theorem insert_absorbAll_comm (h : ∀ b ∈ bs, ¬b.payload == c.payload)
    (hc : ∃ a ∈ as, a.payload == c.payload) :
    insert (absorbAll as bs) c = absorbAll (insert as c) bs := by
  induction bs generalizing as with
  | nil => rw [absorbAll, absorbAll]
  | cons b bs ih =>
    obtain ⟨hb, hbs⟩ := List.forall_mem_cons.mp h
    rw [absorbAll, absorbAll, ← insert, ← insert, ih hbs (exists_mem_insert b hc),
      insert_insert_comm hb hc]

/-- `insert` commutes with `absorbAll` on the right. -/
theorem insert_absorbAll (has : ∀ a ∈ as, a.Sound) (hbs : ∀ b ∈ bs, b.Sound)
    (hdistinct : DistinctAll bs)
    (hassoc : ∀ a b : CallTree α, a.Sound → b.Sound → b.Distinct →
      (a.absorb b).absorb c = a.absorb (b.absorb c)) :
    insert (absorbAll as bs) c = absorbAll as (insert bs c) := by
  induction bs generalizing as with
  | nil =>
    have hnil : insert [] c = [c] := rfl
    rw [absorbAll, hnil, absorbAll, absorbAll, ← insert]
  | cons b bs ih =>
    obtain ⟨hb, hbs⟩ := List.forall_mem_cons.mp hbs
    obtain ⟨hbd, hne, hdistinct⟩ := hdistinct.cons
    by_cases hbc : b.payload == c.payload
    -- `c` joins `b`, and no later tree gets in between, since siblings are apart
    · have hlater : ∀ d ∈ bs, ¬d.payload == c.payload := fun d hd hdc =>
        hne d hd (BEq.trans hbc (BEq.symm hdc))
      have hplace : ∃ a ∈ insert as b, a.payload == c.payload :=
        exists_mem_insert_self hbc (fun s hs => BEq.trans hs hbc) as
      rw [insert_cons_of_beq hbc, absorbAll, absorbAll, ← insert, ← insert,
        insert_absorbAll_comm hlater hplace,
        insert_insert_of_beq hbc fun a ha => hassoc a b (has a ha) hb hbd]
    · rw [insert_cons_of_ne hbc, absorbAll, absorbAll, ← insert,
        ih (sound_insert has hb) hbs hdistinct]

end Steps

/-! ## Extra sets among extra sets -/

/-- Conses a set, dropping an empty last one. -/
def consSet (x : List (CallTree α)) (xs : List (List (CallTree α))) : List (List (CallTree α)) :=
  match x, xs with
  | [], [] => []
  | set, sets => set :: sets

theorem absorbSets_nil_cons (y : List (CallTree α)) (ys : List (List (CallTree α))) :
    absorbSets [] (y :: ys) = consSet (absorbAll [] y) (absorbSets [] ys) := by
  rw [absorbSets]
  rfl

theorem absorbSets_cons_consSet (x y : List (CallTree α)) (xs ys : List (List (CallTree α))) :
    absorbSets (x :: xs) (consSet y ys) = absorbAll x y :: absorbSets xs ys := by
  cases y <;> cases ys <;> simp [consSet, absorbSets, absorbAll]

theorem absorbSets_nil_consSet (y : List (CallTree α)) (ys : List (List (CallTree α))) :
    absorbSets [] (consSet y ys) = consSet (absorbAll [] y) (absorbSets [] ys) := by
  cases y <;> cases ys <;> simp [consSet, absorbSets_nil_cons, absorbSets, absorbAll]

theorem insert_ne_nil (siblings : List (CallTree α)) (t : CallTree α) : insert siblings t ≠ [] := by
  rw [insert]
  cases siblings with
  | nil => exact List.cons_ne_nil _ _
  | cons s rest => unfold settle; split <;> exact List.cons_ne_nil _ _

theorem absorbAll_eq_nil {siblings cs : List (CallTree α)} (h : absorbAll siblings cs = []) :
    siblings = [] := by
  induction cs generalizing siblings with
  | nil => rwa [absorbAll] at h
  | cons c cs ih =>
    rw [absorbAll] at h
    exact absurd (ih h) (insert_ne_nil siblings c)

theorem absorbSets_eq_nil {xs ys : List (List (CallTree α))} (h : absorbSets xs ys = []) :
    xs = [] := by
  cases xs with
  | nil => rfl
  | cons x xs => cases ys <;> simp [absorbSets] at h

theorem absorbSets_consSet_cons (x y : List (CallTree α)) (xs ys : List (List (CallTree α))) :
    absorbSets (consSet x xs) (y :: ys) = consSet (absorbAll x y) (absorbSets xs ys) := by
  cases x with
  | nil =>
    cases xs with
    | nil => exact absorbSets_nil_cons y ys
    | cons x' xs =>
      have hne : absorbSets (x' :: xs) ys ≠ [] := fun h =>
        List.cons_ne_nil _ _ (absorbSets_eq_nil h)
      obtain ⟨z, zs, hz⟩ := List.exists_cons_of_ne_nil hne
      simp only [consSet, absorbSets, hz]
      cases absorbAll [] y <;> rfl
  | cons t x =>
    have hne : absorbAll (t :: x) y ≠ [] := fun h => List.cons_ne_nil _ _ (absorbAll_eq_nil h)
    obtain ⟨z, zs, hz⟩ := List.exists_cons_of_ne_nil hne
    simp only [consSet, absorbSets, hz]

/-! ## Associativity -/

omit [BEq α] in
theorem eq_of_parts {s t : CallTree α} (hp : s.payload = t.payload) (hw : s.weight = t.weight)
    (hh : s.height = t.height) (hcs : s.children = t.children) (hxs : s.extras = t.extras) :
    s = t := by
  obtain ⟨p, w, h, cs, xs⟩ := s
  obtain ⟨p', w', h', cs', xs'⟩ := t
  cases hp; cases hw; cases hh; cases hcs; cases hxs
  rfl

theorem weight_absorb (s t : CallTree α) :
    (s.absorb t).weight = satAdd s.weight (max t.weight 0) := by
  obtain ⟨p, w, h, cs, xs⟩ := t
  rfl

theorem children_absorb (s t : CallTree α) :
    (s.absorb t).children = absorbAll s.children t.children := by
  obtain ⟨p, w, h, cs, xs⟩ := t
  rfl

theorem extras_absorb (s t : CallTree α) :
    (s.absorb t).extras = absorbSets s.extras t.extras := by
  obtain ⟨p, w, h, cs, xs⟩ := t
  rfl

mutual

/-- `absorb` is associative. -/
theorem absorb_assoc [PartialEquivBEq α] {s t : CallTree α} (hs : s.Sound) (ht : t.Sound)
    (hd : t.Distinct) : ∀ {u : CallTree α}, u.Sound → u.Distinct →
      (s.absorb t).absorb u = s.absorb (t.absorb u)
  | .node p w h cs xs, hu, hud => by
    have hsw := hs.weight_nonneg
    have htw := ht.weight_nonneg
    have huw := hu.weight_nonneg
    refine eq_of_parts (by simp only [payload_absorb]) ?_ ?_ ?_ ?_
    · have hsum := satAdd_nonneg htw huw
      simp only [weight_absorb]
      rw [Int.max_eq_left htw, Int.max_eq_left huw, Int.max_eq_left hsum, satAdd_assoc hsw htw huw]
    · have hst := (hs.absorb ht).height_pos
      rw [height_absorb hst hu, height_absorb hs.height_pos ht,
        height_absorb hs.height_pos (ht.absorb hu), height_absorb ht.height_pos hu, Nat.max_assoc]
    · simp only [children_absorb]
      show absorbAll (absorbAll s.children t.children) cs =
        absorbAll s.children (absorbAll t.children cs)
      exact absorbAll_assoc hs.children ht.children hd.children hu.children
        hud.children.trees
    · simp only [extras_absorb]
      show absorbSets (absorbSets s.extras t.extras) xs =
        absorbSets s.extras (absorbSets t.extras xs)
      exact absorbSets_assoc hs.extras ht.extras hd.extras hu.extras
        fun x hx => (hud.extras x hx).trees

theorem absorbAll_assoc [PartialEquivBEq α] {as bs : List (CallTree α)}
    (has : ∀ a ∈ as, a.Sound) (hbs : ∀ b ∈ bs, b.Sound) (hd : DistinctAll bs) :
    ∀ {cs : List (CallTree α)}, (∀ c ∈ cs, c.Sound) → (∀ c ∈ cs, c.Distinct) →
      absorbAll (absorbAll as bs) cs = absorbAll as (absorbAll bs cs)
  | [], _, _ => by rw [absorbAll, absorbAll]
  | c :: cs, hcs, hcd => by
    obtain ⟨hc, hcs⟩ := List.forall_mem_cons.mp hcs
    obtain ⟨hdc, hcd⟩ := List.forall_mem_cons.mp hcd
    have hone : insert (absorbAll as bs) c = absorbAll as (insert bs c) :=
      insert_absorbAll has hbs hd fun a b ha hb hbd => absorb_assoc ha hb hbd hc hdc
    have hrest := absorbAll_assoc has (sound_insert hbs hc) (hd.insert hdc) hcs hcd
    rw [absorbAll, absorbAll, ← insert, ← insert, hone, hrest]

theorem absorbSets_assoc [PartialEquivBEq α] {xs ys : List (List (CallTree α))}
    (hxs : ∀ x ∈ xs, ∀ t ∈ x, t.Sound) (hys : ∀ y ∈ ys, ∀ t ∈ y, t.Sound)
    (hd : ∀ y ∈ ys, DistinctAll y) :
    ∀ {zs : List (List (CallTree α))}, (∀ z ∈ zs, ∀ t ∈ z, t.Sound) →
      (∀ z ∈ zs, ∀ t ∈ z, t.Distinct) →
      absorbSets (absorbSets xs ys) zs = absorbSets xs (absorbSets ys zs)
  | [], _, _ => by simp only [absorbSets]
  | z :: zs, hzs, hzd => by
    obtain ⟨hz, hzs⟩ := List.forall_mem_cons.mp hzs
    obtain ⟨hdz, hzd⟩ := List.forall_mem_cons.mp hzd
    have hset : ∀ t ∈ ([] : List (CallTree α)), t.Sound := by simp
    have hsets : ∀ x ∈ ([] : List (List (CallTree α))), ∀ t ∈ x, t.Sound := by simp
    cases ys with
    | nil =>
      cases xs with
      | nil =>
        have hfirst := absorbAll_assoc hset hset .nil hz hdz
        have hrest := absorbSets_assoc hsets hsets (by simp) hzs hzd
        simp only [absorbAll, absorbSets] at hfirst hrest
        rw [absorbSets, absorbSets_nil_cons, absorbSets_nil_consSet, ← hfirst, ← hrest]
      | cons x xs =>
        obtain ⟨hx, hxs⟩ := List.forall_mem_cons.mp hxs
        have hfirst := absorbAll_assoc hx hset .nil hz hdz
        have hrest := absorbSets_assoc hxs hsets (by simp) hzs hzd
        simp only [absorbAll, absorbSets] at hfirst hrest
        rw [absorbSets_nil_cons, absorbSets_cons_consSet, ← hfirst, ← hrest, absorbSets, absorbSets]
    | cons y ys =>
      obtain ⟨hy, hys⟩ := List.forall_mem_cons.mp hys
      obtain ⟨hdy, hd⟩ := List.forall_mem_cons.mp hd
      cases xs with
      | nil =>
        have hfirst := absorbAll_assoc hset hy hdy hz hdz
        have hrest := absorbSets_assoc hsets hys hd hzs hzd
        rw [absorbSets_nil_cons, absorbSets_consSet_cons, absorbSets, absorbSets_nil_cons, ← hfirst,
          ← hrest]
      | cons x xs =>
        obtain ⟨hx, hxs⟩ := List.forall_mem_cons.mp hxs
        have hfirst := absorbAll_assoc hx hy hdy hz hdz
        have hrest := absorbSets_assoc hxs hys hd hzs hzd
        simp only [absorbSets, hfirst, hrest]

end

/-- Inserting the trees of a merged list is inserting those of the list. -/
theorem foldl_insert_merged [PartialEquivBEq α] {as ts : List (CallTree α)}
    (has : ∀ a ∈ as, a.Sound) (hts : ∀ t ∈ ts, t.Proper) :
    (ts.foldl insert []).foldl insert as = ts.foldl insert as := by
  have hnil : ∀ t ∈ ([] : List (CallTree α)), t.Sound := by simp
  have h := absorbAll_assoc has hnil .nil (fun t ht => (hts t ht).sound)
    fun t ht => (hts t ht).distinct
  rw [absorbAll] at h
  simpa only [absorbAll_eq_foldl] using h.symm

end CallTree

end StackProfile
