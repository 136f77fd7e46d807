import StackProfile.Frame
import StackProfile.Proofs.GrownTree
import StackProfile.Proofs.Reordered

/-!
# Laws of merging

`absorb` on grown trees of one payload: associative, commutative up to `Reordered`, with neutral
leaf, and additive on weights at paths.
-/

namespace StackProfile

namespace CallTree

variable {α : Type} [BEq α]

/-! ## Siblings by payload -/

section Lookup

variable [PartialEquivBEq α] {as bs : List (CallTree α)} {b : CallTree α} {f : α}

theorem find?_insert : ((insert as b).find? fun t => t.payload == f) =
    if b.payload == f then Option.merge absorb (as.find? fun t => t.payload == f) (some b)
    else as.find? fun t => t.payload == f := by
  induction as with
  | nil =>
    rw [insert, settle, List.find?_nil]
    by_cases hb : b.payload == f <;> simp [hb]
  | cons a as ih =>
    by_cases hab : a.payload == b.payload
    · have hiff : (a.payload == f) = (b.payload == f) := BEq.congr_left hab
      rw [insert_cons_of_beq hab]
      by_cases hb : b.payload == f <;> simp [hiff, hb]
    · rw [insert_cons_of_ne hab, List.find?_cons, List.find?_cons, ih]
      by_cases ha : a.payload == f
      · have hb : ¬b.payload == f := fun hb => hab (BEq.trans ha (BEq.symm hb))
        simp [ha, hb]
      · simp [ha]

/-- `find?` after `absorbAll` merges what `find?` gives on both sides. -/
theorem find?_absorbAll (h : Apart bs) : ((absorbAll as bs).find? fun t => t.payload == f) =
    Option.merge absorb (as.find? fun t => t.payload == f) (bs.find? fun t => t.payload == f) := by
  induction bs generalizing as with
  | nil => simp [absorbAll]
  | cons b bs ih =>
    obtain ⟨hne, hbs⟩ := List.pairwise_cons.mp h
    rw [absorbAll, ← insert, ih hbs, find?_insert]
    by_cases hb : b.payload == f
    · have hnone : (bs.find? fun t => t.payload == f) = none :=
        List.find?_eq_none.mpr fun d hd hdf => hne d hd (BEq.trans hb (BEq.symm hdf))
      simp [hb, hnone]
    · simp [hb]

end Lookup

/-! ## The neutral tree -/

section Neutral

variable {t : CallTree α}

/-- `leaf` is neutral on the left. -/
theorem leaf_absorb (h : t.Tended True) : (leaf t.payload 0).absorb t = t := by
  have hdistinct := h.distinct trivial
  have hweight := h.sound.weight_nonneg
  refine eq_of_parts (payload_absorb _ _) ?_ ?_ ?_ ?_
  · have hzero : (leaf t.payload 0).weight = 0 := rfl
    rw [weight_absorb, Int.max_eq_left hweight, hzero, satAdd_comm,
      satAdd_zero hweight h.sound.weight_le]
  · rw [height_absorb le_rfl h.sound]
    exact Nat.max_eq_right h.sound.height_pos
  · rw [children_absorb]
    show absorbAll [] t.children = t.children
    rw [absorbAll_eq_foldl, hdistinct.children.apart.foldl_insert]
  · rw [extras_absorb]
    exact absorbSets_nil_left h.trimmed.trim fun x hx => (hdistinct.extras x hx).apart

theorem absorb_leaf (h : t.Sound) (p : α) : t.absorb (leaf p 0) = t := by
  refine eq_of_parts (payload_absorb _ _) ?_ ?_ ?_ ?_
  · rw [weight_absorb]
    exact satAdd_zero h.weight_nonneg h.weight_le
  · rw [height_absorb h.height_pos (sound_leaf p maxTime_pos.le)]
    exact Nat.max_eq_left h.height_pos
  · rw [children_absorb]
    exact absorbAll.eq_1 _
  · rw [extras_absorb]
    exact absorbSets.eq_1 _

end Neutral

/-! ## The order of merging -/

section Order

variable [LawfulBEq α]

/-- Commutation lifts from trees to siblings. -/
theorem reorderedAll_absorbAll_comm {as bs : List (CallTree α)} (has : TendedAll True as)
    (hbs : TendedAll True bs)
    (hcomm : ∀ a ∈ as, ∀ b, b.Tended True → a.payload = b.payload →
      (a.absorb b).Reordered (b.absorb a)) :
    ReorderedAll (absorbAll as bs) (absorbAll bs as) := by
  refine reorderedAll_of_find? (has.distinct.absorbAll hbs.distinct.trees).apart
    (hbs.distinct.absorbAll has.distinct.trees).apart fun f => ?_
  rw [find?_absorbAll hbs.apart, find?_absorbAll has.apart]
  cases ha : as.find? fun t => t.payload == f with
  | none =>
    cases hb : bs.find? fun t => t.payload == f with
    | none => exact .none
    | some b => exact .some (hbs.trees b (List.mem_of_find?_eq_some hb)).sound.reordered_refl
  | some a =>
    have hmem := List.mem_of_find?_eq_some ha
    cases hb : bs.find? fun t => t.payload == f with
    | none => exact .some (has.trees a hmem).sound.reordered_refl
    | some b =>
      have hp : a.payload = b.payload :=
        (beq_iff_eq.mp (List.find?_some ha :)).trans (beq_iff_eq.mp (List.find?_some hb :)).symm
      exact .some (hcomm a hmem b (hbs.trees b (List.mem_of_find?_eq_some hb)) hp)

omit [LawfulBEq α] in
theorem forall₂_reorderedAll_refl {xs : List (List (CallTree α))}
    (h : ∀ x ∈ xs, TendedAll True x) : List.Forall₂ ReorderedAll xs xs :=
  List.forall₂_same.mpr fun x hx => .refl fun t ht => ((h x hx).trees t ht).sound

theorem reorderedAll_absorbSets_comm {xs ys : List (List (CallTree α))} (hx : TrimSets xs)
    (hxs : ∀ x ∈ xs, TendedAll True x) (hy : TrimSets ys) (hys : ∀ y ∈ ys, TendedAll True y)
    (hcomm : ∀ x ∈ xs, ∀ a ∈ x, ∀ b, b.Tended True → a.payload = b.payload →
      (a.absorb b).Reordered (b.absorb a)) :
    List.Forall₂ ReorderedAll (absorbSets xs ys) (absorbSets ys xs) := by
  induction xs generalizing ys with
  | nil =>
    rw [absorbSets_nil_left hy fun y hmem => (hys y hmem).apart, absorbSets]
    exact forall₂_reorderedAll_refl hys
  | cons x xs ih =>
    cases ys with
    | nil =>
      rw [absorbSets_nil_left hx fun x hmem => (hxs x hmem).apart, absorbSets]
      exact forall₂_reorderedAll_refl hxs
    | cons y ys =>
      obtain ⟨hx1, hxs⟩ := List.forall_mem_cons.mp hxs
      obtain ⟨hy1, hys⟩ := List.forall_mem_cons.mp hys
      obtain ⟨hcomm1, hcomm⟩ := List.forall_mem_cons.mp hcomm
      rw [absorbSets, absorbSets]
      exact .cons (reorderedAll_absorbAll_comm hx1 hy1 hcomm1)
        (ih (trimSets_cons.mp hx).2 hxs (trimSets_cons.mp hy).2 hys hcomm)

/-- `absorb` is commutative up to `Reordered`. -/
theorem reordered_absorb_comm {s t : CallTree α} (hs : s.Tended True) (ht : t.Tended True)
    (hp : s.payload = t.payload) : (s.absorb t).Reordered (t.absorb s) := by
  obtain ⟨hsound, htrimmed, hdistinct⟩ := hs
  induction hsound generalizing t with
  | @node p w h cs xs h0 h1 hh hcs hxs ihcs ihxs =>
    set s := CallTree.node p w h cs xs
    have hs : s.Tended True := ⟨.node h0 h1 hh hcs hxs, htrimmed, hdistinct⟩
    refine .of_parts ?_ ?_ ?_ ?_ ?_
    · rw [payload_absorb, payload_absorb, hp]
    · rw [weight_absorb, weight_absorb, Int.max_eq_left ht.sound.weight_nonneg,
        Int.max_eq_left hs.sound.weight_nonneg, satAdd_comm]
    · rw [height_absorb hs.sound.height_pos ht.sound, height_absorb ht.sound.height_pos hs.sound,
        Nat.max_comm]
    · rw [children_absorb, children_absorb]
      refine reorderedAll_absorbAll_comm hs.children ht.children fun a ha b hb hab => ?_
      have hta := hs.children.trees a ha
      exact ihcs a ha hb hab hta.trimmed hta.distinct
    · rw [extras_absorb, extras_absorb]
      refine reorderedAll_absorbSets_comm hs.trimmed.trim hs.extras ht.trimmed.trim ht.extras
        fun x hx a ha b hb hab => ?_
      have hta := (hs.extras x hx).trees a ha
      exact ihxs x hx a ha hb hab hta.trimmed hta.distinct

end Order

/-! ## Weights at paths -/

section Paths

def weightAt (path : List α) (t : CallTree α) : Int :=
  ((nodesAt path [t]).head?.map weight).getD 0

theorem TendedAll.singleton {t : CallTree α} (h : t.Tended True) : TendedAll True [t] :=
  ⟨List.pairwise_singleton _ _, List.forall_mem_singleton.mpr h⟩

variable [PartialEquivBEq α]

theorem weightAt_eq {t : CallTree α} (h : t.Tended True) (path : List α) :
    weightAt path t = (tallyAt path [t]).getD 0 := by
  have hone := length_nodesAt_le path (TendedAll.singleton h).distinct
  have hsound : ∀ n ∈ nodesAt path [t], n.Sound :=
    sound_nodesAt (List.forall_mem_singleton.mpr h.sound)
  rw [weightAt, tallyAt]
  match hn : nodesAt path [t] with
  | [] => rfl
  | [n] =>
    have hsound : n.Sound := hsound n (hn ▸ List.mem_singleton_self n)
    rw [List.map_singleton, tally_weight hsound.weight_nonneg hsound.weight_le]
    rfl
  | n :: m :: ns => simp [hn] at hone

/-- Weights at a path add up, saturated. -/
theorem weightAt_absorb {s t : CallTree α} (hs : s.Tended True) (ht : t.Tended True)
    (hp : s.payload == t.payload) (path : List α) :
    weightAt path (s.absorb t) = min maxTime (weightAt path s + weightAt path t) := by
  rw [weightAt_eq (hs.absorb ht), weightAt_eq hs, weightAt_eq ht,
    tallyAt_absorb hs.sound ht.sound hp path, tallyAt, nodesAt_cons, List.map_append, getD_tally,
    weightSum_append, tallyAt, getD_tally, tallyAt, getD_tally]
  have hs0 := weightSum_nonneg ((nodesAt path [s]).map weight)
  have ht0 := weightSum_nonneg ((nodesAt path [t]).map weight)
  have hmax := maxTime_pos
  omega

end Paths

end CallTree

/-- Grown trees of one payload are a commutative monoid under `absorb`: associative, commutative up
to `Reordered`, with `leaf` neutral. Weights at each path add up, saturated. -/
theorem merging_is_commutative_monoid {a b c : CallTree Frame} (ha : Grown True (.tree a))
    (hb : Grown True (.tree b)) (hc : Grown True (.tree c)) (hab : a.payload = b.payload)
    (hbc : b.payload = c.payload) :
    (∃ ab bc abc, a.merge b = .ok ab ∧ b.merge c = .ok bc ∧
      ab.merge c = .ok abc ∧ a.merge bc = .ok abc) ∧
    (∃ ab ba, a.merge b = .ok ab ∧ b.merge a = .ok ba ∧ ab.Reordered ba) ∧
    (a.merge (.leaf a.payload 0) = .ok a ∧ (CallTree.leaf a.payload 0).merge a = .ok a) ∧
    ∃ ab, a.merge b = .ok ab ∧ ∀ path, ab.weightAt path =
      min maxTime (a.weightAt path + b.weightAt path) := by
  have ha : a.Tended True := ha.tended
  have hb : b.Tended True := hb.tended
  have hc : c.Tended True := hc.tended
  have hassoc : (a.absorb b).absorb c = a.absorb (b.absorb c) :=
    CallTree.absorb_assoc ha.sound hb.sound (hb.distinct trivial) hc.sound (hc.distinct trivial)
  have hleaf : (CallTree.leaf a.payload 0).payload = a.payload := rfl
  have hmerge : a.merge b = .ok (a.absorb b) := CallTree.merge_of_eq hab
  refine ⟨⟨_, _, (a.absorb b).absorb c, hmerge, CallTree.merge_of_eq hbc, ?_, ?_⟩,
    ⟨_, _, hmerge, CallTree.merge_of_eq hab.symm, ?_⟩, ⟨?_, ?_⟩, ⟨_, hmerge, ?_⟩⟩
  · exact CallTree.merge_of_eq (by rw [CallTree.payload_absorb, hab, hbc])
  · rw [CallTree.merge_of_eq (by rw [CallTree.payload_absorb, hab]), hassoc]
  · exact CallTree.reordered_absorb_comm ha hb hab
  · rw [CallTree.merge_of_eq hleaf.symm, CallTree.absorb_leaf ha.sound]
  · rw [CallTree.merge_of_eq hleaf, CallTree.leaf_absorb ha]
  · exact CallTree.weightAt_absorb ha hb (beq_iff_eq.mpr hab)

/-- Children and extra sets in common at different places, and a weight that saturates. -/
theorem merging_is_commutative_monoid_draw :
    let node (name : Frame) (weight : Int) : CallTree Frame := .leaf name weight
    let a := ((node "main" 5).graft (node "draw" 3)).graftExtra 1 (node "wait" 2)
    let b := ((node "main" maxTime).graft (node "read" 1)).graft (node "draw" 4)
    let c := (node "main" 2).graftExtra 0 (node "idle" 1)
    (Grown True (.tree a) ∧ Grown True (.tree b) ∧ Grown True (.tree c) ∧
      a.payload = b.payload ∧ b.payload = c.payload) ∧
    (∃ ab bc abc, a.merge b = .ok ab ∧ b.merge c = .ok bc ∧
      ab.merge c = .ok abc ∧ a.merge bc = .ok abc) ∧
    (∃ ab ba, a.merge b = .ok ab ∧ b.merge a = .ok ba ∧ ab.Reordered ba ∧
      ab.children.map CallTree.payload = ["draw", "read"] ∧
      ba.children.map CallTree.payload = ["read", "draw"]) ∧
    ∃ ab, a.merge b = .ok ab ∧ ab.weightAt [("main" : Frame), "draw"] = 7 ∧
      ab.weightAt [("main" : Frame)] = maxTime := by
  intro node a b c
  have hnode (name : Frame) {weight : Int} (h : weight ≤ maxTime) :
      Grown True (.tree (node name weight)) := .leaf name h
  have ha : Grown True (.tree a) :=
    .graftExtra 1 (.graft (hnode _ (by decide)) (hnode _ (by decide))) (hnode _ (by decide))
  have hb : Grown True (.tree b) :=
    .graft (.graft (hnode _ (by decide)) (hnode _ (by decide))) (hnode _ (by decide))
  have hc : Grown True (.tree c) := .graftExtra 0 (hnode _ (by decide)) (hnode _ (by decide))
  obtain ⟨hassoc, ⟨ab, ba, hab, hba, hreordered⟩, -, hweights⟩ :=
    merging_is_commutative_monoid ha hb hc rfl rfl
  refine ⟨⟨ha, hb, hc, rfl, rfl⟩, hassoc, ⟨ab, ba, hab, hba, hreordered, ?_, ?_⟩, ?_⟩
  · cases hab; decide
  · cases hba; decide
  · obtain ⟨ab, hab, hpath⟩ := hweights
    exact ⟨ab, hab, (hpath ["main", "draw"]).trans (by decide),
      (hpath ["main"]).trans (by decide)⟩

end StackProfile
