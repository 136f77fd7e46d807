import Mathlib.Data.List.Forall2
import StackProfile.Proofs.SameWeights

/-!
# Reordered trees

`Reordered` is equality up to the order of children and of members of extra sets. Apart siblings are
reordered if lookup by payload agrees, and reordered trees without ties are alike.
-/

namespace StackProfile

namespace CallTree

variable {α : Type}

/-- Equal up to the order of children and of members of extra sets, hereditarily. -/
inductive Reordered : CallTree α → CallTree α → Prop where
  | node {p : α} {w : Int} {h : Nat} {cs ds cs' : List (CallTree α)}
      {xs ys xs' : List (List (CallTree α))}
      (children : List.Forall₂ Reordered cs ds) (order : ds.Perm cs')
      (extras : List.Forall₂ (List.Forall₂ Reordered) xs ys)
      (orders : List.Forall₂ List.Perm ys xs') :
      Reordered (.node p w h cs xs) (.node p w h cs' xs')

def ReorderedAll (ts ts' : List (CallTree α)) : Prop :=
  ∃ us, List.Forall₂ Reordered ts us ∧ us.Perm ts'

namespace Reordered

variable {t t' : CallTree α}

theorem payload (h : t.Reordered t') : t.payload = t'.payload := by cases h; rfl

theorem weight (h : t.Reordered t') : t.weight = t'.weight := by cases h; rfl

theorem children (h : t.Reordered t') : ReorderedAll t.children t'.children := by
  cases h with
  | node children order => exact ⟨_, children, order⟩

theorem of_parts (hp : t.payload = t'.payload) (hw : t.weight = t'.weight)
    (hh : t.height = t'.height) (hcs : ReorderedAll t.children t'.children)
    (hxs : List.Forall₂ ReorderedAll t.extras t'.extras) : t.Reordered t' := by
  obtain ⟨p, w, h, cs, xs⟩ := t
  obtain ⟨p', w', h', cs', xs'⟩ := t'
  cases hp; cases hw; cases hh
  obtain ⟨ds, hcs, horder⟩ := hcs
  obtain ⟨ys, hextras, horders⟩ : ∃ ys, List.Forall₂ (List.Forall₂ Reordered) xs ys ∧
      List.Forall₂ List.Perm ys xs' := by
    change List.Forall₂ ReorderedAll xs xs' at hxs
    clear hcs horder
    induction hxs with
    | nil => exact ⟨[], .nil, .nil⟩
    | cons hx _ ih =>
      obtain ⟨y, hy, hperm⟩ := hx
      obtain ⟨ys, hys, hperms⟩ := ih
      exact ⟨y :: ys, .cons hy hys, .cons hperm hperms⟩
  exact .node hcs horder hextras horders

end Reordered

theorem Sound.reordered_refl {t : CallTree α} (h : t.Sound) : t.Reordered t := by
  induction h with
  | node _ _ _ _ _ hcs hxs =>
    refine .node (List.forall₂_same.mpr hcs) (.refl _) (List.forall₂_same.mpr fun x hx => ?_)
      (List.forall₂_same.mpr fun x _ => .refl x)
    exact List.forall₂_same.mpr (hxs x hx)

/-! ## Reordered siblings -/

namespace ReorderedAll

variable {ts ts' us us' : List (CallTree α)}

theorem nil : ReorderedAll ([] : List (CallTree α)) [] := ⟨[], .nil, .nil⟩

theorem cons {t t' : CallTree α} (ht : t.Reordered t') (hts : ReorderedAll ts ts') :
    ReorderedAll (t :: ts) (t' :: ts') := by
  obtain ⟨us, hus, hperm⟩ := hts
  exact ⟨t' :: us, .cons ht hus, hperm.cons t'⟩

theorem trans_perm (h : ReorderedAll ts us) (hperm : us.Perm us') : ReorderedAll ts us' := by
  obtain ⟨vs, hvs, hvus⟩ := h
  exact ⟨vs, hvs, hvus.trans hperm⟩

theorem refl (h : ∀ t ∈ ts, t.Sound) : ReorderedAll ts ts :=
  ⟨ts, List.forall₂_same.mpr fun t ht => (h t ht).reordered_refl, .refl _⟩

theorem exists_mem (h : ReorderedAll ts ts') {t' : CallTree α} (ht' : t' ∈ ts') :
    ∃ t ∈ ts, t.Reordered t' := by
  obtain ⟨us, hus, hperm⟩ := h
  have hmem := hperm.mem_iff.mpr ht'
  clear hperm ht'
  induction hus with
  | nil => cases hmem
  | @cons s u _ _ hs _ ih =>
    rcases List.mem_cons.mp hmem with rfl | hmem
    · exact ⟨s, List.mem_cons_self, hs⟩
    · obtain ⟨t, ht, hrel⟩ := ih hmem
      exact ⟨t, List.mem_cons_of_mem _ ht, hrel⟩

end ReorderedAll

/-! ## Siblings that are apart -/

section Apart

variable [BEq α] [LawfulBEq α] {ss ts : List (CallTree α)}

theorem apart_iff_nodup : Apart ts ↔ (ts.map CallTree.payload).Nodup := by
  simp [Apart, List.Nodup, List.pairwise_map]

theorem find?_payload_eq_none {f : α} (h : f ∉ ts.map CallTree.payload) :
    (ts.find? fun t => t.payload == f) = none := by
  simpa using fun t ht hf => h (List.mem_map.mpr ⟨t, ht, hf⟩)

/-- Siblings that are apart are reordered if `find?` agrees up to `Reordered`. -/
theorem reorderedAll_of_find? (hs : Apart ss) (ht : Apart ts)
    (h : ∀ f, Option.Rel Reordered (ss.find? fun s => s.payload == f)
      (ts.find? fun t => t.payload == f)) : ReorderedAll ss ts := by
  induction ss generalizing ts with
  | nil =>
    cases ts with
    | nil => exact .nil
    | cons t ts => simpa using h t.payload
  | cons s ss ih =>
    have hfirst := h s.payload
    rw [List.find?_cons_of_pos (by simp)] at hfirst
    cases hfound : ts.find? fun t => t.payload == s.payload with
    | none => simp [hfound] at hfirst
    | some t =>
      rw [hfound, Option.rel_some_some] at hfirst
      obtain ⟨-, before, after, rfl, -⟩ := List.find?_eq_some_iff_append.mp hfound
      have hmoved : (t :: (before ++ after)).Perm (before ++ t :: after) := List.perm_middle.symm
      have hnodup := (hmoved.map CallTree.payload).nodup_iff.mpr (apart_iff_nodup.mp ht)
      obtain ⟨hnew, hrest⟩ := List.nodup_cons.mp hnodup
      obtain ⟨hnew', hss⟩ := List.nodup_cons.mp (apart_iff_nodup.mp hs)
      refine ReorderedAll.trans_perm (.cons hfirst ?_) hmoved
      refine ih (apart_iff_nodup.mpr hss) (apart_iff_nodup.mpr hrest) fun f => ?_
      by_cases hf : s.payload = f
      · have hf' : t.payload = f := hfirst.payload.symm.trans hf
        rw [find?_payload_eq_none (hf ▸ hnew'), find?_payload_eq_none (hf' ▸ hnew)]
        exact .none
      · have hf' : t.payload ≠ f := hfirst.payload ▸ hf
        have hother := h f
        rwa [List.find?_cons_of_neg (by simpa using hf), List.find?_append,
          List.find?_cons_of_neg (by simpa using hf'), ← List.find?_append] at hother

end Apart

/-! ## Layout order -/

section Ordered

open Layout (ordered rank)

variable [ToString α]

theorem Reordered.rank_eq {t t' : CallTree α} (h : t.Reordered t') : rank t = rank t' := by
  rw [rank, rank, name, name, h.payload, h.weight]

theorem ReorderedAll.map_rank {ts ts' : List (CallTree α)} (h : ReorderedAll ts ts') :
    (ts.map rank).Perm (ts'.map rank) := by
  obtain ⟨us, hus, hperm⟩ := h
  have hranks : ts.map rank = us.map rank :=
    List.map_eq_map_iff_forall₂.mpr (hus.imp fun _ _ ht => ht.rank_eq)
  exact hranks ▸ hperm.map rank

/-- Layout order is unique without ties. -/
theorem ReorderedAll.forall₂_ordered (hinj : Function.Injective (toString : α → String))
    {ts ts' : List (CallTree α)} (h : ReorderedAll ts ts') (huntied : ts.Pairwise NoTie) :
    List.Forall₂ Reordered (ordered ts) (ordered ts') := by
  have hranks := List.map_eq_map_iff_forall₂.mp (Layout.map_rank_ordered h.map_rank)
  refine Layout.forall₂_ordered_imp hranks fun t ht t' ht' hrank => ?_
  obtain ⟨s, hs, hst'⟩ := h.exists_mem ht'
  have heq : s = t := List.inj_on_of_nodup_map (Layout.nodup_rank hinj huntied) hs ht
    (hst'.rank_eq.trans hrank.symm)
  exact heq ▸ hst'

theorem Reordered.alike (hinj : Function.Injective (toString : α → String)) {t t' : CallTree α}
    (ht : t.Sound) (ht' : t'.Sound) (h : t.Reordered t') (huntied : t.Siblings NoTie) :
    t.Alike t' := by
  induction huntied generalizing t' with
  | @node p w k cs xs hsiblings _ ih =>
    have hname : (CallTree.node p w k cs xs).name = t'.name := congrArg toString h.payload
    refine .of_children ht ht' hname h.weight ?_
    exact Layout.forall₂_ordered_imp (h.children.forall₂_ordered hinj hsiblings)
      fun c hc c' hc' hcc' => ih c hc (ht.children c hc) (ht'.children c' hc') hcc'

theorem ReorderedAll.alikeAll (hinj : Function.Injective (toString : α → String))
    {ts ts' : List (CallTree α)} (hts : ∀ t ∈ ts, t.Sound) (hts' : ∀ t ∈ ts', t.Sound)
    (h : ReorderedAll ts ts')
    (hsiblings : ts.Pairwise NoTie) (huntied : ∀ t ∈ ts, t.Siblings NoTie) : AlikeAll ts ts' :=
  Layout.forall₂_ordered_imp (h.forall₂_ordered hinj hsiblings) fun t ht t' ht' htt' =>
    htt'.alike hinj (hts t ht) (hts' t' ht') (huntied t ht)

end Ordered

end CallTree

end StackProfile
