import Mathlib.Data.String.Basic
import StackProfile.Frame
import StackProfile.Proofs.AlikeTree
import StackProfile.Proofs.PathWeight

/-!
# Forests of equal weights

Tidy forests with equal tallies at every path are alike: tallies determine distinct trees up to the
order of siblings, and layout order is determined by `rank`.
-/

namespace StackProfile

open CallTree (Alike AlikeAll DistinctAll nodesAt tallyAt)
open Layout (inOrder ordered)

variable {α : Type}

theorem Frame.toString_injective : Function.Injective (toString : Frame → String) := by
  rintro ⟨a⟩ ⟨b⟩ (h : a = b)
  rw [h]

/-! ## Sums and heights without an order -/

theorem foldl_satAdd {ws : List Int} {a : Int} (h0 : 0 ≤ a) (h1 : a ≤ maxTime)
    (hws : ∀ w ∈ ws, 0 ≤ w) : ws.foldl satAdd a = min maxTime (a + ws.sum) := by
  induction ws generalizing a with
  | nil => simp; omega
  | cons w ws ih =>
    obtain ⟨hw, hws⟩ := List.forall_mem_cons.mp hws
    have hsum := List.sum_nonneg hws
    rw [List.foldl_cons, ih (satAdd_nonneg h0 hw) (satAdd_le a w) hws, satAdd_eq_min h0 hw,
      List.sum_cons]
    omega

theorem satSum_eq_min {ws : List Int} (hws : ∀ w ∈ ws, 0 ≤ w) :
    satSum ws = min maxTime ws.sum := by
  rw [satSum, foldl_satAdd (Int.le_refl 0) maxTime_pos.le hws, Int.zero_add]

namespace CallTree

theorem heightOver_perm (h : Nat) {cs ds : List (CallTree α)} (hp : cs.Perm ds) :
    heightOver h cs = heightOver h ds := by
  have : RightCommutative fun (h : Nat) (c : CallTree α) => max h (c.height + 1) :=
    ⟨fun h c d => Nat.max_right_comm h (c.height + 1) (d.height + 1)⟩
  exact hp.foldl_eq h

theorem heightOver_alike [ToString α] (h : Nat) {cs ds : List (CallTree α)}
    (halike : List.Forall₂ Alike cs ds) : heightOver h cs = heightOver h ds := by
  induction halike generalizing h with
  | nil => rfl
  | cons hc _ ih => rw [heightOver_cons, heightOver_cons, hc.height, ih]

theorem weights_alike [ToString α] {cs ds : List (CallTree α)} (halike : AlikeAll cs ds) :
    (cs.map weight).Perm (ds.map weight) := by
  have hweights : (ordered cs).map weight = (ordered ds).map weight :=
    List.map_eq_map_iff_forall₂.mpr (halike.imp fun _ _ h => h.weight)
  exact ((Layout.ordered_perm cs).map weight).symm.trans
    (hweights ▸ (Layout.ordered_perm ds).map weight)

theorem Alike.of_children [ToString α] {t t' : CallTree α} (ht : t.Sound) (ht' : t'.Sound)
    (hname : t.name = t'.name) (hweight : t.weight = t'.weight)
    (hchildren : AlikeAll t.children t'.children) : t.Alike t' := by
  refine .intro hname hweight ?_ ?_ hchildren
  · rw [ownWeight, ownWeight, satSum_eq_min (weights_nonneg ht.children),
      satSum_eq_min (weights_nonneg ht'.children), hweight, (weights_alike hchildren).sum_eq]
  · rw [ht.height_eq, ht'.height_eq, ← heightOver_perm 1 (Layout.ordered_perm t.children),
      ← heightOver_perm 1 (Layout.ordered_perm t'.children), heightOver_alike 1 hchildren]

end CallTree

/-! ## The order of siblings -/

namespace CallTree

/-- Equal payloads only with different weights. -/
def NoTie (s t : CallTree α) : Prop := s.payload = t.payload → s.weight ≠ t.weight

theorem noTie_of_ne [BEq α] [LawfulBEq α] {s t : CallTree α} (h : ¬s.payload == t.payload) :
    s.NoTie t := fun heq => absurd (beq_iff_eq.mpr heq) h

end CallTree

namespace Layout

variable [ToString α]

theorem inOrder_iff {a b : CallTree α} :
    inOrder a b ↔ b.weight < a.weight ∨ a.weight = b.weight ∧ a.name ≤ b.name := by
  simp [inOrder]

theorem pairwise_ordered (ts : List (CallTree α)) :
    (ordered ts).Pairwise fun a b => inOrder a b := by
  refine List.pairwise_mergeSort (fun a b c hab hbc => ?_) (fun a b => ?_) ts
  · rw [inOrder_iff] at hab hbc ⊢
    rcases hab with hab | ⟨hab, hname⟩
    · exact .inl (by omega)
    · rcases hbc with hbc | ⟨hbc, hname'⟩
      · exact .inl (by omega)
      · exact .inr ⟨by omega, hname.trans hname'⟩
  · rw [Bool.or_eq_true, inOrder_iff, inOrder_iff]
    rcases Int.lt_trichotomy a.weight b.weight with h | h | h
    · exact .inr (.inl h)
    · exact (le_total a.name b.name).imp (fun hn => .inr ⟨h, hn⟩) fun hn => .inr ⟨h.symm, hn⟩
    · exact .inl (.inl h)

/-- The sort key of layout order. -/
def rank (t : CallTree α) : Int × String := (t.weight, t.name)

theorem nodup_rank (hinj : Function.Injective (toString : α → String)) {ts : List (CallTree α)}
    (h : ts.Pairwise CallTree.NoTie) : (ts.map rank).Nodup :=
  List.pairwise_map.mpr (h.imp fun hne heq =>
    hne (hinj (congrArg Prod.snd heq)) (congrArg Prod.fst heq))

/-- Layout order is determined by ranks. -/
theorem map_rank_ordered {ts ts' : List (CallTree α)} (h : (ts.map rank).Perm (ts'.map rank)) :
    (ordered ts).map rank = (ordered ts').map rank := by
  have hsorted : ∀ us : List (CallTree α), ((ordered us).map rank).Pairwise fun a b =>
      b.1 < a.1 ∨ a.1 = b.1 ∧ a.2 ≤ b.2 := fun us =>
    List.pairwise_map.mpr ((pairwise_ordered us).imp fun hab => inOrder_iff.mp hab)
  -- the order of ranks is antisymmetric, which that of trees is not
  refine List.Perm.eq_of_pairwise (fun a b _ _ hab hba => ?_) (hsorted ts) (hsorted ts') ?_
  · have hfst : a.1 = b.1 := by omega
    have hle : a.2 ≤ b.2 := (hab.resolve_left (by omega)).2
    have hge : b.2 ≤ a.2 := (hba.resolve_left (by omega)).2
    exact Prod.ext hfst (le_antisymm hle hge)
  · exact ((ordered_perm ts).map rank).trans (h.trans ((ordered_perm ts').map rank).symm)

end Layout

/-! ## Equal weights -/

section Equal

variable {ts ts' : List (CallTree α)} {t t' : CallTree α}

/-- Sound and distinct. -/
structure Tidy [BEq α] (ts : List (CallTree α)) : Prop where
  sound : ∀ t ∈ ts, t.Sound
  distinct : DistinctAll ts

theorem Tidy.children [BEq α] (h : Tidy ts) (ht : t ∈ ts) : Tidy t.children :=
  ⟨(h.sound t ht).children, (h.distinct.trees t ht).children⟩

theorem Tidy.nodup_rank [BEq α] [LawfulBEq α] [ToString α]
    (hinj : Function.Injective (toString : α → String))
    (h : Tidy ts) : (ts.map Layout.rank).Nodup :=
  Layout.nodup_rank hinj (h.distinct.apart.imp fun hne => CallTree.noTie_of_ne hne)

variable [BEq α]

/-- Equal tallies at every path. -/
def SameWeights (ts ts' : List (CallTree α)) : Prop :=
  ∀ f path, tallyAt (f :: path) ts = tallyAt (f :: path) ts'

theorem SameWeights.symm (h : SameWeights ts ts') : SameWeights ts' ts :=
  fun f path => (h f path).symm

variable [LawfulBEq α]

theorem Tidy.filter_payload (h : Tidy ts) (ht : t ∈ ts) :
    (ts.filter fun u => u.payload == t.payload) = [t] := by
  have hfind : ts.find? (fun u => u.payload == t.payload) = some t := by
    cases hf : ts.find? fun u => u.payload == t.payload with
    | none => simpa using List.find?_eq_none.mp hf t ht
    | some u =>
      have hu : u.payload = t.payload := beq_iff_eq.mp (List.find?_some hf :)
      rw [List.inj_on_of_nodup_map h.distinct.nodup (List.mem_of_find?_eq_some hf) ht hu]
  rw [CallTree.filter_payload h.distinct.apart, hfind, Option.toList_some]

theorem Tidy.tallyAt_self (h : Tidy ts) (ht : t ∈ ts) : tallyAt [t.payload] ts = some t.weight := by
  have hsound := h.sound t ht
  rw [tallyAt, nodesAt, h.filter_payload ht, List.map_singleton,
    tally_weight hsound.weight_nonneg hsound.weight_le]

theorem Tidy.tallyAt_children (h : Tidy ts) (ht : t ∈ ts) (g : α) (path : List α) :
    tallyAt (t.payload :: g :: path) ts = tallyAt (g :: path) t.children := by
  rw [tallyAt, nodesAt, h.filter_payload ht, List.flatMap_singleton, tallyAt]

theorem SameWeights.exists_mem (h : SameWeights ts ts') (hts : Tidy ts) (hts' : Tidy ts')
    (ht : t ∈ ts) : ∃ t' ∈ ts', t.payload = t'.payload ∧ t.weight = t'.weight := by
  have htally : tallyAt [t.payload] ts' = some t.weight := by
    rw [← h t.payload [], hts.tallyAt_self ht]
  have hne : (nodesAt [t.payload] ts').map CallTree.weight ≠ [] := by
    rw [Ne, ← tally_eq_none, ← tallyAt, htally]
    simp
  obtain ⟨w, hw⟩ := List.exists_mem_of_ne_nil _ hne
  obtain ⟨t', hmem, -⟩ := List.mem_map.mp hw
  rw [nodesAt] at hmem
  obtain ⟨ht', hpayload⟩ := List.mem_filter.mp hmem
  have hpayload : t'.payload = t.payload := beq_iff_eq.mp hpayload
  rw [← hpayload, hts'.tallyAt_self ht'] at htally
  exact ⟨t', ht', hpayload.symm, (Option.some.inj htally).symm⟩

theorem SameWeights.children (h : SameWeights ts ts') (hts : Tidy ts) (hts' : Tidy ts')
    (ht : t ∈ ts) (ht' : t' ∈ ts') (hpayload : t.payload = t'.payload) :
    SameWeights t.children t'.children := fun g path => by
  rw [← hts.tallyAt_children ht, ← hts'.tallyAt_children ht', hpayload, h]

variable [ToString α]

theorem SameWeights.mem_rank (h : SameWeights ts ts') (hts : Tidy ts) (hts' : Tidy ts')
    {r : Int × String} (hr : r ∈ ts.map Layout.rank) : r ∈ ts'.map Layout.rank := by
  obtain ⟨t, ht, rfl⟩ := List.mem_map.mp hr
  obtain ⟨t', ht', hpayload, hweight⟩ := h.exists_mem hts hts' ht
  have hrank : Layout.rank t = Layout.rank t' := by
    rw [Layout.rank, Layout.rank, CallTree.name, CallTree.name, hpayload, hweight]
  exact hrank ▸ List.mem_map_of_mem ht'

/-- Equal weights give equal ranks in layout order. -/
theorem SameWeights.forall₂_rank (hinj : Function.Injective (toString : α → String))
    (h : SameWeights ts ts') (hts : Tidy ts) (hts' : Tidy ts') :
    List.Forall₂ (fun t t' => Layout.rank t = Layout.rank t') (ordered ts) (ordered ts') := by
  have hperm : (ts.map Layout.rank).Perm (ts'.map Layout.rank) :=
    (List.perm_ext_iff_of_nodup (hts.nodup_rank hinj) (hts'.nodup_rank hinj)).mpr fun r =>
      ⟨h.mem_rank hts hts', h.symm.mem_rank hts' hts⟩
  exact List.map_eq_map_iff_forall₂.mp (Layout.map_rank_ordered hperm)

/-- Tidy forests of equal weights are alike. -/
theorem SameWeights.alikeAll (hinj : Function.Injective (toString : α → String))
    (h : SameWeights ts ts') (hts : Tidy ts) (hts' : Tidy ts') : AlikeAll ts ts' := by
  -- by induction on a bound for the heights, which are less for children
  obtain ⟨n, hn⟩ : ∃ n, ∀ t ∈ ts, t.height ≤ n :=
    ⟨CallTree.heightOver 1 ts, fun t ht => (CallTree.height_lt_heightOver 1 ht).le⟩
  induction n using Nat.strong_induction_on generalizing ts ts' with
  | _ n ih =>
    refine Layout.forall₂_ordered_imp (h.forall₂_rank hinj hts hts') fun t ht t' ht' hrank => ?_
    have hname : t.name = t'.name := congrArg Prod.snd hrank
    have hweight : t.weight = t'.weight := congrArg Prod.fst hrank
    have hpos := (hts.sound t ht).height_pos
    have hle := hn t ht
    have hchildren : AlikeAll t.children t'.children := by
      refine ih (t.height - 1) (by omega)
        (h.children hts hts' ht ht' (hinj hname)) (hts.children ht)
        (hts'.children ht') fun c hc => ?_
      have := (hts.sound t ht).height_lt hc
      omega
    exact .of_children (hts.sound t ht) (hts'.sound t' ht') hname hweight hchildren

end Equal

end StackProfile
