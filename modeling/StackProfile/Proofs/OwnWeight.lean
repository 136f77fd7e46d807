import StackProfile.Proofs.UncutSlots

/-!
# Own weights

`Weighs ss ts`: the forest `ts` weighs at every path the samples through it. Then no node weighs
less than its children, and own weights are the samples that end there.
-/

namespace StackProfile

open CallTree (nodesAt tallyAt DistinctAll)

variable {α : Type}

/-! ## Samples -/

/-- Sample counts by the paths where they end. -/
abbrev Samples (α : Type) := List (List α × Int)

namespace Samples

/-- Number of samples, clamped below at 0 each. -/
def total (ss : Samples α) : Int := weightSum (ss.map Prod.snd)

theorem total_append (ss rs : Samples α) : total (ss ++ rs) = ss.total + rs.total := by
  rw [total, List.map_append, weightSum_append]
  rfl

theorem total_nonneg (ss : Samples α) : 0 ≤ ss.total := weightSum_nonneg _

theorem total_perm {ss rs : Samples α} (h : ss.Perm rs) : ss.total = rs.total :=
  ((h.map Prod.snd).map fun w => max w 0).sum_eq

theorem total_filter_add (ss : Samples α) (keep : List α × Int → Bool) :
    total (ss.filter keep) + total (ss.filter fun s => !keep s) = ss.total := by
  rw [← total_append]
  exact total_perm (List.filter_append_perm keep ss)

theorem total_filter_le (ss : Samples α) (keep : List α × Int → Bool) :
    total (ss.filter keep) ≤ ss.total := by
  have hrest := total_nonneg (ss.filter fun s => !keep s)
  have hall := total_filter_add ss keep
  omega

variable [BEq α]

/-- The samples at `path` or below. -/
def through (path : List α) (ss : Samples α) : Samples α := ss.filter fun s => path.isPrefixOf s.1

def ending (path : List α) (ss : Samples α) : Samples α := ss.filter fun s => s.1 == path

def after (f : α) : Samples α → Samples α
  | [] => []
  | ([], _) :: ss => after f ss
  | (g :: path, n) :: ss => if f == g then (path, n) :: after f ss else after f ss

theorem map_snd_through_cons (f : α) (path : List α) (ss : Samples α) :
    (ss.through (f :: path)).map Prod.snd = ((ss.after f).through path).map Prod.snd := by
  induction ss with
  | nil => rfl
  | cons s ss ih =>
    obtain ⟨p, n⟩ := s
    cases p with
    | nil => simpa [through, after] using ih
    | cons g p =>
      have hcons : (f :: path).isPrefixOf (g :: p) = (f == g && path.isPrefixOf p) := rfl
      by_cases hg : f == g
      · by_cases hp : path.isPrefixOf p
        · simpa [through, after, List.filter_cons, hcons, hg, hp] using ih
        · simpa [through, after, List.filter_cons, hcons, hg, hp] using ih
      · simpa [through, after, List.filter_cons, hcons, hg] using ih

theorem total_through_singleton (f : α) (ss : Samples α) :
    (ss.through [f]).total = (ss.after f).total := by
  have hall : (ss.after f).through [] = ss.after f := List.filter_eq_self.mpr fun s _ => by simp
  rw [total, map_snd_through_cons, hall, total]

theorem total_after_le (f : α) (ss : Samples α) : (ss.after f).total ≤ ss.total := by
  rw [← total_through_singleton]
  exact total_filter_le ss _

theorem map_snd_ending_cons [LawfulBEq α] (f : α) (path : List α) (ss : Samples α) :
    (ss.ending (f :: path)).map Prod.snd = ((ss.after f).ending path).map Prod.snd := by
  induction ss with
  | nil => rfl
  | cons s ss ih =>
    obtain ⟨p, n⟩ := s
    cases p with
    | nil => simpa [ending, after] using ih
    | cons g p =>
      by_cases hg : g = f
      · subst hg
        by_cases hp : p = path
        · simpa [ending, after, hp] using ih
        · simpa [ending, after, hp] using ih
      · have hfg : ¬f = g := fun h => hg h.symm
        simpa [ending, after, hg, hfg] using ih

theorem total_ending_cons [LawfulBEq α] (f : α) (path : List α) (ss : Samples α) :
    (ss.ending (f :: path)).total = ((ss.after f).ending path).total := by
  rw [total, map_snd_ending_cons, total]

def others (f : α) (ss : Samples α) : Samples α := ss.filter fun s => !([f].isPrefixOf s.1)

theorem after_others [LawfulBEq α] {f g : α} (h : f ≠ g) (ss : Samples α) :
    (ss.others f).after g = ss.after g := by
  induction ss with
  | nil => rfl
  | cons s ss ih =>
    obtain ⟨p, n⟩ := s
    cases p with
    | nil => simpa [others, after] using ih
    | cons k p =>
      by_cases hk : f = k
      · subst hk
        simpa [others, after, List.isPrefixOf, h.symm] using ih
      · by_cases hg : g = k
        · subst hg
          simpa [others, after, List.filter_cons, List.isPrefixOf, hk] using ih
        · simpa [others, after, List.filter_cons, List.isPrefixOf, hk, hg] using ih

theorem sum_total_after [LawfulBEq α] {fs : List α} (hfs : fs.Nodup) {ss : Samples α}
    (hss : ∀ s ∈ ss, ∀ f ∈ s.1.head?, f ∈ fs) :
    (fs.map fun f => (ss.after f).total).sum + (ss.ending []).total = ss.total := by
  induction fs generalizing ss with
  | nil =>
    have hall : ss.ending [] = ss := List.filter_eq_self.mpr fun s hs => by
      obtain ⟨p, n⟩ := s
      cases p with
      | nil => simp
      | cons f p => cases hss _ hs f rfl
    rw [hall, List.map_nil, List.sum_nil, Int.zero_add]
  | cons f fs ih =>
    obtain ⟨hf, hfs⟩ := List.nodup_cons.mp hfs
    have hothers : ∀ s ∈ ss.others f, ∀ g ∈ s.1.head?, g ∈ fs := fun s hs g hg => by
      obtain ⟨hs, hne⟩ := List.mem_filter.mp hs
      refine (List.mem_cons.mp (hss s hs g hg)).resolve_left ?_
      rintro rfl
      obtain ⟨_ | ⟨k, p⟩, n⟩ := s
      · cases hg
      · cases hg
        simp [List.isPrefixOf] at hne
    have hrest := ih hfs hothers
    have hafter : fs.map (fun g => ((ss.others f).after g).total) =
        fs.map fun g => (ss.after g).total :=
      List.map_congr_left fun g hg => by rw [after_others fun h : f = g => hf (h ▸ hg)]
    have hending : (ss.others f).ending [] = ss.ending [] := by
      rw [ending, others, List.filter_filter, ending]
      exact List.filter_congr fun s _ => by cases h : s.1 <;> simp [List.isPrefixOf]
    have hsplit : (ss.after f).total + (ss.others f).total = ss.total := by
      rw [← total_through_singleton]
      exact total_filter_add ss _
    rw [hafter, hending] at hrest
    rw [List.map_cons, List.sum_cons]
    omega

end Samples

/-! ## Forests of samples -/

/-- A tidy forest with the weights of its samples. -/
structure Weighs [BEq α] (ss : Samples α) (ts : List (CallTree α)) : Prop extends Tidy ts where
  tallies : ∀ f path, tallyAt (f :: path) ts = tally ((ss.through (f :: path)).map Prod.snd)
  total_le : ss.total ≤ maxTime

namespace Weighs

variable [BEq α] [LawfulBEq α] {ss : Samples α} {ts : List (CallTree α)} {t : CallTree α}

theorem weight_eq (h : Weighs ss ts) (ht : t ∈ ts) : t.weight = (ss.after t.payload).total := by
  have htally : tally ((ss.through [t.payload]).map Prod.snd) = some t.weight := by
    rw [← h.tallies, h.toTidy.tallyAt_self ht]
  have hne : (ss.through [t.payload]).map Prod.snd ≠ [] := fun hnil => by
    rw [hnil] at htally
    cases htally
  have hle := (Samples.total_after_le t.payload ss).trans h.total_le
  rw [tally_of_ne_nil hne, Option.some.injEq] at htally
  rw [← Samples.total_through_singleton] at hle ⊢
  exact htally.symm.trans (Int.min_eq_right hle)

/-- Children weigh what remains after their parent's payload. -/
theorem children (h : Weighs ss ts) (ht : t ∈ ts) : Weighs (ss.after t.payload) t.children where
  toTidy := h.toTidy.children ht
  tallies f path := by
    rw [← h.toTidy.tallyAt_children ht, h.tallies, Samples.map_snd_through_cons]
  total_le := (Samples.total_after_le t.payload ss).trans h.total_le

theorem exists_payload (h : Weighs ss ts) {f : α} {path : List α} {n : Int}
    (hs : (f :: path, n) ∈ ss) : f ∈ ts.map CallTree.payload := by
  have hmem : (f :: path, n) ∈ ss.through [f] :=
    List.mem_filter.mpr ⟨hs, by simp [List.isPrefixOf]⟩
  have hne : tallyAt [f] ts ≠ none := by
    rw [h.tallies, Ne, tally_eq_none]
    exact List.ne_nil_of_mem (List.mem_map_of_mem hmem)
  by_contra hnot
  refine hne (tally_eq_none.mpr (List.map_eq_nil_iff.mpr (List.filter_eq_nil_iff.mpr ?_)))
  exact fun t ht hf => hnot (List.mem_map.mpr ⟨t, ht, beq_iff_eq.mp hf⟩)

/-- Root weights and pathless samples add up to all. -/
theorem sum_weight (h : Weighs ss ts) :
    (ts.map CallTree.weight).sum + (ss.ending []).total = ss.total := by
  have hweights : ts.map CallTree.weight =
      (ts.map CallTree.payload).map fun f => (ss.after f).total := by
    rw [List.map_map]
    exact List.map_congr_left fun t ht => h.weight_eq ht
  rw [hweights]
  refine Samples.sum_total_after h.distinct.nodup ?_
  rintro ⟨_ | ⟨f, path⟩, n⟩ hs g hg
  · cases hg
  · obtain rfl : f = g := Option.some.inj hg
    exact h.exists_payload hs

theorem ownWeight_eq (h : Weighs ss ts) (ht : t ∈ ts) :
    t.ownWeight = ((ss.after t.payload).ending []).total := by
  have hchildren := h.children ht
  have hsum := hchildren.sum_weight
  have hown := Samples.total_nonneg ((ss.after t.payload).ending [])
  have hle := hchildren.total_le
  rw [CallTree.ownWeight, satSum_eq_min (CallTree.weights_nonneg hchildren.sound), h.weight_eq ht]
  omega

/-- Own weight is what ends at the path. -/
theorem ownWeight_at (h : Weighs ss ts) {f : α} {path : List α} {n : CallTree α}
    (hn : n ∈ nodesAt (f :: path) ts) : n.ownWeight = (ss.ending (f :: path)).total := by
  induction path generalizing f ss ts with
  | nil =>
    obtain ⟨ht, hf⟩ := List.mem_filter.mp hn
    rw [h.ownWeight_eq ht, beq_iff_eq.mp hf, Samples.total_ending_cons]
  | cons g path ih =>
    obtain ⟨t, ht, hf, hbelow⟩ := CallTree.mem_nodesAt_cons_cons.mp hn
    obtain rfl : t.payload = f := beq_iff_eq.mp hf
    rw [ih (h.children ht) hbelow, Samples.total_ending_cons t.payload]

theorem sum_weight_le (h : Weighs ss ts) : (ts.map CallTree.weight).sum ≤ ss.total := by
  have hsum := h.sum_weight
  have hrest := Samples.total_nonneg (ss.ending [])
  omega

theorem covering {ss : Samples α} {ts : List (CallTree α)} (h : Weighs ss ts) :
    (t : CallTree α) → t ∈ ts → t.Covering
  | .node p w n cs xs, ht => by
    refine .node ?_ fun c hc => covering (h.children ht) c hc
    exact (h.children ht).sum_weight_le.trans_eq (h.weight_eq ht).symm

theorem fits (h : Weighs ss ts) : Layout.Fits ts where
  toTidy := h.toTidy
  covering := h.covering
  sum_le := h.sum_weight_le.trans h.total_le

end Weighs

end StackProfile
