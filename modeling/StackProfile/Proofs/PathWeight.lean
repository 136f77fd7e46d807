import Mathlib.Algebra.Order.BigOperators.Group.List
import Mathlib.Algebra.Order.Group.Int
import Mathlib.Algebra.Ring.Int.Defs
import StackProfile.Proofs.DistinctTree

/-!
# Weights at paths

`nodesAt` and `tallyAt`: the nodes at a path of payloads, and their saturated weight. Merging adds
tallies; apart siblings leave at most one node at a path.
-/

namespace StackProfile

/-! ## Tallies -/

def weightSum (ws : List Int) : Int := (ws.map fun w => max w 0).sum

/-- The sum of weights, saturated; `none` without any. -/
def tally (ws : List Int) : Option Int :=
  if ws.isEmpty then none else some (min maxTime (weightSum ws))

theorem weightSum_nonneg (ws : List Int) : 0 ≤ weightSum ws :=
  List.sum_nonneg fun x hx => by
    obtain ⟨w, -, rfl⟩ := List.mem_map.mp hx
    omega

theorem weightSum_append (as bs : List Int) :
    weightSum (as ++ bs) = weightSum as + weightSum bs := by
  simp [weightSum]

@[simp] theorem tally_nil : tally [] = none := rfl

theorem tally_of_ne_nil {ws : List Int} (h : ws ≠ []) :
    tally ws = some (min maxTime (weightSum ws)) := by
  rw [tally, if_neg (by simpa using h)]

theorem tally_eq_none {ws : List Int} : tally ws = none ↔ ws = [] := by
  simp [tally]

theorem tally_singleton (w : Int) : tally [w] = some (min maxTime (max w 0)) := by
  simp [tally, weightSum]

theorem tally_weight {w : Int} (h0 : 0 ≤ w) (h1 : w ≤ maxTime) : tally [w] = some w := by
  rw [tally_singleton, Int.max_eq_left h0, Int.min_eq_right h1]

theorem getD_tally (ws : List Int) : (tally ws).getD 0 = min maxTime (weightSum ws) := by
  by_cases h : ws = []
  · rw [h, tally_nil]
    exact (Int.min_eq_right maxTime_pos.le).symm
  · rw [tally_of_ne_nil h, Option.getD_some]

theorem tally_append (as bs : List Int) :
    tally (as ++ bs) = Option.merge satAdd (tally as) (tally bs) := by
  by_cases ha : as = []
  · simp [ha]
  by_cases hb : bs = []
  · simp [hb]
  have ha0 := weightSum_nonneg as
  have hb0 := weightSum_nonneg bs
  have hmax := maxTime_pos
  rw [tally_of_ne_nil ha, tally_of_ne_nil hb, tally_of_ne_nil (by simp [ha]), weightSum_append,
    Option.merge, satAdd_eq_min (by omega) (by omega)]
  congr 1
  omega

theorem tally_perm {ws ws' : List Int} (h : ws.Perm ws') : tally ws = tally ws' := by
  have hsum : weightSum ws = weightSum ws' := (h.map fun w => max w 0).sum_eq
  rw [tally, tally, hsum, h.isEmpty_eq]

/-- `tally` absorbs `satAdd`. -/
theorem tally_satAdd {a : Int} (ha : 0 ≤ a) (b : Int) :
    tally [satAdd a (max b 0)] = tally [a, b] := by
  have hmax := maxTime_pos
  rw [tally_singleton, tally_of_ne_nil (by simp), satAdd_eq_min ha (by omega)]
  simp only [weightSum, List.map_cons, List.map_nil, List.sum_cons, List.sum_nil]
  congr 1
  omega

/-! ## Nodes at a path -/

namespace CallTree

variable {α : Type}

/-- All nodes at a path; several if siblings have equal payloads. -/
def nodesAt [BEq α] : List α → List (CallTree α) → List (CallTree α)
  | [], _ => []
  | [f], ts => ts.filter fun t => t.payload == f
  | f :: g :: path, ts =>
    nodesAt (g :: path) ((ts.filter fun t => t.payload == f).flatMap children)

/-- The weight of all nodes at a path together. -/
def tallyAt [BEq α] (path : List α) (ts : List (CallTree α)) : Option Int :=
  tally ((nodesAt path ts).map weight)

section Paths

variable [BEq α]

theorem nodesAt_append (path : List α) (as bs : List (CallTree α)) :
    nodesAt path (as ++ bs) = nodesAt path as ++ nodesAt path bs := by
  fun_induction nodesAt path as generalizing bs with
  | case1 as => rfl
  | case2 f as => simp [nodesAt]
  | case3 f g path as ih => simp [nodesAt, ih]

theorem nodesAt_cons (path : List α) (t : CallTree α) (ts : List (CallTree α)) :
    nodesAt path (t :: ts) = nodesAt path [t] ++ nodesAt path ts := nodesAt_append path [t] ts

@[simp] theorem nodesAt_nil (path : List α) : nodesAt path ([] : List (CallTree α)) = [] := by
  have h := nodesAt_append path ([] : List (CallTree α)) []
  simpa using h

@[simp] theorem tallyAt_nil (path : List α) : tallyAt path ([] : List (CallTree α)) = none := by
  simp [tallyAt]

theorem tallyAt_append (path : List α) (as bs : List (CallTree α)) :
    tallyAt path (as ++ bs) = Option.merge satAdd (tallyAt path as) (tallyAt path bs) := by
  simp [tallyAt, nodesAt_append, tally_append]

theorem tallyAt_perm (path : List α) {as bs : List (CallTree α)} (h : as.Perm bs) :
    tallyAt path as = tallyAt path bs := by
  have hnodes : (nodesAt path as).Perm (nodesAt path bs) := by
    fun_induction nodesAt path as generalizing bs with
    | case1 as => exact .refl _
    | case2 f as => exact h.filter _
    | case3 f g path as ih => exact ih ((h.filter _).flatMap_right _)
  exact tally_perm (hnodes.map _)

theorem nodesAt_of_payload_ne {f : α} (path : List α) {t : CallTree α} (h : ¬t.payload == f) :
    nodesAt (f :: path) [t] = [] := by
  cases path <;> simp [nodesAt, h]

theorem nodesAt_self {t : CallTree α} {f : α} (h : t.payload == f) : nodesAt [f] [t] = [t] := by
  simp [nodesAt, h]

theorem nodesAt_children {t : CallTree α} {f : α} (h : t.payload == f) (g : α) (path : List α) :
    nodesAt (f :: g :: path) [t] = nodesAt (g :: path) t.children := by
  simp [nodesAt, h]

theorem mem_nodesAt_cons_cons {f g : α} {path : List α} {ts : List (CallTree α)}
    {n : CallTree α} : n ∈ nodesAt (f :: g :: path) ts ↔
      ∃ t ∈ ts, t.payload == f ∧ n ∈ nodesAt (g :: path) t.children := by
  induction ts with
  | nil => simp
  | cons t ts ih =>
    rw [nodesAt_cons, List.mem_append, ih, List.exists_mem_cons_iff]
    by_cases hf : t.payload == f
    · rw [nodesAt_children hf]
      simp [hf]
    · rw [nodesAt_of_payload_ne _ hf]
      simp [hf]

/-- `nodesAt` at a longer path. -/
theorem mem_nodesAt_append {path : List α} (hp : path ≠ []) {g : α} {ts : List (CallTree α)}
    {n : CallTree α} : n ∈ nodesAt (path ++ [g]) ts ↔
      ∃ m ∈ nodesAt path ts, n ∈ m.children ∧ n.payload == g := by
  fun_induction nodesAt path ts with
  | case1 ts => exact absurd rfl hp
  | case2 f ts =>
    rw [List.singleton_append, mem_nodesAt_cons_cons]
    simp [nodesAt, and_assoc]
  | case3 f h path ts ih => exact ih (List.cons_ne_nil h path)

theorem forall_mem_nodesAt {P : CallTree α → Prop} (hP : ∀ t, P t → ∀ c ∈ t.children, P c)
    {path : List α} {ts : List (CallTree α)} (h : ∀ t ∈ ts, P t) : ∀ n ∈ nodesAt path ts, P n := by
  fun_induction nodesAt path ts with
  | case1 ts => simp
  | case2 f ts => exact fun t ht => h t (List.mem_of_mem_filter ht)
  | case3 f g path ts ih =>
    refine ih fun c hc => ?_
    obtain ⟨t, ht, hc⟩ := List.mem_flatMap.mp hc
    exact hP t (h t (List.mem_of_mem_filter ht)) c hc

theorem sound_nodesAt {path : List α} {ts : List (CallTree α)} (h : ∀ t ∈ ts, t.Sound) :
    ∀ t ∈ nodesAt path ts, t.Sound := forall_mem_nodesAt (fun _ ht => ht.children) h

theorem length_le_height {path : List α} {ts : List (CallTree α)} {n : CallTree α}
    (h : ∀ t ∈ ts, t.Sound) (hn : n ∈ nodesAt path ts) : ∃ t ∈ ts, path.length ≤ t.height := by
  fun_induction nodesAt path ts with
  | case1 ts => cases hn
  | case2 f ts =>
    have ht := List.mem_of_mem_filter hn
    exact ⟨n, ht, (h n ht).height_pos⟩
  | case3 f g path ts ih =>
    obtain ⟨c, hc, hle⟩ := ih (fun c hc => by
      obtain ⟨t, ht, hc⟩ := List.mem_flatMap.mp hc
      exact (h t (List.mem_of_mem_filter ht)).children c hc) hn
    obtain ⟨t, ht, hc⟩ := List.mem_flatMap.mp hc
    have ht := List.mem_of_mem_filter ht
    exact ⟨t, ht, hle.trans_lt ((h t ht).height_lt hc)⟩

theorem tallyAt_append_congr {path : List α} {as as' bs bs' : List (CallTree α)}
    (ha : tallyAt path as = tallyAt path as') (hb : tallyAt path bs = tallyAt path bs') :
    tallyAt path (as ++ bs) = tallyAt path (as' ++ bs') := by
  rw [tallyAt_append, tallyAt_append, ha, hb]

end Paths

/-! ## Merging adds up tallies -/

section Merging

variable [BEq α]

theorem tallyAt_settle {path : List α} {t : CallTree α}
    {join : CallTree α → CallTree α} {siblings : List (CallTree α)}
    (hj : ∀ s ∈ siblings, s.payload == t.payload → tallyAt path [join s] = tallyAt path [s, t]) :
    tallyAt path (settle t join siblings) = tallyAt path (siblings ++ [t]) := by
  induction siblings with
  | nil => rfl
  | cons s rest ih =>
    obtain ⟨hs, hrest⟩ := List.forall_mem_cons.mp hj
    unfold settle
    split
    · next hp =>
      have hmoved : (s :: t :: rest).Perm (s :: rest ++ [t]) :=
        .cons s (List.perm_append_singleton t rest).symm
      rw [← tallyAt_perm path hmoved]
      have hjoined : tallyAt path ([join s] ++ rest) = tallyAt path ([s, t] ++ rest) :=
        tallyAt_append_congr (hs hp) rfl
      exact hjoined
    · have hkept : tallyAt path ([s] ++ settle t join rest) = tallyAt path ([s] ++ (rest ++ [t])) :=
        tallyAt_append_congr rfl (ih hrest)
      exact hkept

mutual

/-- `absorb` weighs at each path what both trees weigh there. -/
theorem tallyAt_absorb [PartialEquivBEq α] {s : CallTree α} (hs : s.Sound) :
    ∀ {t : CallTree α}, t.Sound → s.payload == t.payload →
      ∀ path : List α, tallyAt path [s.absorb t] = tallyAt path [s, t]
  | .node p w h cs xs, ht, hp, path => by
    set t := CallTree.node p w h cs xs
    match path with
    | [] => rfl
    | f :: path =>
      have hiff : (s.payload == f) = (t.payload == f) := BEq.congr_left hp
      by_cases hf : s.payload == f
      · have hft : t.payload == f := hiff ▸ hf
        have hfa : (s.absorb t).payload == f := by rwa [payload_absorb]
        rw [tallyAt, tallyAt, nodesAt_cons (f :: path) s [t]]
        match path with
        | [] =>
          rw [nodesAt_self hf, nodesAt_self hft, nodesAt_self hfa]
          exact tally_satAdd hs.weight_nonneg w
        | g :: path =>
          rw [nodesAt_children hf, nodesAt_children hft, nodesAt_children hfa, ← nodesAt_append]
          exact tallyAt_absorbAll hs.children ht.children (g :: path)
      · have hft : ¬t.payload == f := hiff ▸ hf
        have hfa : ¬(s.absorb t).payload == f := by rwa [payload_absorb]
        rw [tallyAt, tallyAt, nodesAt_cons (f :: path) s [t], nodesAt_of_payload_ne path hf,
          nodesAt_of_payload_ne path hft, nodesAt_of_payload_ne path hfa]
        rfl

theorem tallyAt_absorbAll [PartialEquivBEq α] {siblings : List (CallTree α)}
    (hs : ∀ s ∈ siblings, s.Sound) :
    ∀ {cs : List (CallTree α)}, (∀ c ∈ cs, c.Sound) →
      ∀ path : List α, tallyAt path (absorbAll siblings cs) = tallyAt path (siblings ++ cs)
  | [], _, path => by rw [absorbAll, List.append_nil]
  | c :: cs, hcs, path => by
    obtain ⟨hc, hcs⟩ := List.forall_mem_cons.mp hcs
    have hsettled := forall_mem_settle hs hc fun s hs => hs.absorb hc
    have hsettle : tallyAt path (settle c (fun s => s.absorb c) siblings) =
        tallyAt path (siblings ++ [c]) :=
      tallyAt_settle fun s hmem hp => tallyAt_absorb (hs s hmem) hc hp path
    rw [absorbAll, tallyAt_absorbAll hsettled hcs path, tallyAt_append_congr hsettle rfl,
      List.append_assoc, List.singleton_append]

end

theorem tallyAt_insert [PartialEquivBEq α] {siblings : List (CallTree α)} {t : CallTree α}
    (hs : ∀ s ∈ siblings, s.Sound) (ht : t.Sound) (path : List α) :
    tallyAt path (insert siblings t) = tallyAt path (siblings ++ [t]) :=
  tallyAt_settle fun s hmem hp => tallyAt_absorb (hs s hmem) ht hp path

theorem tallyAt_foldl_insert [PartialEquivBEq α] {siblings ts : List (CallTree α)}
    (hs : ∀ s ∈ siblings, s.Sound) (hts : ∀ t ∈ ts, t.Sound) (path : List α) :
    tallyAt path (ts.foldl insert siblings) = tallyAt path (siblings ++ ts) := by
  induction ts generalizing siblings with
  | nil => rw [List.foldl_nil, List.append_nil]
  | cons t ts ih =>
    obtain ⟨ht, hts⟩ := List.forall_mem_cons.mp hts
    rw [List.foldl_cons, ih (sound_insert hs ht) hts,
      tallyAt_append_congr (tallyAt_insert hs ht path) rfl, List.append_assoc,
      List.singleton_append]

end Merging

/-! ## Distinct siblings -/

section Distinct

variable [BEq α] [PartialEquivBEq α]

theorem filter_payload {f : α} {ts : List (CallTree α)} (h : Apart ts) :
    (ts.filter fun t => t.payload == f) = (ts.find? fun t => t.payload == f).toList := by
  induction ts with
  | nil => rfl
  | cons t ts ih =>
    obtain ⟨hne, hapart⟩ := List.pairwise_cons.mp h
    by_cases hf : t.payload == f
    · have hrest : (ts.filter fun t => t.payload == f) = [] :=
        List.filter_eq_nil_iff.mpr fun u hu hfu => hne u hu (BEq.trans hf (BEq.symm hfu))
      simp [hf, hrest]
    · simpa [hf] using ih hapart

theorem length_nodesAt_le_of_apart (path : List α) {ts : List (CallTree α)} (hts : Apart ts)
    (hall : ∀ t ∈ ts, t.ChildrenApart) : (nodesAt path ts).length ≤ 1 := by
  fun_induction nodesAt path ts with
  | case1 ts => simp
  | case2 f ts => rw [filter_payload hts]; cases List.find? _ ts <;> simp
  | case3 f g path ts ih =>
    rw [filter_payload hts] at ih ⊢
    cases hf : ts.find? fun t => t.payload == f with
    | none => simp
    | some t =>
      have ht := hall t (List.mem_of_find?_eq_some hf)
      rw [hf, Option.toList_some, List.flatMap_singleton] at ih
      rw [Option.toList_some, List.flatMap_singleton]
      exact ih ht.pairwise ht.children

theorem length_nodesAt_le (path : List α) {ts : List (CallTree α)} (h : DistinctAll ts) :
    (nodesAt path ts).length ≤ 1 :=
  length_nodesAt_le_of_apart path h.apart fun t ht => (h.trees t ht).childrenApart

omit [BEq α] [PartialEquivBEq α] in
theorem eq_singleton_of_mem {ts : List (CallTree α)} {t : CallTree α} (hone : ts.length ≤ 1)
    (ht : t ∈ ts) : ts = [t] := by
  cases ts with
  | nil => cases ht
  | cons u rest =>
    rw [List.length_cons] at hone
    obtain rfl : rest = [] := List.eq_nil_of_length_eq_zero (by omega)
    rw [List.mem_singleton.mp ht]

omit [BEq α] [PartialEquivBEq α] in
theorem weight_of_tally {ts : List (CallTree α)} {ws : List Int} (hts : ∀ t ∈ ts, t.Sound)
    (hone : ts.length ≤ 1) (h : tally (ts.map weight) = tally ws) :
    (ts ≠ [] ↔ ws ≠ []) ∧ ∀ t ∈ ts, t.weight = min maxTime (weightSum ws) := by
  have hnil : ts = [] ↔ ws = [] := by
    rw [← List.map_eq_nil_iff (f := weight), ← tally_eq_none, h, tally_eq_none]
  refine ⟨not_congr hnil, fun t ht => ?_⟩
  have hws : ws ≠ [] := fun hws => List.ne_nil_of_mem ht (hnil.mpr hws)
  have hsound := hts t ht
  rw [eq_singleton_of_mem hone ht, List.map_singleton,
    tally_weight hsound.weight_nonneg hsound.weight_le, tally_of_ne_nil hws] at h
  exact Option.some.inj h

end Distinct

end CallTree

end StackProfile
