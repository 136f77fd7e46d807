import StackProfile.Proofs.SameWeights
import StackProfile.Proofs.Slots

/-!
# Checked layout

`widthAt`, `slotsFrom`, `ownWeight` and `locate` with a check of every plain operation: differences
stay in the range of times, depths in that of indexes, and widths are not negative. On sound trees
the checks pass.
-/

namespace StackProfile

variable {α : Type}

namespace Checked

/-! ## Plain operations -/

/-- The greatest value of an index type. -/
def maxIndex : Nat := 18446744073709551615

def minus (a b : Int) : Option Int :=
  if -maxTime ≤ a - b ∧ a - b ≤ maxTime then some (a - b) else none

def plus (a b : Nat) : Option Nat := if a + b ≤ maxIndex then some (a + b) else none

def pred (n : Nat) : Option Nat := if 1 ≤ n then some (n - 1) else none

theorem minus_eq {a b : Int} (ha : 0 ≤ a) (ha' : a ≤ maxTime) (hb : 0 ≤ b) (hb' : b ≤ maxTime) :
    minus a b = some (a - b) := by
  rw [minus, if_pos]
  omega

theorem plus_eq {a b : Nat} (h : a + b ≤ maxIndex) : plus a b = some (a + b) := if_pos h

theorem pred_eq {n : Nat} (h : 1 ≤ n) : pred n = some (n - 1) := if_pos h

/-! ## Own weights -/

def ownWeight (t : CallTree α) : Option Int := do
  let rest ← minus t.weight (satSum (t.children.map CallTree.weight))
  return max rest 0

theorem ownWeight_eq {t : CallTree α} (h : t.Sound) : ownWeight t = some t.ownWeight := by
  have hchildren := satSum_eq_min (CallTree.weights_nonneg h.children)
  have hsum : 0 ≤ (t.children.map CallTree.weight).sum :=
    List.sum_nonneg (CallTree.weights_nonneg h.children)
  have hmax := maxTime_pos
  rw [ownWeight, minus_eq h.weight_nonneg h.weight_le (by omega) (by omega)]
  rfl

/-! ## Slots -/

/-- The inner `none` stands for a cursor at or past the limit. -/
def widthAt (limit : Option Int) (cursor weight : Int) : Option (Option Int) :=
  match limit with
  | none => some (some weight)
  | some l =>
    if l ≤ cursor then some none
    else do
      let room ← minus l cursor
      return some (min weight room)

/-- Slots from `cursor` on, with widths checked to be non-negative. -/
def slotsFrom (limit : Option Int) (cursor : Int) : List (CallTree α) → Option (List (Slot α))
  | [] => some []
  | t :: ts => do
    match ← widthAt limit cursor t.weight with
    | none => some []
    | some width =>
      if 0 ≤ width then
        let rest ← slotsFrom limit (satAdd cursor t.weight) ts
        return ⟨t, cursor, width⟩ :: rest
      else none

def slots [ToString α] (trees : List (CallTree α)) (start : Int) (limit : Option Int) :
    Option (List (Slot α)) :=
  slotsFrom limit start (Layout.ordered trees)

def childSlots [ToString α] (s : Slot α) : Option (List (Slot α)) :=
  slots s.tree.children s.start (some s.finish)

section Slots

variable {limit : Option Int} {cursor weight : Int} {ts : List (CallTree α)} {s : Slot α}

theorem widthAt_eq (h0 : 0 ≤ cursor) (hl : ∀ l ∈ limit, l ≤ maxTime) :
    widthAt limit cursor weight = some (Layout.widthAt limit cursor weight) := by
  cases limit with
  | none => rfl
  | some l =>
    have hl := hl l rfl
    simp only [widthAt, Layout.widthAt]
    split
    · rfl
    · rw [minus_eq (by omega) hl h0 (by omega)]
      rfl

theorem slotsFrom_eq (hts : ∀ t ∈ ts, t.Sound) (h0 : 0 ≤ cursor) (hl : ∀ l ∈ limit, l ≤ maxTime) :
    slotsFrom limit cursor ts = some (Layout.slotsFrom limit cursor ts) := by
  induction ts generalizing cursor with
  | nil => rfl
  | cons t ts ih =>
    obtain ⟨ht, hts⟩ := List.forall_mem_cons.mp hts
    simp only [slotsFrom, Layout.slotsFrom, widthAt_eq h0 hl, Option.bind_eq_bind, Option.bind_some]
    cases hw : Layout.widthAt limit cursor t.weight with
    | none => rfl
    | some width =>
      have hw0 := (Layout.widthAt_eq_some ht.weight_nonneg hw).1
      simp only [if_pos hw0, ih hts (satAdd_nonneg h0 ht.weight_nonneg)]
      rfl

variable [ToString α]

theorem slots_eq {roots : List (CallTree α)} (h : ∀ t ∈ roots, t.Sound) :
    slots roots 0 none = some (Layout.slots roots 0 none) :=
  slotsFrom_eq (Layout.sound_ordered h) (Int.le_refl 0) nofun

theorem childSlots_eq (h : s.Sound) : childSlots s = some (Layout.childSlots s) :=
  slotsFrom_eq (Layout.sound_ordered h.tree.children) h.start_nonneg fun _ hl =>
    Option.some.inj hl ▸ h.finish_le

end Slots

/-! ## Lookup -/

section Lookup

variable [ToString α] {time : Int} {level : List (Slot α)} {roots : List (CallTree α)}

/-- The slot covering `time`, `below` levels further down. -/
def locateIn (time : Int) : Nat → Nat → List (Slot α) → Option (Option (Slot α))
  | 0, _, level => some (level.find? fun s => s.covers time)
  | below + 1, current, level =>
    match level.find? fun s => s.covers time with
    | none => some none
    | some s => do
      let children ← childSlots s
      locateIn time below (← plus current 1) children

def locate (roots : List (CallTree α)) (depth : Nat) (time : Int) : Option (Option (Slot α)) := do
  locateIn time depth 0 (← slots roots 0 none)

theorem locateIn_eq {below current : Nat} (hlevel : ∀ s ∈ level, s.Sound)
    (hdepth : current + below ≤ maxIndex) :
    locateIn time below current level = some (Layout.locateIn time below level) := by
  induction below generalizing current level with
  | zero => rfl
  | succ below ih =>
    unfold locateIn Layout.locateIn
    cases hfind : level.find? fun s => s.covers time with
    | none => rfl
    | some s =>
      have hs := hlevel s (List.mem_of_find?_eq_some hfind)
      simp only [childSlots_eq hs, plus_eq (show current + 1 ≤ maxIndex by omega),
        Option.bind_eq_bind, Option.bind_some]
      exact ih (Layout.sound_childSlots hs) (by omega)

theorem locate_eq (h : ∀ t ∈ roots, t.Sound) {depth : Nat} (hdepth : depth ≤ maxIndex) :
    locate roots depth time = some (Layout.locate roots depth time) := by
  rw [locate, slots_eq h]
  exact locateIn_eq (Layout.sound_rootSlots h) (by omega)

end Lookup

end Checked

end StackProfile
