import Mathlib.Data.List.Forall2
import StackProfile.Rows
import StackProfile.Proofs.Slots

/-!
# Alike trees

`Alike` is equality of trees as the layout sees them: names, weights, heights and children in layout
order, payloads aside. Slots, `nodeAt?`, plans and rows respect it.
-/

theorem List.map_eq_map_iff_forall₂ {α β γ : Type} {f : α → γ} {g : β → γ} {as : List α}
    {bs : List β} : as.map f = bs.map g ↔ List.Forall₂ (fun a b => f a = g b) as bs := by
  rw [← List.forall₂_eq_eq_eq, List.forall₂_map_left_iff, List.forall₂_map_right_iff]

namespace Option.Rel

variable {α β γ δ : Type} {R : α → β → Prop} {S : γ → δ → Prop} {x : Option α} {y : Option β}

theorem map {f : α → γ} {g : β → δ} (h : Rel R x y) (hf : ∀ a b, R a b → S (f a) (g b)) :
    Rel S (x.map f) (y.map g) := by
  cases h with
  | none => exact .none
  | some hab => exact .some (hf _ _ hab)

theorem bind {f : α → Option γ} {g : β → Option δ} (h : Rel R x y)
    (hf : ∀ a b, R a b → Rel S (f a) (g b)) : Rel S (x.bind f) (y.bind g) := by
  cases h with
  | none => exact .none
  | some hab => exact hf _ _ hab

theorem or {R : α → β → Prop} {x x' : Option α} {y y' : Option β} (h : Rel R x y)
    (h' : Rel R x' y') : Rel R (x.or x') (y.or y') := by
  cases h with
  | none => exact h'
  | some hab => exact .some hab

end Option.Rel

namespace StackProfile

open Layout (ordered slots slotsFrom childSlots locateIn widthAt)
open Rows (endOf planNode plan carryOut)

variable {α β : Type}

namespace CallTree

/-- One name, weight, own weight and height, and children alike one by one in layout order. -/
inductive Alike [ToString α] [ToString β] : CallTree α → CallTree β → Prop where
  | intro {t : CallTree α} {t' : CallTree β} (name : t.name = t'.name)
      (weight : t.weight = t'.weight) (own : t.ownWeight = t'.ownWeight)
      (height : t.height = t'.height)
      (children : List.Forall₂ Alike (ordered t.children) (ordered t'.children)) : Alike t t'

def AlikeAll [ToString α] [ToString β] (ts : List (CallTree α)) (ts' : List (CallTree β)) :
    Prop :=
  List.Forall₂ Alike (ordered ts) (ordered ts')

@[simp] theorem alikeAll_nil [ToString α] [ToString β] :
    AlikeAll ([] : List (CallTree α)) ([] : List (CallTree β)) := by
  rw [AlikeAll, ordered, ordered, List.mergeSort_nil, List.mergeSort_nil]
  exact .nil

namespace Alike

variable [ToString α] [ToString β] {t : CallTree α} {t' : CallTree β}

theorem name (h : t.Alike t') : t.name = t'.name := by cases h; assumption

theorem weight (h : t.Alike t') : t.weight = t'.weight := by cases h; assumption

theorem own (h : t.Alike t') : t.ownWeight = t'.ownWeight := by cases h; assumption

theorem height (h : t.Alike t') : t.height = t'.height := by cases h; assumption

theorem children (h : t.Alike t') : AlikeAll t.children t'.children := by cases h; assumption

end Alike

end CallTree

/-! ## Slots -/

structure Slot.Alike [ToString α] [ToString β] (s : Slot α) (s' : Slot β) : Prop where
  tree : s.tree.Alike s'.tree
  start : s.start = s'.start
  width : s.width = s'.width

variable [ToString α] [ToString β]

namespace Slot.Alike

variable {s : Slot α} {s' : Slot β}

theorem finish (h : s.Alike s') : s.finish = s'.finish := by
  rw [Slot.finish, Slot.finish, h.start, h.width]

theorem covers (h : s.Alike s') (time : Int) : s.covers time = s'.covers time := by
  rw [Slot.covers, Slot.covers, h.start, h.finish]

end Slot.Alike

namespace Layout

variable {ts roots : List (CallTree α)} {ts' roots' : List (CallTree β)} {s : Slot α} {s' : Slot β}
  {level : List (Slot α)} {level' : List (Slot β)}

theorem forall₂_ordered_imp {R S : CallTree α → CallTree β → Prop}
    (h : List.Forall₂ R (ordered ts) (ordered ts'))
    (himp : ∀ t ∈ ts, ∀ t' ∈ ts', R t t' → S t t') :
    List.Forall₂ S (ordered ts) (ordered ts') := by
  obtain ⟨hlength, hzip⟩ := List.forall₂_iff_zip.mp h
  refine List.forall₂_iff_zip.mpr ⟨hlength, fun {t t'} hmem => ?_⟩
  obtain ⟨ht, ht'⟩ := List.of_mem_zip hmem
  exact himp t (mem_ordered.mp ht) t' (mem_ordered.mp ht') (hzip hmem)

theorem slotsFrom_alike (limit : Option Int) (cursor : Int)
    (h : List.Forall₂ CallTree.Alike ts ts') :
    List.Forall₂ Slot.Alike (slotsFrom limit cursor ts) (slotsFrom limit cursor ts') := by
  induction h generalizing cursor with
  | nil => exact .nil
  | cons ht hts ih =>
    simp only [slotsFrom, ← ht.weight]
    split
    · exact .nil
    · exact .cons ⟨ht, rfl, rfl⟩ (ih _)

theorem slots_alike (start : Int) (limit : Option Int) (h : CallTree.AlikeAll ts ts') :
    List.Forall₂ Slot.Alike (slots ts start limit) (slots ts' start limit) :=
  slotsFrom_alike limit start h

theorem childSlots_alike (h : s.Alike s') :
    List.Forall₂ Slot.Alike (childSlots s) (childSlots s') := by
  rw [childSlots, childSlots, ← h.start, ← h.finish]
  exact slots_alike s.start (some s.finish) h.tree.children

theorem endOf_alike (start : Int) (h : List.Forall₂ Slot.Alike level level') :
    endOf start level = endOf start level' := by
  induction h generalizing start with
  | nil => rfl
  | cons hs _ ih => rw [Rows.endOf_cons, Rows.endOf_cons, hs.finish, ih]

theorem find?_covers_alike (time : Int) (h : List.Forall₂ Slot.Alike level level') :
    Option.Rel Slot.Alike (level.find? fun s => s.covers time)
      (level'.find? fun s => s.covers time) := by
  induction h with
  | nil => exact .none
  | cons hs _ ih =>
    rw [List.find?_cons, List.find?_cons, ← hs.covers time]
    split
    · exact .some hs
    · exact ih

theorem locateIn_alike (time : Int) (depth : Nat) (h : List.Forall₂ Slot.Alike level level') :
    Option.Rel Slot.Alike (locateIn time depth level) (locateIn time depth level') := by
  induction depth generalizing level level' with
  | zero => exact find?_covers_alike time h
  | succ depth ih =>
    exact (find?_covers_alike time h).bind fun _ _ hs => ih (childSlots_alike hs)

theorem nodeAt?_alike (depth : Nat) (time : Int) (h : CallTree.AlikeAll roots roots') :
    Option.Rel CallTree.Alike (nodeAt? roots depth time) (nodeAt? roots' depth time) :=
  (locateIn_alike time depth (slots_alike 0 none h)).map fun _ _ hs => hs.tree

end Layout

/-! ## Walks -/

inductive Step.Alike : Step α → Step β → Prop where
  | poll : Alike .poll .poll
  | node {depth : Nat} {s : Slot α} {s' : Slot β} (slot : s.Alike s') :
      Alike (.node depth s) (.node depth s')
  | gap {above : Option Nat} {through : Nat} {start duration : Int} :
      Alike (.gap above through start duration) (.gap above through start duration)

namespace Rows

variable {roots : List (CallTree α)} {roots' : List (CallTree β)} {s : Slot α} {s' : Slot β}
  {level : List (Slot α)} {level' : List (Slot β)} {steps : List (Step α)} {steps' : List (Step β)}

theorem flatMap_touched_alike (times : List Int) {walk : Slot α → List (Step α)}
    {walk' : Slot β → List (Step β)}
    (hwalk : ∀ {s : Slot α} {s' : Slot β}, s.Alike s' →
      List.Forall₂ Step.Alike (walk s) (walk' s'))
    (h : List.Forall₂ Slot.Alike level level') :
    List.Forall₂ Step.Alike
      (level.flatMap fun s => if Layout.touches times s.start s.width then walk s else [])
      (level'.flatMap fun s => if Layout.touches times s.start s.width then walk' s else []) := by
  refine List.rel_flatMap h fun s s' hs => ?_
  rw [← hs.start, ← hs.width]
  split
  · exact hwalk hs
  · exact .nil

theorem gapStep_alike (keep : Bool) (above : Option Nat) (through : Nat) (start duration : Int) :
    List.Forall₂ (Step.Alike (α := α) (β := β))
      (if keep then [.gap above through start duration] else [])
      (if keep then [.gap above through start duration] else []) := by
  cases keep with
  | false => exact .nil
  | true => exact .cons .gap .nil

theorem planNode_alike (times : List Int) (levels depth limit : Nat) (h : s.Alike s') :
    List.Forall₂ Step.Alike (planNode times levels depth limit s)
      (planNode times levels depth limit s') := by
  induction levels generalizing depth limit s s' with
  | zero => exact .cons .poll (.cons (.node h) .nil)
  | succ levels ih =>
    have hchildren := Layout.childSlots_alike h
    simp only [planNode, ← h.tree.height, ← h.start, ← h.width, ← h.finish,
      ← Layout.endOf_alike s.start hchildren]
    split
    · exact .cons .poll (.cons (.node h) .nil)
    · refine .cons .poll (.cons (.node h) (.cons .gap (List.rel_append ?_ ?_)))
      · exact flatMap_touched_alike times (fun hs => ih _ _ hs) hchildren
      · exact gapStep_alike _ _ _ _ _

theorem plan_alike (times : List Int) (deepest : Nat) (elementEnd : Int)
    (h : CallTree.AlikeAll roots roots') :
    List.Forall₂ Step.Alike (plan times deepest roots elementEnd)
      (plan times deepest roots' elementEnd) := by
  have hlevel := Layout.slots_alike 0 none h
  simp only [plan, ← Layout.endOf_alike 0 hlevel]
  refine List.rel_append ?_ (gapStep_alike _ _ _ _ _)
  exact flatMap_touched_alike times (fun hs => planNode_alike times deepest 0 deepest hs) hlevel

structure Outcome.Alike (o : Outcome α) (o' : Outcome β) : Prop where
  done : List.Forall₂ Step.Alike o.done o'.done
  progress : o.progress = o'.progress
  finished : o.finished = o'.finished

/-- `carryOut` stops at the same step of alike plans. -/
theorem carryOut_alike (token : Token) (wanted : Nat → Bool) (p : Progress)
    (h : List.Forall₂ Step.Alike steps steps') :
    (carryOut token wanted p steps).Alike (carryOut token wanted p steps') := by
  induction h generalizing p with
  | nil => exact ⟨.nil, rfl, rfl⟩
  | cons hstep _ ih =>
    cases hstep with
    | poll =>
      simp only [carryOut]
      split
      · exact ⟨.nil, rfl, rfl⟩
      · have hlater := ih { p with polls := p.polls + 1 }
        exact ⟨.cons .poll hlater.done, hlater.progress, hlater.finished⟩
    | @node depth s s' hs =>
      have hlater := ih (if wanted depth then { p with spans := p.spans + 1 } else p)
      exact ⟨.cons (.node hs) hlater.done, hlater.progress, hlater.finished⟩
    | gap =>
      have hlater := ih p
      exact ⟨.cons .gap hlater.done, hlater.progress, hlater.finished⟩

theorem Paint.row_alike {γ : Type} (look : Span → γ) {paint : Paint α} {paint' : Paint β}
    (hspan : ∀ {s : Slot α} {s' : Slot β}, s.Alike s' →
      look (paint.span s) = look (paint'.span s'))
    (hkept : ∀ {s : Slot α} {s' : Slot β}, s.Alike s' → ∀ depth,
      paint.filters.accepts depth (paint.span s) s.tree.weight =
        paint'.filters.accepts depth (paint'.span s') s'.tree.weight)
    (depth : Nat) (h : List.Forall₂ Step.Alike steps steps') :
    (paint.row depth steps).map look = (paint'.row depth steps').map look := by
  have hstep : ∀ step step', Step.Alike step step' →
      (paint.stepSpan? depth step).map look = (paint'.stepSpan? depth step').map look := by
    rintro step step' (_ | hs | _)
    · rfl
    · rw [stepSpan?, stepSpan?, hkept hs]
      split
      · exact congrArg some (hspan hs)
      · rfl
    · rfl
  rw [row, row, List.map_filterMap, List.map_filterMap]
  induction h with
  | nil => rfl
  | cons hs _ ih => rw [List.filterMap_cons, List.filterMap_cons, hstep _ _ hs, ih]

end Rows

end StackProfile
