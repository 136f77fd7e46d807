import StackProfile.Layout
import StackProfile.Span

/-!
# Tilings

`Tiles a xs b`: the intervals `xs` are consecutive from `a` to `b`.
-/

namespace StackProfile

/-- Consecutive intervals from `a` to `b`. -/
def Tiles : Int → List (Int × Int) → Int → Prop
  | a, [], b => a = b
  | a, x :: xs, b => x.1 = a ∧ a ≤ x.2 ∧ Tiles x.2 xs b

def Slot.extent {α : Type} (s : Slot α) : Int × Int := (s.start, s.finish)

theorem Slot.covers_iff {α : Type} {s : Slot α} {time : Int} :
    s.covers time ↔ s.start ≤ time ∧ time < s.finish := by simp [covers]

def Span.extent (s : Span) : Int × Int := (s.start, s.finish)

namespace Tiles

variable {a b c t : Int} {x : Int × Int} {xs ys : List (Int × Int)}

theorem le (h : Tiles a xs b) : a ≤ b := by
  induction xs generalizing a with
  | nil => exact Int.le_of_eq h
  | cons x xs ih =>
    obtain ⟨-, hx, hxs⟩ := h
    have := ih hxs
    omega

theorem append (h1 : Tiles a xs b) (h2 : Tiles b ys c) : Tiles a (xs ++ ys) c := by
  induction xs generalizing a with
  | nil => obtain rfl := h1; exact h2
  | cons x xs ih =>
    obtain ⟨hx, hle, hxs⟩ := h1
    exact ⟨hx, hle, ih hxs⟩

theorem mem_within (h : Tiles a xs b) (hx : x ∈ xs) : a ≤ x.1 ∧ x.1 ≤ x.2 ∧ x.2 ≤ b := by
  induction xs generalizing a with
  | nil => cases hx
  | cons y ys ih =>
    obtain ⟨hy, hle, hys⟩ := h
    have hb := hys.le
    rcases List.mem_cons.mp hx with rfl | hx
    · omega
    · have := ih hys hx
      omega

theorem pairwise (h : Tiles a xs b) : xs.Pairwise fun x y => x.1 ≤ y.1 ∧ x.2 ≤ y.1 := by
  induction xs generalizing a with
  | nil => exact .nil
  | cons x xs ih =>
    obtain ⟨hx, hle, hxs⟩ := h
    refine .cons (fun y hy => ?_) (ih hxs)
    have := hxs.mem_within hy
    omega

theorem exists_mem (h : Tiles a xs b) (ha : a ≤ t) (hb : t < b) :
    ∃ x ∈ xs, x.1 ≤ t ∧ t < x.2 := by
  induction xs generalizing a with
  | nil =>
    have : a = b := h
    omega
  | cons x xs ih =>
    obtain ⟨hx, -, hxs⟩ := h
    by_cases ht : t < x.2
    · exact ⟨x, List.mem_cons_self, by omega, ht⟩
    · obtain ⟨y, hy, hty⟩ := ih hxs (by omega)
      exact ⟨y, List.mem_cons_of_mem _ hy, hty⟩

/-- Tilings compose. -/
theorem flatMap {ι : Type} {l : List ι} {outer : ι → Int × Int} {inner : ι → List (Int × Int)}
    (h : Tiles a (l.map outer) b) (hi : ∀ i ∈ l, Tiles (outer i).1 (inner i) (outer i).2) :
    Tiles a (l.flatMap inner) b := by
  induction l generalizing a with
  | nil => exact h
  | cons i l ih =>
    obtain ⟨hx, -, hxs⟩ := h
    have hfirst := hi i List.mem_cons_self
    rw [hx] at hfirst
    exact hfirst.append (ih hxs fun j hj => hi j (List.mem_cons_of_mem _ hj))

end Tiles

end StackProfile
