import Mathlib.Data.Nat.Digits.Defs
import StackProfile.Proofs.DepthFilters
import StackProfile.Proofs.FoldedLines

/-!
# Literals of depths

`Denotes` is the grammar of depths: decimal digits, an optional sign and white space around them.
Reading decides it. A depth has many texts.
-/

namespace StackProfile.Text

/-- The value of decimal digits, most significant first. -/
def decimal (ds : List Char) : Nat := Nat.ofDigits 10 (ds.reverse.map fun d => d.toNat - '0'.toNat)

/-- Integer literals: digits with an optional sign. -/
inductive IsLiteral : List Char → Int → Prop where
  | unsigned {ds : List Char} (nonempty : ds ≠ []) (digits : ∀ d ∈ ds, d.isDigit) :
      IsLiteral ds (decimal ds)
  | plus {ds : List Char} (nonempty : ds ≠ []) (digits : ∀ d ∈ ds, d.isDigit) :
      IsLiteral ('+' :: ds) (decimal ds)
  | minus {ds : List Char} (nonempty : ds ≠ []) (digits : ∀ d ∈ ds, d.isDigit) :
      IsLiteral ('-' :: ds) (-(decimal ds : Int))

/-- A literal in the 64-bit range, with white space around it. -/
structure Denotes (cs : List Char) (n : Int) : Prop where
  literal : ∃ before word after, cs = before ++ word ++ after ∧
    (∀ c ∈ before ++ after, isSpace c) ∧ IsLiteral word n
  inRange : minTime ≤ n ∧ n ≤ maxTime

/-! ## White space -/

theorem trim_append {before word after : List Char} (hspace : ∀ c ∈ before ++ after, isSpace c) :
    trim (before ++ word ++ after) = trim word := by
  have hafter : ∀ {cs : List Char}, (∀ c ∈ cs, isSpace c) → trim (word ++ cs) = trim word := by
    intro cs hcs
    induction cs using List.reverseRecOn with
    | nil => rw [List.append_nil]
    | append_singleton cs c ih =>
      obtain ⟨hcs, hc⟩ := List.forall_mem_append.mp hcs
      rw [← List.append_assoc, trim_append_singleton (hc c List.mem_cons_self), ih hcs]
  obtain ⟨hbefore, hrest⟩ := List.forall_mem_append.mp hspace
  rw [List.append_assoc]
  clear hspace
  induction before with
  | nil => exact hafter hrest
  | cons c before ih =>
    obtain ⟨hc, hbefore⟩ := List.forall_mem_cons.mp hbefore
    rw [List.cons_append, trim_cons hc, ih hbefore]

/-- `trim` takes off white space only. -/
theorem exists_trim (cs : List Char) :
    ∃ before after, cs = before ++ trim cs ++ after ∧ ∀ c ∈ before ++ after, isSpace c := by
  let rest := cs.dropWhile isSpace
  refine ⟨cs.takeWhile isSpace, (rest.reverse.takeWhile isSpace).reverse, ?_, fun c hc => ?_⟩
  · have hrest : rest = trim cs ++ (rest.reverse.takeWhile isSpace).reverse := by
      rw [trim, dropEndWhile, ← List.reverse_append, List.takeWhile_append_dropWhile,
        List.reverse_reverse]
    rw [List.append_assoc, ← hrest]
    exact (List.takeWhile_append_dropWhile ..).symm
  · rcases List.mem_append.mp hc with hc | hc
    · exact List.all_eq_true.mp List.all_takeWhile c hc
    · exact List.all_eq_true.mp List.all_takeWhile c (List.mem_reverse.mp hc)

/-! ## Digits -/

theorem foldl_eq_decimal (ds : List Char) :
    ds.foldl (fun n d => 10 * n + (d.toNat - 48)) 0 = decimal ds := by
  induction ds using List.reverseRecOn with
  | nil => rfl
  | append_singleton ds d ih =>
    rw [List.foldl_append, ih, decimal, decimal, List.reverse_append, List.reverse_singleton,
      List.singleton_append, List.map_cons, Nat.ofDigits_cons]
    exact Nat.add_comm _ _

theorem readNat?_eq_some {ds : List Char} {n : Nat} :
    readNat? ds = some n ↔ ds ≠ [] ∧ (∀ d ∈ ds, d.isDigit) ∧ decimal ds = n := by
  have hother : (ds.isEmpty || !ds.all Char.isDigit) = true ↔
      ¬ (ds ≠ [] ∧ ∀ d ∈ ds, d.isDigit) := by
    rw [← List.all_eq_true, ← List.isEmpty_eq_false_iff]
    cases ds.isEmpty <;> cases ds.all Char.isDigit <;> decide
  rw [readNat?, foldl_eq_decimal, ← and_assoc]
  split
  · next h => simp only [hother.mp h, false_and, reduceCtorEq]
  · next h => rw [Option.some.injEq, and_iff_right (not_not.mp (mt hother.mpr h))]

theorem readSigned?_eq_some {cs : List Char} {n : Int} :
    readSigned? cs = some n ↔ IsLiteral cs n := by
  constructor
  · intro h
    unfold readSigned? at h
    split at h
    all_goals
      obtain ⟨m, hm, rfl⟩ := Option.map_eq_some_iff.mp h
      obtain ⟨k, hk, ⟨⟩⟩ := Option.bind_eq_some_iff.mp hm
      obtain ⟨hne, hdigits, rfl⟩ := readNat?_eq_some.mp hk
    · exact .minus hne hdigits
    · exact .plus hne hdigits
    · exact .unsigned hne hdigits
  · rintro (⟨hne, hdigits⟩ | ⟨hne, hdigits⟩ | ⟨hne, hdigits⟩)
    all_goals
      have hread := readNat?_eq_some.mpr ⟨hne, hdigits, rfl⟩
    · -- a digit is no sign
      unfold readSigned?
      split
      · exact absurd (hdigits '-' List.mem_cons_self) (by decide)
      · exact absurd (hdigits '+' List.mem_cons_self) (by decide)
      · rw [hread]; rfl
    · rw [readSigned?, hread]; rfl
    · rw [readSigned?, hread]; rfl

theorem not_isSpace_of_isLiteral {cs : List Char} {n : Int} (h : IsLiteral cs n) :
    ∀ c ∈ cs, ¬ isSpace c := by
  cases h with
  | unsigned _ hdigits => exact fun c hc => not_isSpace_of_isDigit (hdigits c hc)
  | plus _ hdigits =>
    exact List.forall_mem_cons.mpr
      ⟨by decide, fun c hc => not_isSpace_of_isDigit (hdigits c hc)⟩
  | minus _ hdigits =>
    exact List.forall_mem_cons.mpr
      ⟨by decide, fun c hc => not_isSpace_of_isDigit (hdigits c hc)⟩

/-- `readInt?` after `trim` decides `Denotes`. -/
theorem readInt?_trim_eq_some {cs : List Char} {n : Int} :
    readInt? (trim cs) = some n ↔ Denotes cs n := by
  rw [readInt?, Option.filter_eq_some_iff, readSigned?_eq_some]
  constructor
  · rintro ⟨hword, hrange⟩
    obtain ⟨before, after, hcs, hspace⟩ := exists_trim cs
    exact ⟨⟨before, trim cs, after, hcs, hspace, hword⟩, by simpa using hrange⟩
  · rintro ⟨⟨before, word, after, rfl, hspace, hword⟩, hrange⟩
    rw [trim_append hspace, trim_of_forall (not_isSpace_of_isLiteral hword)]
    exact ⟨hword, by simpa using hrange⟩

theorem Denotes.unique {cs : List Char} {m n : Int} (hm : Denotes cs m) (hn : Denotes cs n) :
    m = n := by
  rw [← readInt?_trim_eq_some] at hm hn
  exact Option.some.inj (hm.symm.trans hn)

/-- The depth 1 in an unusual spelling. -/
example : Denotes " +01\t".toList 1 := by
  rw [← readInt?_trim_eq_some]
  decide

end StackProfile.Text
