import Mathlib.Data.List.TakeDrop
import StackProfile.Command.Invocation
import StackProfile.Proofs.JsonText
import StackProfile.Query

/-!
# Patterns by depth

The filters of a query are stored under decimal depths, sorted as texts, and read sorted by depth.
In the 64-bit range, depths and their texts are one to one.
-/

namespace StackProfile

/-! ## Decimal depths -/

namespace Text

theorem trim_of_forall {cs : List Char} (h : ∀ c ∈ cs, ¬ isSpace c) : trim cs = cs := by
  have hstart : ∀ {ds : List Char}, (∀ c ∈ ds, ¬ isSpace c) → ds.dropWhile isSpace = ds := by
    intro ds hds
    cases ds with
    | nil => rfl
    | cons d ds => rw [List.dropWhile_cons_of_neg (hds d List.mem_cons_self)]
  have hend : ∀ c ∈ cs.reverse, ¬ isSpace c := fun c hc => h c (List.mem_reverse.mp hc)
  rw [trim, hstart h, dropEndWhile, hstart hend, List.reverse_reverse]

theorem mem_toString {n : Int} {c : Char} (h : c ∈ (toString n).toList) :
    c = '-' ∨ c.isDigit := by
  have hdigits : ∀ {m : Nat}, c ∈ Nat.toDigits 10 m → c.isDigit := fun hc =>
    Nat.isDigit_of_mem_toDigits (by decide) (by decide) hc
  cases n with
  | ofNat m =>
    rw [Json.toList_ofNat] at h
    exact .inr (hdigits h)
  | negSucc m =>
    rw [Json.toList_negSucc] at h
    exact (List.mem_cons.mp h).imp_right hdigits

theorem not_isSpace_of_isDigit {c : Char} (h : c.isDigit) : ¬ isSpace c := by
  have hrange : 48 ≤ c.toNat ∧ c.toNat ≤ 57 := by
    simpa [Char.isDigit, Char.le_def, UInt32.le_iff_toNat_le] using h
  simp only [isSpace, Bool.or_eq_true, Bool.and_eq_true, decide_eq_true_eq, beq_iff_eq]
  omega

theorem foldl_toDigits (n : Nat) :
    (Nat.toDigits 10 n).foldl (fun n c => 10 * n + (c.toNat - 48)) 0 = n := by
  induction n using Nat.strongRecOn with
  | _ n ih =>
    have hdigit : ∀ d < 10, (Nat.digitChar d).toNat - 48 = d := by decide
    rcases Json.toDigits_cases n with ⟨hn, hdigits⟩ | ⟨hn, hdigits⟩
    · rw [hdigits, List.foldl_cons, List.foldl_nil, hdigit n hn]
      omega
    · rw [hdigits, List.foldl_append, ih (n / 10) (by omega), List.foldl_cons, List.foldl_nil,
        hdigit (n % 10) (by omega)]
      omega

theorem readNat?_toDigits (n : Nat) : readNat? (Nat.toDigits 10 n) = some n := by
  have hne : (Nat.toDigits 10 n).isEmpty = false :=
    List.isEmpty_eq_false_iff.mpr Nat.toDigits_ne_nil
  have hall : (Nat.toDigits 10 n).all Char.isDigit = true :=
    List.all_eq_true.mpr fun c hc => Nat.isDigit_of_mem_toDigits (by decide) (by decide) hc
  rw [readNat?, hne, hall, foldl_toDigits]
  rfl

theorem readSigned?_toString (n : Int) : readSigned? (toString n).toList = some n := by
  cases n with
  | ofNat m =>
    obtain ⟨c, cs, hcs, hc⟩ := Json.exists_toDigits m
    have hread := readNat?_toDigits m
    rw [Json.toList_ofNat]
    rw [hcs] at hread ⊢
    unfold readSigned?
    split
    · next heq => exact absurd ((List.cons.inj heq).1 ▸ hc) (by decide)
    · next heq => exact absurd ((List.cons.inj heq).1 ▸ hc) (by decide)
    · rw [hread]
      rfl
  | negSucc m =>
    rw [Json.toList_negSucc, readSigned?, readNat?_toDigits]
    rfl

/-- A decimal integer in range is read back, trimmed first. -/
theorem readInt?_toString {n : Int} (h : minTime ≤ n ∧ n ≤ maxTime) :
    readInt? (trim (toString n).toList) = some n := by
  have htrim : trim (toString n).toList = (toString n).toList := by
    refine trim_of_forall fun c hc => ?_
    rcases mem_toString hc with rfl | hdigit
    · decide
    · exact not_isSpace_of_isDigit hdigit
  rw [htrim, readInt?, readSigned?_toString, Option.filter_some, if_pos (by simpa using h)]

theorem toString_injective {n m : Int} (h : toString n = toString m) : n = m := by
  have hn := readSigned?_toString n
  rw [h, readSigned?_toString] at hn
  exact (Option.some.inj hn).symm

end Text

def Command.filterText (f : Int × String) : String := toString f.1 ++ "=" ++ f.2

/-- A filter is read back from its text. Only the first `=` ends the depth. -/
theorem Command.readFilter_filterText {f : Int × String} (h : minTime ≤ f.1 ∧ f.1 ≤ maxTime) :
    readFilter (filterText f) = .ok f := by
  have hkeep : ∀ c ∈ (toString f.1).toList, (c != '=') = true := by
    intro c hc
    rcases Text.mem_toString hc with rfl | hdigit
    · decide
    · exact bne_iff_ne.mpr fun heq => absurd (heq ▸ hdigit) (by decide)
  have htext : (filterText f).toList = (toString f.1).toList ++ '=' :: f.2.toList := by
    rw [filterText, String.toList_append, String.toList_append]
    simp
  have hspan : (filterText f).toList.span (· != '=') =
      ((toString f.1).toList, '=' :: f.2.toList) := by
    rw [htext, List.span_eq_takeWhile_dropWhile, List.takeWhile_append_of_pos hkeep,
      List.dropWhile_append_of_pos hkeep]
    simp
  rw [readFilter, hspan]
  simp only [Text.readInt?_toString h, String.ofList_toList]

/-! ## Sorted maps -/

section Maps

variable {κ β : Type} [LT κ]

/-- Strictly sorted by key. -/
def Ascending (kvs : List (κ × β)) : Prop := kvs.Pairwise fun a b => a.1 < b.1

variable [DecidableLT κ] [DecidableEq κ]

def updateAt (key : κ) (f : Option β → β) : List (κ × β) → List (κ × β)
  | [] => [(key, f none)]
  | (k, v) :: rest =>
    if key < k then (key, f none) :: (k, v) :: rest
    else if key = k then (k, f (some v)) :: rest
    else (k, v) :: updateAt key f rest

theorem setKey_eq_updateAt (key : String) (value : β) (kvs : List (String × β)) :
    setKey key value kvs = updateAt key (fun _ => value) kvs := by
  induction kvs with
  | nil => rfl
  | cons kv kvs ih =>
    unfold setKey updateAt
    split
    · rfl
    · split
      · next hsame => rw [hsame]
      · rw [ih]

variable {key k : κ} {f : Option β → β} {kv : κ × β} {kvs : List (κ × β)}

omit [LT κ] [DecidableLT κ] in
theorem lookup_cons_ite (k : κ) (kv : κ × β) (kvs : List (κ × β)) :
    (kv :: kvs).lookup k = if k = kv.1 then some kv.2 else kvs.lookup k := by
  rw [List.lookup_cons]
  by_cases hk : k = kv.1
  · simp [hk]
  · simp [hk, beq_eq_false_iff_ne.mpr hk]

theorem mem_updateAt (h : kv ∈ updateAt key f kvs) :
    (kv.1 = key ∧ ∃ o, kv.2 = f o) ∨ kv ∈ kvs := by
  induction kvs with
  | nil => exact .inl (List.mem_singleton.mp h ▸ ⟨rfl, none, rfl⟩)
  | cons a kvs ih =>
    unfold updateAt at h
    split at h
    · rcases List.mem_cons.mp h with rfl | h
      · exact .inl ⟨rfl, none, rfl⟩
      · exact .inr h
    · split at h
      · next hsame =>
        rcases List.mem_cons.mp h with rfl | h
        · exact .inl ⟨hsame.symm, _, rfl⟩
        · exact .inr (List.mem_cons_of_mem _ h)
      · rcases List.mem_cons.mp h with rfl | h
        · exact .inr List.mem_cons_self
        · exact (ih h).imp_right (List.mem_cons_of_mem _)

theorem lookup_updateAt_of_ne (hk : k ≠ key) : (updateAt key f kvs).lookup k = kvs.lookup k := by
  induction kvs with
  | nil => rw [updateAt, lookup_cons_ite, if_neg hk]
  | cons a kvs ih =>
    unfold updateAt
    split
    · rw [lookup_cons_ite, if_neg hk]
    · split
      · next hsame =>
        have hk : k ≠ a.1 := hsame ▸ hk
        rw [lookup_cons_ite, lookup_cons_ite, if_neg hk, if_neg hk]
      · rw [lookup_cons_ite, lookup_cons_ite, ih]

variable [LE κ] [Std.IsLinearOrder κ] [Std.LawfulOrderLT κ]

omit [DecidableLT κ] [Std.IsLinearOrder κ] in
theorem lookup_eq_none_of_lt (h : ∀ a ∈ kvs, key < a.1) : kvs.lookup key = none := by
  rw [List.lookup_eq_none_iff]
  intro a ha
  rw [bne_iff_ne]
  rintro rfl
  exact Std.lt_irrefl (h a ha)

theorem lookup_updateAt_self (h : Ascending kvs) :
    (updateAt key f kvs).lookup key = some (f (kvs.lookup key)) := by
  induction kvs with
  | nil => rw [updateAt, lookup_cons_ite, if_pos rfl]; rfl
  | cons a kvs ih =>
    obtain ⟨ha, hkvs⟩ := List.pairwise_cons.mp h
    unfold updateAt
    split
    · next hbefore =>
      have hnone : (a :: kvs).lookup key = none := lookup_eq_none_of_lt
        (List.forall_mem_cons.mpr ⟨hbefore, fun b hb => Std.lt_trans hbefore (ha b hb)⟩)
      rw [lookup_cons_ite, if_pos rfl, hnone]
    · split
      · next hsame => rw [lookup_cons_ite, lookup_cons_ite, if_pos hsame, if_pos hsame]
      · next hother => rw [lookup_cons_ite, lookup_cons_ite, if_neg hother, if_neg hother, ih hkvs]

theorem Ascending.updateAt (h : Ascending kvs) : Ascending (updateAt key f kvs) := by
  induction kvs with
  | nil => exact List.pairwise_singleton ..
  | cons a kvs ih =>
    obtain ⟨ha, hkvs⟩ := List.pairwise_cons.mp h
    unfold StackProfile.updateAt
    split
    · next hbefore =>
      refine List.pairwise_cons.mpr ⟨List.forall_mem_cons.mpr ⟨hbefore, fun b hb => ?_⟩, h⟩
      exact Std.lt_trans hbefore (ha b hb)
    · split
      · exact List.pairwise_cons.mpr ⟨ha, hkvs⟩
      · next hbefore hother =>
        have hafter : a.1 < key := Std.lt_of_le_of_ne (Std.not_lt.mp hbefore) (Ne.symm hother)
        refine List.pairwise_cons.mpr ⟨fun b hb => ?_, ih hkvs⟩
        rcases mem_updateAt hb with ⟨heq, -⟩ | hb
        · exact heq ▸ hafter
        · exact ha b hb

end Maps

/-! ## Reading -/

namespace Query

variable {found fs : List (Int × List String)} {depth d : Int} {ps : List String}

theorem addPatterns_eq_updateAt (depth : Int) (ps : List String) (m : List (Int × List String)) :
    addPatterns depth ps m = updateAt depth (fun o => o.getD [] ++ ps) m := by
  induction m with
  | nil => rfl
  | cons a m ih =>
    unfold addPatterns updateAt
    split
    · rfl
    · split
      · rfl
      · rw [ih]

theorem lookup_addPatterns (h : Ascending found) :
    (addPatterns depth ps found).lookup d =
      if d = depth then some ((found.lookup d).getD [] ++ ps) else found.lookup d := by
  rw [addPatterns_eq_updateAt]
  split
  · next hd => rw [hd, lookup_updateAt_self h]
  · next hd => rw [lookup_updateAt_of_ne hd]

/-- All patterns for `d`, in order. -/
def joined (d : Int) : List (Int × List String) → Option (List String)
  | [] => none
  | f :: fs => if d = f.1 then some (f.2 ++ (joined d fs).getD []) else joined d fs

theorem joined_eq_lookup (h : fs.Pairwise fun a b => a.1 ≠ b.1) (d : Int) :
    joined d fs = fs.lookup d := by
  induction fs with
  | nil => rfl
  | cons f fs ih =>
    obtain ⟨hf, hfs⟩ := List.pairwise_cons.mp h
    rw [joined, lookup_cons_ite, ih hfs]
    split
    · next hd =>
      have hnone : fs.lookup d = none := by
        rw [List.lookup_eq_none_iff]
        exact fun a ha => bne_iff_ne.mpr (hd ▸ hf a ha)
      rw [hnone, Option.getD_none, List.append_nil]
    · rfl

theorem foldl_addPatterns (h : Ascending found) :
    Ascending (fs.foldl (fun m f => addPatterns f.1 f.2 m) found) ∧
      ∀ d, (fs.foldl (fun m f => addPatterns f.1 f.2 m) found).lookup d =
        (joined d fs).elim (found.lookup d) fun ps => some ((found.lookup d).getD [] ++ ps) := by
  induction fs generalizing found with
  | nil => exact ⟨h, fun d => rfl⟩
  | cons f fs ih =>
    have hnext : Ascending (addPatterns f.1 f.2 found) := by
      rw [addPatterns_eq_updateAt]
      exact h.updateAt
    obtain ⟨hascending, hlookup⟩ := ih hnext
    refine ⟨hascending, fun d => ?_⟩
    rw [List.foldl_cons, hlookup, lookup_addPatterns h, joined]
    by_cases hd : d = f.1
    · rw [if_pos hd, if_pos hd]
      cases joined d fs <;> simp
    · rw [if_neg hd, if_neg hd]

def patternsJson (ps : List String) : Json := .arr (ps.map .str)

theorem patternsOf_patternsJson (ps : List String) : patternsOf (patternsJson ps) = some ps := by
  simp only [patternsOf, patternsJson, List.mapM_map]
  exact (List.mapM_pure (m := Option) (f := id)).trans (congrArg some (List.map_id ps))

theorem patternsJson_injective {ps qs : List String} (h : patternsJson ps = patternsJson qs) :
    ps = qs := by
  have hps := patternsOf_patternsJson ps
  rw [h, patternsOf_patternsJson] at hps
  exact (Option.some.inj hps).symm

def stored (fs : List (Int × List String)) : List (String × Json) :=
  fs.map fun f => (toString f.1, patternsJson f.2)

theorem lookup_stored (d : Int) :
    (stored fs).lookup (toString d) = (fs.lookup d).map patternsJson := by
  induction fs with
  | nil => rfl
  | cons f fs ih =>
    rw [stored, List.map_cons, lookup_cons_ite, lookup_cons_ite, ← stored, ih]
    by_cases hd : d = f.1
    · rw [if_pos hd, if_pos (congrArg toString hd)]
      rfl
    · rw [if_neg hd, if_neg fun heq => hd (Text.toString_injective heq)]

theorem readFilters_stored (h : ∀ f ∈ fs, minTime ≤ f.1 ∧ f.1 ≤ maxTime) :
    readFilters found (stored fs) =
      .ok (fs.foldl (fun m f => addPatterns f.1 f.2 m) found) := by
  induction fs generalizing found with
  | nil => rfl
  | cons f fs ih =>
    obtain ⟨hf, hfs⟩ := List.forall_mem_cons.mp h
    rw [stored, List.map_cons, readFilters]
    simp only [Text.readInt?_toString hf, patternsOf_patternsJson]
    exact ih hfs

end Query

end StackProfile
