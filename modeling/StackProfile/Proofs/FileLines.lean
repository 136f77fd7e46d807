import Mathlib.Data.List.Perm.Basic
import StackProfile.Proofs.FoldedLines

/-!
# Lines of a file

A line feed byte only encodes a line feed, so decoding a file is decoding its lines.
-/

namespace StackProfile

namespace Utf8

def encode (cs : List Char) : List UInt8 := cs.flatMap String.utf8EncodeChar

theorem encode_append (cs ds : List Char) : encode (cs ++ ds) = encode cs ++ encode ds :=
  List.flatMap_append

theorem encode_cons (c : Char) (cs : List Char) :
    encode (c :: cs) = String.utf8EncodeChar c ++ encode cs := List.flatMap_cons

@[simp] theorem encode_lineFeed : String.utf8EncodeChar '\n' = [10] := by decide

theorem decode_eq_ok {bytes : ByteArray} {text : String} :
    decode bytes = .ok text ↔ text.toUTF8 = bytes := by
  unfold decode String.fromUTF8? String.toUTF8
  constructor
  · intro h
    split at h
    · next s hs =>
      cases h
      split at hs
      · cases hs; rfl
      · cases hs
    · cases h
  · rintro rfl
    rw [dif_pos text.isValidUTF8]
    rfl

theorem toUTF8_eq (text : String) : text.toUTF8 = (encode text.toList).toByteArray := by
  conv_lhs => rw [← String.ofList_toList (s := text)]
  exact String.toByteArray_ofList

/-! ## Line feeds -/

/-- A line feed byte occurs in no other character. -/
theorem eq_lineFeed {c : Char} (h : 10 ∈ String.utf8EncodeChar c) : c = '\n' := by
  have hbyte : ∀ n : Nat, 10 = UInt8.ofNat n → n % 256 = 10 := fun n hn => by
    simpa using (congrArg UInt8.toNat hn).symm
  have hc : c.val.toNat = 10 := by
    unfold String.utf8EncodeChar at h
    simp only at h
    split at h
    · have := hbyte _ (List.mem_singleton.mp h)
      omega
    · split at h
      · simp only [List.mem_cons, List.not_mem_nil, or_false] at h
        rcases h with h | h <;> have := hbyte _ h <;> omega
      · split at h
        · simp only [List.mem_cons, List.not_mem_nil, or_false] at h
          rcases h with h | h | h <;> have := hbyte _ h <;> omega
        · simp only [List.mem_cons, List.not_mem_nil, or_false] at h
          rcases h with h | h | h | h <;> have := hbyte _ h <;> omega
  exact Char.ext (UInt32.toNat_inj.mp hc)

/-- Splitting at a line feed commutes with encoding. -/
theorem encode_eq_append {cs : List Char} {before after : List UInt8}
    (h : encode cs = before ++ 10 :: after) :
    ∃ ds es, cs = ds ++ '\n' :: es ∧ encode ds = before ∧ encode es = after := by
  induction cs generalizing before with
  | nil => simp [encode] at h
  | cons c cs ih =>
    rw [encode_cons] at h
    rcases List.append_eq_append_iff.mp h with ⟨rest, rfl, hrest⟩ | ⟨rest, hc, hrest⟩
    · obtain ⟨ds, es, rfl, rfl, hes⟩ := ih hrest
      exact ⟨c :: ds, es, rfl, encode_cons c ds, hes⟩
    · cases rest with
      | nil =>
        have hrest : encode cs = [] ++ 10 :: after := hrest.symm
        obtain ⟨ds, es, rfl, hds, hes⟩ := ih hrest
        rw [List.append_nil] at hc
        exact ⟨c :: ds, es, rfl, by rw [encode_cons, hds, hc, List.append_nil], hes⟩
      | cons b rest =>
        obtain ⟨rfl, rfl⟩ := List.cons.inj hrest
        have hfeed : c = '\n' := eq_lineFeed (by rw [hc]; simp)
        subst hfeed
        rw [encode_lineFeed] at hc
        cases before with
        | nil =>
          obtain ⟨-, rfl⟩ := List.cons.inj hc
          exact ⟨[], cs, rfl, rfl, rfl⟩
        | cons b before => simp at hc

end Utf8

/-! ## Files of lines -/

namespace Folded

open Utf8 (encode decode)

def fileOf (lines : List (List UInt8)) : ByteArray := ([10].intercalate lines).toByteArray

def Encode (lines : List (List UInt8)) (texts : List (List Char)) : Prop :=
  List.Forall₂ (fun line cs => encode cs = line) lines texts

theorem encode_intercalate {lines : List (List UInt8)} {texts : List (List Char)}
    (h : Encode lines texts) :
    encode (['\n'].intercalate texts) = [10].intercalate lines := by
  induction h with
  | nil => rfl
  | @cons line cs lines texts hline hrest ih =>
    cases hrest with
    | nil => rw [List.intercalate_singleton, List.intercalate_singleton, hline]
    | cons =>
      rw [List.intercalate_cons_cons, List.intercalate_cons_cons, Utf8.encode_append,
        Utf8.encode_append, hline, ih]
      rfl

theorem exists_encode {lines : List (List UInt8)} {cs : List Char}
    (h : encode cs = [10].intercalate lines) :
    ∃ texts, Encode lines texts ∧ cs = ['\n'].intercalate texts := by
  induction lines generalizing cs with
  | nil =>
    cases cs with
    | nil => exact ⟨[], .nil, rfl⟩
    | cons c cs =>
      have hlength := congrArg List.length h
      have hpos := c.utf8Size_pos
      rw [Utf8.encode_cons, List.length_append, String.length_utf8EncodeChar] at hlength
      simp at hlength
      omega
  | cons line lines ih =>
    cases lines with
    | nil =>
      rw [List.intercalate_singleton] at h
      exact ⟨[cs], .cons h .nil, List.intercalate_singleton.symm⟩
    | cons next lines =>
      rw [List.intercalate_cons_cons, List.append_assoc, List.singleton_append] at h
      obtain ⟨ds, es, rfl, hds, hes⟩ := Utf8.encode_eq_append h
      obtain ⟨texts, htexts, rfl⟩ := ih hes
      refine ⟨ds :: texts, .cons hds htexts, ?_⟩
      cases htexts with
      | cons => rw [List.intercalate_cons_cons, List.append_assoc, List.singleton_append]

/-- A file is text iff its lines are. -/
theorem decode_fileOf {lines : List (List UInt8)} {text : String} :
    decode (fileOf lines) = .ok text ↔
      ∃ texts, Encode lines texts ∧ text.toList = ['\n'].intercalate texts := by
  rw [Utf8.decode_eq_ok, Utf8.toUTF8_eq, fileOf, List.toByteArray_inj]
  constructor
  · exact exists_encode
  · rintro ⟨texts, htexts, htext⟩
    rw [htext, encode_intercalate htexts]

theorem stacksOf_intercalate (texts : List (List Char)) :
    stacksOf (['\n'].intercalate texts) = texts.flatMap stacksOf := by
  induction texts with
  | nil => rfl
  | cons cs texts ih =>
    cases texts with
    | nil => simp
    | cons ds texts =>
      rw [List.intercalate_cons_cons, List.append_assoc, List.singleton_append, stacksOf_append, ih]
      exact List.flatMap_cons.symm

/-- Permuting lines keeps a file readable as text, and permutes its stacks. -/
theorem decode_fileOf_perm {lines lines' : List (List UInt8)} (h : lines.Perm lines')
    {text : String} (htext : decode (fileOf lines) = .ok text) :
    ∃ text', decode (fileOf lines') = .ok text' ∧
      (stacksOf text.toList).Perm (stacksOf text'.toList) := by
  obtain ⟨texts, htexts, hlist⟩ := decode_fileOf.mp htext
  obtain ⟨texts', htexts', hperm⟩ := List.perm_comp_forall₂ h.symm htexts
  refine ⟨String.ofList (['\n'].intercalate texts'), decode_fileOf.mpr
    ⟨texts', htexts', String.toList_ofList⟩, ?_⟩
  rw [hlist, String.toList_ofList, stacksOf_intercalate, stacksOf_intercalate]
  exact hperm.symm.flatMap_right stacksOf

end Folded

end StackProfile
