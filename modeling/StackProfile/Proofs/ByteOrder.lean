import StackProfile.Proofs.FileLines

/-!
# Byte order

The order of texts by characters is the order by UTF-8 bytes.
-/

namespace StackProfile.Utf8

theorem ofNat_lt_ofNat {m n : Nat} (hm : m < 256) (hn : n < 256) :
    UInt8.ofNat m < UInt8.ofNat n ↔ m < n := by
  rw [UInt8.lt_iff_toNat_lt, UInt8.toNat_ofNat_of_lt' hm, UInt8.toNat_ofNat_of_lt' hn]

theorem ofNat_inj {m n : Nat} (hm : m < 256) (hn : n < 256) :
    UInt8.ofNat m = UInt8.ofNat n ↔ m = n := by
  rw [← UInt8.toNat_inj, UInt8.toNat_ofNat_of_lt' hm, UInt8.toNat_ofNat_of_lt' hn]

theorem digits_lt {m n : Nat} (h : m < n) :
    m / 262144 < n / 262144 ∨ m / 262144 = n / 262144 ∧
      (m / 4096 % 64 < n / 4096 % 64 ∨ m / 4096 % 64 = n / 4096 % 64 ∧
        (m / 64 % 64 < n / 64 % 64 ∨ m / 64 % 64 = n / 64 % 64 ∧ m % 64 < n % 64)) := by
  have hstep : ∀ {k l : Nat}, k < l → k / 64 < l / 64 ∨ k / 64 = l / 64 ∧ k % 64 < l % 64 := by
    omega
  have hdigits : ∀ k : Nat, k / 64 / 64 = k / 4096 ∧ k / 4096 / 64 = k / 262144 := by
    omega
  rcases hstep h with h | ⟨hrest, hlast⟩
  · rcases hstep h with h | ⟨hrest, hlast⟩
    · rw [(hdigits m).1, (hdigits n).1] at h
      have hfirst := hstep h
      omega
    · omega
  · omega

theorem encodeChar_append_lt {c d : Char} (h : c < d) (xs ys : List UInt8) :
    String.utf8EncodeChar c ++ xs < String.utf8EncodeChar d ++ ys := by
  have hlt : c.val.toNat < d.val.toNat := UInt32.lt_iff_toNat_lt.mp (Char.lt_def.mp h)
  have hdigits := digits_lt hlt
  have hmax : d.val.toNat < 1114112 := by
    have hvalid := d.valid
    unfold UInt32.isValidChar Nat.isValidChar at hvalid
    omega
  have hfirst : ∀ k : Nat, k < 1114112 → k / 262144 % 8 = k / 262144 := by
    omega
  have hc := hfirst c.val.toNat (Nat.lt_trans hlt hmax)
  have hd := hfirst d.val.toNat hmax
  unfold String.utf8EncodeChar
  generalize c.val.toNat = m at *
  generalize d.val.toNat = n at *
  simp only
  split <;> split_ifs <;>
    simp (disch := omega) only [List.cons_append, List.nil_append, List.cons_lt_cons_iff,
      ofNat_lt_ofNat, ofNat_inj] <;>
    omega

/-- UTF-8 preserves the order of texts. -/
theorem encode_lt {cs ds : List Char} (h : cs < ds) : encode cs < encode ds := by
  induction h with
  | @nil d ds =>
    have hne : encode (d :: ds) ≠ [] := by
      rw [encode_cons]
      exact List.append_ne_nil_of_left_ne_nil String.utf8EncodeChar_ne_nil _
    obtain ⟨b, bs, hbs⟩ := List.exists_cons_of_ne_nil hne
    rw [hbs]
    exact List.nil_lt_cons b bs
  | @rel c cs d ds hcd =>
    rw [encode_cons, encode_cons]
    exact encodeChar_append_lt hcd _ _
  | @cons c cs ds _ ih =>
    rw [encode_cons, encode_cons]
    exact List.append_left_lt ih

end StackProfile.Utf8
