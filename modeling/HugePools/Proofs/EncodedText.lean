import HugePools.Proofs.Results
import HugePools.Utf8

/-! Text as UTF-8 and back. What is encoded is decoded to itself, whatever follows it. -/
namespace HugePools.Utf8

theorem byteValue {n : Nat} (small : n < 256) : (UInt8.ofNat n).toNat = n := by
  rw [UInt8.toNat_ofNat']
  omega

theorem charRange (c : Char) : c.toNat < 0xD800 ∨ 0xDFFF < c.toNat ∧ c.toNat < 0x110000 := c.valid

theorem tailIff {b : UInt8} : tail b = true ↔ 0x80 ≤ b.toNat ∧ b.toNat ≤ 0xBF := by
  simp [tail, UInt8.le_iff_toNat_le]

theorem leadIff {a b c : UInt8} :
    (a ≤ b && b ≤ c) = true ↔ a.toNat ≤ b.toNat ∧ b.toNat ≤ c.toNat := by
  simp [UInt8.le_iff_toNat_le]

theorem secondOk {a b : UInt8} (next : tail b = true) (low : a.toNat = 0xE0 → 0xA0 ≤ b.toNat)
    (surrogate : a.toNat = 0xED → b.toNat ≤ 0x9F) (lower : a.toNat = 0xF0 → 0x90 ≤ b.toNat)
    (beyond : a.toNat = 0xF4 → b.toNat ≤ 0x8F) : second a b = true := by
  have range := tailIff.mp next
  unfold second
  simp only [← UInt8.toNat_inj] at *
  split
  · rename_i same
    exact leadIff.mpr ⟨low same, range.2⟩
  · split
    · rename_i same
      exact leadIff.mpr ⟨range.1, surrogate same⟩
    · split
      · rename_i same
        exact leadIff.mpr ⟨lower same, range.2⟩
      · split
        · rename_i same
          exact leadIff.mpr ⟨range.1, beyond same⟩
        · exact next

theorem tailCarries (n : Nat) : (UInt8.ofNat (n % 0x40 + 0x80)).toNat = n % 64 + 128 ∧
    tail (UInt8.ofNat (n % 0x40 + 0x80)) = true ∧ low (UInt8.ofNat (n % 0x40 + 0x80)) = n % 64 := by
  have value := byteValue (n := n % 0x40 + 0x80) (by omega)
  refine ⟨value, tailIff.mpr (by omega), ?_⟩
  unfold low
  omega

theorem stepOne {c : Char} (one : c.toNat ≤ 0x7F) (rest : List UInt8) :
    step (UInt8.ofNat c.toNat :: rest) = some (c, rest) := by
  have value := byteValue (n := c.toNat) (by omega)
  have below : UInt8.ofNat c.toNat < 0x80 := by
    rw [UInt8.lt_iff_toNat_lt, value]
    exact Nat.lt_succ_of_le one
  simp only [step, if_pos below, value, Char.ofNat_toNat]

theorem stepTwo {c : Char} (above : 0x7F < c.toNat) (two : c.toNat ≤ 0x7FF) (rest : List UInt8) :
    step (UInt8.ofNat (c.toNat / 64 % 0x20 + 0xC0) ::
      UInt8.ofNat (c.toNat % 0x40 + 0x80) :: rest) = some (c, rest) := by
  have first := byteValue (n := c.toNat / 64 % 0x20 + 0xC0) (by omega)
  obtain ⟨_, next, bits⟩ := tailCarries c.toNat
  generalize UInt8.ofNat (c.toNat / 64 % 0x20 + 0xC0) = a at *
  have notOne : ¬ a < 0x80 := by
    simp [UInt8.lt_iff_toNat_lt]
    omega
  have lead : (0xC2 ≤ a && a ≤ 0xDF) = true := leadIff.mpr (by simp; omega)
  have value : (a.toNat - 0xC0) * 64 + c.toNat % 64 = c.toNat := by omega
  simp only [step, if_neg notOne, if_pos lead, if_pos next, bits, value, Char.ofNat_toNat]

theorem stepThree {c : Char} (above : 0x7FF < c.toNat) (three : c.toNat ≤ 0xFFFF)
    (rest : List UInt8) : step (UInt8.ofNat (c.toNat / 4096 % 0x10 + 0xE0) ::
      UInt8.ofNat (c.toNat / 64 % 0x40 + 0x80) :: UInt8.ofNat (c.toNat % 0x40 + 0x80) :: rest) =
        some (c, rest) := by
  have range := charRange c
  have first := byteValue (n := c.toNat / 4096 % 0x10 + 0xE0) (by omega)
  obtain ⟨middle, inner, bits⟩ := tailCarries (c.toNat / 64)
  obtain ⟨_, last, lowest⟩ := tailCarries c.toNat
  generalize UInt8.ofNat (c.toNat / 4096 % 0x10 + 0xE0) = a at *
  have notOne : ¬ a < 0x80 := by
    simp [UInt8.lt_iff_toNat_lt]
    omega
  have notTwo : ¬ (0xC2 ≤ a && a ≤ 0xDF) = true := mt leadIff.mp (by simp; omega)
  have lead : (0xE0 ≤ a && a ≤ 0xEF) = true := leadIff.mpr (by simp; omega)
  have next := secondOk (a := a) inner (by omega) (by omega) (by omega) (by omega)
  have value : ((a.toNat - 0xE0) * 64 + c.toNat / 64 % 64) * 64 + c.toNat % 64 = c.toNat := by
    omega
  simp only [step, if_neg notOne, if_neg notTwo, if_pos lead, next, last, Bool.and_self, if_true,
    bits, lowest, value, Char.ofNat_toNat]

theorem stepFour {c : Char} (above : 0xFFFF < c.toNat) (rest : List UInt8) :
    step (UInt8.ofNat (c.toNat / 262144 % 0x08 + 0xF0) ::
      UInt8.ofNat (c.toNat / 4096 % 0x40 + 0x80) :: UInt8.ofNat (c.toNat / 64 % 0x40 + 0x80) ::
        UInt8.ofNat (c.toNat % 0x40 + 0x80) :: rest) = some (c, rest) := by
  have range := charRange c
  have first := byteValue (n := c.toNat / 262144 % 0x08 + 0xF0) (by omega)
  obtain ⟨upper, inner, high⟩ := tailCarries (c.toNat / 4096)
  obtain ⟨_, middle, bits⟩ := tailCarries (c.toNat / 64)
  obtain ⟨_, last, lowest⟩ := tailCarries c.toNat
  generalize UInt8.ofNat (c.toNat / 262144 % 0x08 + 0xF0) = a at *
  have notOne : ¬ a < 0x80 := by
    simp [UInt8.lt_iff_toNat_lt]
    omega
  have notTwo : ¬ (0xC2 ≤ a && a ≤ 0xDF) = true := mt leadIff.mp (by simp; omega)
  have notThree : ¬ (0xE0 ≤ a && a ≤ 0xEF) = true := mt leadIff.mp (by simp; omega)
  have lead : (0xF0 ≤ a && a ≤ 0xF4) = true := leadIff.mpr (by simp; omega)
  have next := secondOk (a := a) inner (by omega) (by omega) (by omega) (by omega)
  have value : (((a.toNat - 0xF0) * 64 + c.toNat / 4096 % 64) * 64 + c.toNat / 64 % 64) * 64 +
      c.toNat % 64 = c.toNat := by
    omega
  simp only [step, if_neg notOne, if_neg notTwo, if_neg notThree, if_pos lead, next, middle, last,
    Bool.and_self, if_true, high, bits, lowest, value, Char.ofNat_toNat]

theorem stepEncoded (c : Char) (rest : List UInt8) :
    step (String.utf8EncodeChar c ++ rest) = some (c, rest) := by
  fun_cases String.utf8EncodeChar c with
  | case1 v one => exact stepOne one rest
  | case2 v more two => exact stepTwo (Nat.lt_of_not_le more) two rest
  | case3 v _ more three => exact stepThree (Nat.lt_of_not_le more) three rest
  | case4 v _ _ more => exact stepFour (Nat.lt_of_not_le more) rest

theorem decodeFromEncoded (index : Nat) (s : List Char) : decodeFrom index (encode s) = .ok s := by
  induction s generalizing index with
  | nil =>
    unfold decodeFrom
    rfl
  | cons c rest ih =>
    have taken : step (encode (c :: rest)) = some (c, encode rest) := stepEncoded c (encode rest)
    have long : encode (c :: rest) ≠ [] := by
      intro none
      have empty : String.utf8EncodeChar c = [] := (List.append_eq_nil_iff.mp none).1
      exact String.utf8EncodeChar_ne_nil empty
    unfold decodeFrom
    rw [if_neg long]
    split
    · rename_i none
      cases taken.symm.trans none
    · rename_i d others found
      cases taken.symm.trans found
      rw [ih]
      rfl

theorem encodeAppend (s t : List Char) : encode (s ++ t) = encode s ++ encode t :=
  List.flatMap_append

theorem decodeEncode (s : List Char) : decode (encode s) = .ok s := decodeFromEncoded 0 s

end HugePools.Utf8
