import HugePools.Integer
import HugePools.Proofs.Results

/-! Decimal text of signed integers. What is written is read back, at both ends of the
range too. -/
namespace HugePools.Integer

def signed (negative : Bool) (n : Nat) : Int := if negative then -n else n

theorem signedBetween {negative : Bool} {m n : Nat} (nearer : m ≤ n)
    (above : -0x8000000000000000 ≤ signed negative n)
    (below : signed negative n < 0x8000000000000000) :
    ¬ signed negative m < -0x8000000000000000 ∧ ¬ 0x8000000000000000 ≤ signed negative m := by
  cases negative with
  | true => simp only [signed, if_true] at *; omega
  | false => simp only [signed, Bool.false_eq_true, if_false] at *; omega

theorem signedNext (negative : Bool) (n d : Nat) :
    (if negative then signed negative n * 10 - d else signed negative n * 10 + d) =
      signed negative (10 * n + d) := by
  cases negative with
  | true => simp only [signed, if_true]; omega
  | false => simp only [signed, Bool.false_eq_true, if_false]; omega

theorem digitDecimal {c : Char} (digit : c.isDigit = true) :
    digit? 10 c = some (c.toNat - '0'.toNat) := by
  have small : c.toNat - '0'.toNat < 10 := by
    have bounds := Char.isDigit_iff_toNat.mp digit
    have zero : '0'.toNat = 48 := rfl
    have nine : '9'.toNat = 57 := rfl
    omega
  unfold digit?
  simp only [digit, if_true]
  exact if_pos small

theorem ofDigitsGrows (s : List Char) (n : Nat) : n ≤ Nat.ofDigitChars 10 s n := by
  induction s generalizing n with
  | nil => exact Nat.le_of_eq Nat.ofDigitChars_nil.symm
  | cons c rest ih =>
    have next := ih (10 * n + (c.toNat - '0'.toNat))
    rw [Nat.ofDigitChars_cons]
    omega

theorem accumulateDigits {negative : Bool} {s : List Char} (all : ∀ c ∈ s, c.isDigit = true)
    {n : Nat} (above : -0x8000000000000000 ≤ signed negative (Nat.ofDigitChars 10 s n))
    (below : signed negative (Nat.ofDigitChars 10 s n) < 0x8000000000000000) :
    accumulate 10 negative (signed negative n) s =
      .ok (signed negative (Nat.ofDigitChars 10 s n)) := by
  induction s generalizing n with
  | nil =>
    rw [Nat.ofDigitChars_nil]
    rfl
  | cons c rest ih =>
    obtain ⟨digit, others⟩ := List.forall_mem_cons.mp all
    have value := digitDecimal digit
    rw [Nat.ofDigitChars_cons] at above below ⊢
    generalize c.toNat - '0'.toNat = d at *
    have grows := ofDigitsGrows rest (10 * n + d)
    obtain ⟨low, high⟩ := signedBetween grows above below
    have later := ih others above below
    unfold accumulate
    simp only [value, Int.cast_ofNat_Int, signedNext]
    rw [if_neg low, if_neg high, later]

theorem ofDigitsPlain {s : List Char} (some : s ≠ []) (all : ∀ c ∈ s, c.isDigit = true) :
    ofDigits 10 s = (accumulate 10 false 0 s).map Int64.ofInt := by
  have plus : '+' ∉ s := fun mem => absurd (all '+' mem) (by decide)
  have minus : '-' ∉ s := fun mem => absurd (all '-' mem) (by decide)
  unfold ofDigits
  split
  · contradiction
  · exact absurd List.mem_cons_self plus
  · exact absurd List.mem_cons_self minus
  · exact absurd List.mem_cons_self plus
  · exact absurd List.mem_cons_self minus
  · rfl

theorem ofDigitsNegative {s : List Char} (some : s ≠ []) :
    ofDigits 10 ('-' :: s) = (accumulate 10 true 0 s).map Int64.ofInt := by
  cases s with
  | nil => contradiction
  | cons c rest => rfl

theorem parseDecimal {s : List Char} (all : ∀ c ∈ s, c.isDigit = true ∨ c = '-') :
    parse s = ofDigits 10 s := by
  unfold parse
  split
  · rename_i rest
    have mark := all 'x' (by simp)
    exact absurd mark (by decide)
  · rfl

theorem digitsOnly {n : Nat} : ∀ c ∈ Nat.toDigits 10 n, c.isDigit = true := fun _ mem =>
  Nat.isDigit_of_mem_toDigits (by decide) (by decide) mem

theorem accumulateWritten {negative : Bool} {n : Nat}
    (above : -0x8000000000000000 ≤ signed negative n)
    (below : signed negative n < 0x8000000000000000) :
    accumulate 10 negative 0 (Nat.toDigits 10 n) = .ok (signed negative n) := by
  have zero : signed negative 0 = 0 := by cases negative <;> rfl
  have last : Nat.ofDigitChars 10 (Nat.toDigits 10 n) 0 = n := Nat.ofDigitChars_ten_toDigits
  rw [← last] at above below
  have read := accumulateDigits digitsOnly above below
  rw [zero, last] at read
  exact read

theorem charsOnly {n : Int64} : ∀ c ∈ chars n, c.isDigit = true ∨ c = '-' := by
  intro c mem
  unfold chars at mem
  split at mem
  · rcases List.mem_cons.mp mem with minus | digit
    · exact .inr minus
    · exact .inl (digitsOnly c digit)
  · exact .inl (digitsOnly c mem)

theorem parseChars (n : Int64) : parse (chars n) = .ok n := by
  have some : Nat.toDigits 10 n.toInt.natAbs ≠ [] := Nat.toDigits_ne_nil
  have lowest := n.le_toInt
  have highest := n.toInt_lt
  have above : -0x8000000000000000 ≤ n.toInt := by omega
  have below : n.toInt < 0x8000000000000000 := by omega
  have back : (Except.ok n.toInt : Except Fault Int).map Int64.ofInt = .ok n :=
    congrArg Except.ok (Int64.ofInt_toInt n)
  rw [parseDecimal charsOnly]
  unfold chars
  split
  · rename_i negative
    have value : signed true n.toInt.natAbs = n.toInt := by
      simp only [signed, if_true]
      omega
    rw [← value] at above below
    rw [ofDigitsNegative some, accumulateWritten above below, value, back]
  · rename_i positive
    have value : signed false n.toInt.natAbs = n.toInt := by
      simp only [signed, Bool.false_eq_true, if_false]
      omega
    rw [← value] at above below
    rw [ofDigitsPlain some digitsOnly, accumulateWritten above below, value, back]

end HugePools.Integer
