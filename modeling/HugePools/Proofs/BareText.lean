import HugePools.Proofs.DelimitedLines
import HugePools.Proofs.EncodedText
import HugePools.Proofs.IntegerText

/-! Text that stands for itself in a table: it is not trimmed, and its bytes need no quotes. -/
namespace HugePools

theorem Utf8.encodeJoined (fields : List (List Char)) :
    encode ([','].intercalate fields) = Delimited.joined (fields.map encode) := by
  induction fields with
  | nil => rfl
  | cons s more ih =>
    cases more with
    | nil => simp [Delimited.joined]
    | cons t rest =>
      have comma : encode [','] = [Delimited.comma] := rfl
      simp only [Delimited.joined, List.map_cons] at ih ⊢
      simp only [List.intercalate_cons_cons, encodeAppend, comma, ih]

namespace Text

def isBare (c : Char) : Bool := c.toNat < 128 && !isBlank c && c ≠ ',' && c ≠ '"'

def Bare (s : List Char) : Prop := ∀ c ∈ s, isBare c = true

instance (s : List Char) : Decidable (Bare s) :=
  decidable_of_iff (s.all isBare = true) List.all_eq_true

theorem bareIff {c : Char} : isBare c = true ↔
    c.toNat < 128 ∧ isBlank c = false ∧ c ≠ ',' ∧ c ≠ '"' := by
  simp [isBare, and_assoc]

theorem trimSolid {s : List Char} (solid : ∀ c ∈ s, isBlank c = false) : trim s = s := by
  have kept {r : List Char} (same : ∀ c ∈ r, c ∈ s) : r.dropWhile isBlank = r := by
    cases r with
    | nil => rfl
    | cons c rest => simp [solid c (same c List.mem_cons_self)]
  unfold trim trimLeft trimRight
  rw [kept fun _ mem => mem, kept fun _ mem => List.mem_reverse.mp mem, List.reverse_reverse]

theorem Bare.solid {s : List Char} (bare : Bare s) : ∀ c ∈ s, isBlank c = false := fun c mem =>
  (bareIff.mp (bare c mem)).2.1

theorem trimBare {s : List Char} (bare : Bare s) : trim s = s := trimSolid bare.solid

theorem digitBare {c : Char} (digit : c.isDigit = true) : isBare c = true := by
  have range := Char.isDigit_iff_toNat.mp digit
  have zero : '0'.toNat = 48 := rfl
  have nine : '9'.toNat = 57 := rfl
  have solid : isBlank c = false := by
    simp [isBlank]
    omega
  have comma : c ≠ ',' := fun same => absurd (same ▸ digit) (by decide)
  have quote : c ≠ '"' := fun same => absurd (same ▸ digit) (by decide)
  exact bareIff.mpr ⟨by omega, solid, comma, quote⟩

structure Decimal (s : List Char) (n : Nat) : Prop where
  some : s ≠ []
  digits : ∀ c ∈ s, c.isDigit = true
  value : Nat.ofDigitChars 10 s 0 = n

theorem decimalIff {s : List Char} {n : Nat} : number? s = some n ↔ Decimal s n := by
  unfold number?
  constructor
  · intro read
    obtain ⟨⟨some, digits⟩, value⟩ := Option.ite_none_right_eq_some.mp read
    exact ⟨some, List.all_eq_true.mp digits, Option.some.inj value⟩
  · intro decimal
    rw [if_pos ⟨decimal.some, List.all_eq_true.mpr decimal.digits⟩, decimal.value]

theorem Decimal.trimmed {s : List Char} {n : Nat} (decimal : Decimal s n) : trim s = s :=
  trimBare fun c mem => digitBare (decimal.digits c mem)

theorem integerBare (n : Int64) : Bare (Integer.chars n) := by
  intro c mem
  rcases Integer.charsOnly c mem with digit | minus
  · exact digitBare digit
  · rw [minus]
    decide

theorem encodeAscii {c : Char} (ascii : c.toNat < 128) :
    String.utf8EncodeChar c = [UInt8.ofNat c.toNat] := if_pos (Nat.le_of_lt_succ ascii)

theorem bareBytes {s : List Char} (bare : Bare s) :
    ∀ b ∈ Utf8.encode s, ∃ c, isBare c = true ∧ b = UInt8.ofNat c.toNat := by
  intro b mem
  obtain ⟨c, held, byte⟩ := List.mem_flatMap.mp mem
  have clear := bare c held
  rw [encodeAscii (bareIff.mp clear).1] at byte
  exact ⟨c, clear, List.mem_singleton.mp byte⟩

theorem byteApart {c d : Char} (first : c.toNat < 128) (second : d.toNat < 128)
    (apart : c ≠ d) : UInt8.ofNat c.toNat ≠ UInt8.ofNat d.toNat := by
  intro same
  have values := congrArg UInt8.toNat same
  rw [Utf8.byteValue (by omega), Utf8.byteValue (by omega)] at values
  exact apart (Char.toNat_inj.mp values)

theorem encodeBare {s : List Char} (bare : Bare s) : Delimited.Bare (Utf8.encode s) := by
  intro b mem
  obtain ⟨c, clear, rfl⟩ := bareBytes bare b mem
  obtain ⟨ascii, solid, comma, quote⟩ := bareIff.mp clear
  have feed : c ≠ '\n' := fun same => absurd (same ▸ solid) (by decide)
  have back : c ≠ '\r' := fun same => absurd (same ▸ solid) (by decide)
  have noFeed : UInt8.ofNat c.toNat ≠ Delimited.lineFeed := byteApart ascii (by decide) feed
  have noReturn : UInt8.ofNat c.toNat ≠ 0x0D := byteApart ascii (by decide) back
  refine ⟨byteApart ascii (by decide) comma, byteApart ascii (by decide) quote, ?_⟩
  simp [Delimited.isBreak, noFeed, noReturn]

end Text
end HugePools
