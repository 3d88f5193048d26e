import HugePools.Proofs.RunText
import HugePools.Proofs.SizeGrammar

/-! Sizes as they are shown. A size that is some whole number of kilobytes is shown in units, and
the reader takes its text back to it. All other sizes are shown in bytes, and the reader knows no
such unit: it refuses their text, and so it takes no text for a size that it was not made from. -/
namespace HugePools

namespace Text

theorem trimEnds {s : List Char} (head : ∀ c ∈ s.head?, isBlank c = false)
    (last : ∀ c ∈ s.getLast?, isBlank c = false) : trim s = s := by
  have padded : Padded s s := ⟨[], [], List.forall_mem_nil _, List.forall_mem_nil _, by simp⟩
  exact trimsIff.mp ⟨padded, head, last⟩

theorem digitsDecimal (n : Nat) : Decimal (digits n) n := decimalIff.mp (numberRead n)

theorem countText (n : Nat) (mark : String) :
    (toString n ++ toString mark).toList = digits n ++ mark.toList := by
  rw [String.toList_append, Nat.toString_eq_repr, Nat.toList_repr]
  rfl

theorem trimMarked (n : Nat) (inner : List Char) {c : Char} (solid : isBlank c = false) :
    trim (digits n ++ (inner ++ [c])) = digits n ++ (inner ++ [c]) := by
  obtain ⟨d, more, first⟩ := List.exists_cons_of_ne_nil (digitsDecimal n).some
  have digit : d.isDigit = true := digitsAll d (first ▸ List.mem_cons_self)
  refine trimEnds (fun a head => ?_) fun a last => ?_
  · rw [first] at head
    cases head
    exact (bareIff.mp (digitBare digit)).2.1
  · rw [← List.append_assoc, List.getLast?_concat] at last
    cases last
    exact solid

end Text

namespace Size

open Text (digits)

def Unit.sign : Unit → List Char
  | .kb => ['K', 'B']
  | .mb => ['M', 'B']
  | .gb => ['G', 'B']

theorem Unit.signSpelled (unit : Unit) : unit.Spelled unit.sign := by
  cases unit <;> exact ⟨_, _, rfl, .inr rfl, .inr rfl⟩

theorem Unit.kilobytes (unit : Unit) : 1024 ∣ unit.bytes := by cases unit <;> decide

theorem Unit.bytesPos (unit : Unit) : 0 < unit.bytes := by cases unit <;> decide

def Whole (s : Size) : Prop := s.bytes ≠ 0 ∧ 1024 ∣ s.bytes

variable {s t : Size}

theorem wholeOf {unit : Unit} (fits : unit.bytes ≤ s.bytes ∧ s.bytes % unit.bytes = 0) :
    s.Whole := by
  have positive := unit.bytesPos
  exact ⟨by omega, unit.kilobytes.trans (Nat.dvd_of_mod_eq_zero fits.2)⟩

theorem textUnits (whole : s.Whole) : ∃ (unit : Unit) (n : Nat), s.bytes = n * unit.bytes ∧
    s.text.toList = digits n ++ ([' '] ++ unit.sign) := by
  have counted {unit : Unit} (fits : unit.bytes ≤ s.bytes ∧ s.bytes % unit.bytes = 0) :
      s.bytes = s.bytes / unit.bytes * unit.bytes :=
    (Nat.div_mul_cancel (Nat.dvd_of_mod_eq_zero fits.2)).symm
  unfold text
  split
  · rename_i fits
    exact ⟨.gb, _, counted fits, Text.countText _ " GB"⟩
  · split
    · rename_i fits
      exact ⟨.mb, _, counted fits, Text.countText _ " MB"⟩
    · split
      · rename_i fits
        exact ⟨.kb, _, counted fits, Text.countText _ " KB"⟩
      · rename_i none
        have multiple : s.bytes % Unit.kb.bytes = 0 := Nat.mod_eq_zero_of_dvd whole.2
        have large : Unit.kb.bytes ≤ s.bytes := Nat.le_of_dvd (Nat.pos_of_ne_zero whole.1) whole.2
        exact absurd ⟨large, multiple⟩ none

theorem textBytes (part : ¬ s.Whole) : s.text.toList = digits s.bytes ++ ([' '] ++ ['B']) := by
  unfold text
  rw [if_neg fun fits => part (wholeOf fits), if_neg fun fits => part (wholeOf fits),
    if_neg fun fits => part (wholeOf fits)]
  exact Text.countText _ " B"

theorem readWhole (whole : s.Whole) : parse s.text = .ok s := by
  obtain ⟨unit, n, bytes, written⟩ := textUnits whole
  have stated : States (digits n ++ ([' '] ++ unit.sign)) (n * unit.bytes) :=
    .units (Text.digitsDecimal n) (List.forall_mem_singleton.mpr rfl) unit.signSpelled
  have trimmed : Text.trim s.text.toList = digits n ++ ([' '] ++ unit.sign) := by
    rw [written]
    cases unit <;> exact Text.trimMarked n [' ', _] rfl
  unfold parse
  rw [trimmed, readStated stated]
  exact ofCountOk.mpr bytes

theorem readPart (part : ¬ s.Whole) : parse s.text = .error (.unknownUnit s.text " B") := by
  have written := textBytes part
  have mixed : Text.number? (digits s.bytes ++ [' ', 'B']) = none := by
    refine Option.eq_none_iff_forall_ne_some.mpr fun m read => ?_
    exact absurd ((Text.decimalIff.mp read).digits ' ' (by simp)) (by decide)
  have cut : cutUnit (digits s.bytes ++ [' ', 'B']) = some (digits s.bytes, [' ', 'B']) :=
    cutIff.mpr ⟨rfl, rfl⟩
  have other : Unit.of? [' ', 'B'] = none := rfl
  have whole : String.ofList (digits s.bytes ++ [' ', 'B']) = s.text := by
    rw [← String.ofList_toList (s := s.text), written]
    rfl
  unfold parse
  rw [written, Text.trimMarked s.bytes [' '] rfl]
  simp only [ofTrimmed, List.singleton_append, mixed, cut, other, whole]

theorem textApart (same : s.text = t.text) : s = t := by
  by_cases first : s.Whole
  · by_cases second : t.Whole
    · exact Except.ok.inj ((readWhole first).symm.trans (same ▸ readWhole second))
    · cases (readWhole first).symm.trans (same ▸ readPart second)
  · by_cases second : t.Whole
    · cases (readPart first).symm.trans (same ▸ readWhole second)
    · have chars := (textBytes first).symm.trans (same ▸ textBytes second)
      have counts := congrArg (Nat.ofDigitChars 10 · 0) (List.append_cancel_right chars)
      simp only [Text.numberOfDigits] at counts
      exact Size.ext counts

/-- A size that is no zero and a multiple of 1024 is read back from its text. The text of any other
size is refused for its unit. So two sizes never look alike, and none is taken for another. -/
theorem neverMisread :
    (∀ s : Size, (s.bytes ≠ 0 ∧ 1024 ∣ s.bytes → parse s.text = .ok s) ∧
      (¬ (s.bytes ≠ 0 ∧ 1024 ∣ s.bytes) →
        parse s.text = .error (.unknownUnit s.text " B"))) ∧
    (∀ s t : Size, s.text = t.text → s = t) ∧
    ∀ s t : Size, parse s.text = .ok t → t = s := by
  refine ⟨fun s => ⟨readWhole, readPart⟩, fun s t => textApart, fun s t read => ?_⟩
  by_cases whole : s.Whole
  · exact Except.ok.inj (read.symm.trans (readWhole whole))
  · cases read.symm.trans (readPart whole)

end Size

def lastKilobyte : Size := { bytes := 2 ^ 64 - 1024 }

def byteFurther : Size := { bytes := 2 ^ 64 - 1023 }

theorem lastShown : Size.parse "18014398509481983 KB" = .ok lastKilobyte ∧
    Size.parse "18446744073709550593 B" =
      .error (.unknownUnit "18446744073709550593 B" " B") ∧
    Size.parse "0 B" = .error (.unknownUnit "0 B" " B") ∧
    lastKilobyte.text ≠ byteFurther.text ∧
    ∀ t, Size.parse "18014398509481983 KB" = .ok t → t.bytes = 2 ^ 64 - 1024 := by
  obtain ⟨read, apart, misread⟩ := Size.neverMisread
  have units : lastKilobyte.text = "18014398509481983 KB" := by rfl
  have bytes : byteFurther.text = "18446744073709550593 B" := by rfl
  have none : Size.zero.text = "0 B" := by rfl
  refine ⟨units ▸ (read lastKilobyte).1 (by decide), bytes ▸ (read byteFurther).2 (by decide),
    none ▸ (read .zero).2 (by decide), fun same => ?_, fun t got => ?_⟩
  · exact absurd (apart _ _ same) (by decide)
  · exact congrArg Size.bytes (misread lastKilobyte t (units ▸ got))

end HugePools
