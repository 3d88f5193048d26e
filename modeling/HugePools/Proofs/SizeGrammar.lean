import HugePools.Proofs.Trimming
import HugePools.Size

/-! The written form of a size. Every text has exactly one verdict by the grammar below, which says
what the text states, or which fault it is blamed for; and a text is never cut inside a character. -/
namespace HugePools

namespace Text

theorem lowerIff {c d : Char} (lower : d.toLower = d) :
    c.toLower = d ↔ c = d ∨ c = d.toUpper := by
  constructor
  · intro same
    by_cases upper : c.isUpper = true
    · have kept := Char.toUpper_eq_of_not_isLower (Char.not_isLower_of_isUpper upper)
      rw [← same, Char.toUpper_toLower_eq_toUpper, kept]
      exact .inr rfl
    · exact .inl ((Char.toLower_eq_of_not_isUpper upper).symm.trans same)
  · intro given
    rcases given with rfl | rfl
    · exact lower
    · rw [Char.toLower_toUpper_eq_toLower, lower]

end Text

namespace Size

open Text (Decimal Trims)

def Unit.letter : Unit → Char
  | .kb => 'k'
  | .mb => 'm'
  | .gb => 'g'

def Unit.Spelled (unit : Unit) (s : List Char) : Prop :=
  ∃ a b, s = [a, b] ∧ (a = unit.letter ∨ a = unit.letter.toUpper) ∧ (b = 'b' ∨ b = 'B')

theorem unitFolded {s : List Char} {unit : Unit} :
    Unit.of? s = some unit ↔ s.map Char.toLower = [unit.letter, 'b'] := by
  unfold Unit.of?
  generalize s.map Char.toLower = folded
  constructor
  · intro found
    dsimp only at found
    split at found
    · cases found
      assumption
    · split at found
      · cases found
        assumption
      · obtain ⟨same, last⟩ := Option.ite_none_right_eq_some.mp found
        cases last
        exact same
  · rintro rfl
    cases unit <;> rfl

theorem unitIff {s : List Char} {unit : Unit} : Unit.of? s = some unit ↔ unit.Spelled s := by
  have letter : unit.letter.toLower = unit.letter := by cases unit <;> rfl
  rw [unitFolded]
  constructor
  · intro folded
    obtain ⟨a, more, rfl, first, others⟩ := List.map_eq_cons_iff.mp folded
    obtain ⟨b, none, rfl, second, last⟩ := List.map_eq_cons_iff.mp others
    cases List.map_eq_nil_iff.mp last
    exact ⟨a, b, rfl, (Text.lowerIff letter).mp first, (Text.lowerIff rfl).mp second⟩
  · intro spelled
    obtain ⟨a, b, rfl, first, second⟩ := spelled
    rw [List.map_cons, List.map_singleton, (Text.lowerIff letter).mpr first,
      (Text.lowerIff (d := 'b') rfl).mpr second]

/-- A text in two parts of which the second one has two bytes. -/
structure Cut (s front last : List Char) : Prop where
  whole : s = front ++ last
  bytes : String.utf8Len last = 2

theorem twoBytes {last : List Char} : String.utf8Len last = 2 ↔
    (∃ c, last = [c] ∧ c.utf8Size = 2) ∨
      ∃ b c, last = [b, c] ∧ b.utf8Size = 1 ∧ c.utf8Size = 1 := by
  constructor
  · intro bytes
    match last with
    | [] => cases bytes
    | [c] => exact .inl ⟨c, rfl, by simpa using bytes⟩
    | [b, c] =>
      have first := b.utf8Size_pos
      have second := c.utf8Size_pos
      simp only [String.utf8Len_cons, String.utf8Len_nil] at bytes
      exact .inr ⟨b, c, rfl, by omega, by omega⟩
    | a :: b :: c :: rest =>
      have first := a.utf8Size_pos
      have second := b.utf8Size_pos
      have third := c.utf8Size_pos
      simp only [String.utf8Len_cons] at bytes
      omega
  · rintro (⟨c, rfl, two⟩ | ⟨b, c, rfl, first, second⟩)
    · simpa using two
    · simp [first, second]

theorem cutIff {s front last : List Char} :
    cutUnit s = some (front, last) ↔ Cut s front last := by
  unfold cutUnit
  constructor
  · intro found
    split at found
    · cases found
    · rename_i c rest turned
      have whole := congrArg List.reverse turned
      rw [List.reverse_reverse, List.reverse_cons] at whole
      split at found
      · rename_i two
        cases found
        exact ⟨whole, twoBytes.mpr (.inl ⟨c, rfl, two⟩)⟩
      · split at found
        · cases found
        · rename_i b more
          obtain ⟨one, same⟩ := Option.ite_none_right_eq_some.mp found
          cases same
          refine ⟨by simpa using whole, twoBytes.mpr (.inr ⟨b, c, rfl, one.2, one.1⟩)⟩
  · intro cut
    obtain ⟨rfl, bytes⟩ := cut
    rcases twoBytes.mp bytes with ⟨c, rfl, two⟩ | ⟨b, c, rfl, first, second⟩
    · simp [two]
    · simp [first, second]

theorem cutBorder {s : List Char} : (∃ front last, Cut s front last) ↔
    2 ≤ (String.ofList s).utf8ByteSize ∧
      String.Pos.Raw.IsValid (String.ofList s) ⟨(String.ofList s).utf8ByteSize - 2⟩ := by
  rw [String.Pos.Raw.isValid_iff_exists_append]
  constructor
  · intro given
    obtain ⟨front, last, rfl, bytes⟩ := given
    have size : (String.ofList (front ++ last)).utf8ByteSize =
        (String.ofList front).utf8ByteSize + 2 := by
      rw [String.ofList_append, String.utf8ByteSize_append, String.utf8ByteSize_ofList last, bytes]
    refine ⟨by omega, String.ofList front, String.ofList last, String.ofList_append, ?_⟩
    rw [size, Nat.add_sub_cancel]
    rfl
  · intro given
    obtain ⟨long, front, last, whole, border⟩ := given
    have size := congrArg String.utf8ByteSize whole
    have start := congrArg String.Pos.Raw.byteIdx border
    rw [String.utf8ByteSize_append] at size
    simp only [String.byteIdx_rawEndPos] at start
    refine ⟨front.toList, last.toList, ?_, ?_⟩
    · have chars := congrArg String.toList whole
      rwa [String.toList_ofList, String.toList_append] at chars
    · rw [← String.utf8ByteSize_ofList, String.ofList_toList]
      omega

/-- What a text states: a plain count, or a count of units with blanks between the two or none. -/
inductive States : List Char → Nat → Prop
  | plain {s n} (count : Decimal s n) : States s n
  | units {front blanks last n unit} (count : Decimal front n)
      (blank : ∀ c ∈ blanks, Text.isBlank c = true) (spelled : Unit.Spelled unit last) :
      States (front ++ (blanks ++ last)) (n * unit.bytes)

inductive Verdict (s : List Char) : Except QuantityError Size → Prop
  | size {v : Size} (stated : States s v.bytes) : Verdict s (.ok v)
  | overflow {n} (stated : States s n) (beyond : 2 ^ 64 ≤ n) :
      Verdict s (.error (.sizeOverflow (String.ofList s)))
  | unknown {front last} (unstated : ∀ n, ¬ States s n) (cut : Cut s front last)
      (other : ∀ unit : Unit, ¬ unit.Spelled last) :
      Verdict s (.error (.unknownUnit (String.ofList s) (String.ofList last)))
  | invalid (unstated : ∀ n, ¬ States s n)
      (otherwise : ∀ front last, Cut s front last → ∃ unit : Unit, unit.Spelled last) :
      Verdict s (.error (.invalidSize (String.ofList s)))

theorem Unit.Spelled.bytes {unit : Unit} {last : List Char} (spelled : unit.Spelled last) :
    String.utf8Len last = 2 ∧ ∃ c ∈ last, c.isDigit = false := by
  obtain ⟨a, b, rfl, first, second⟩ := spelled
  have letter : a.utf8Size = 1 ∧ a.isDigit = false := by
    rcases first with rfl | rfl <;> cases unit <;> decide
  have mark : b.utf8Size = 1 := by rcases second with rfl | rfl <;> rfl
  exact ⟨twoBytes.mpr (.inr ⟨a, b, rfl, letter.1, mark⟩), a, List.mem_cons_self, letter.2⟩

theorem ofCountOk {text : String} {n : Nat} {v : Size} :
    ofCount text n = .ok v ↔ v.bytes = n := by
  refine ⟨fun read => ofCountBytes read, ?_⟩
  rintro rfl
  exact dif_pos v.bounded

theorem ofCountFails {text : String} {n : Nat} (beyond : 2 ^ 64 ≤ n) :
    ofCount text n = .error (.sizeOverflow text) := dif_neg (Nat.not_lt.mpr beyond)

theorem readPlain {s : List Char} {n : Nat} (count : Decimal s n) :
    ofTrimmed s = ofCount (String.ofList s) n := by
  unfold ofTrimmed
  simp only [Text.decimalIff.mpr count]

theorem readUnits {s front last : List Char} {unit : Unit} (mixed : Text.number? s = none)
    (cut : Cut s front last) (spelled : unit.Spelled last) : ofTrimmed s =
      match Text.number? (Text.trim front) with
      | none => .error (.invalidSize (String.ofList s))
      | some n => ofCount (String.ofList s) (n * unit.bytes) := by
  unfold ofTrimmed
  cases count : Text.number? (Text.trim front) with
  | none => simp only [mixed, cutIff.mpr cut, unitIff.mpr spelled, count]
  | some n => simp only [mixed, cutIff.mpr cut, unitIff.mpr spelled, count]

theorem readStated {s : List Char} {n : Nat} (stated : States s n) :
    ofTrimmed s = ofCount (String.ofList s) n := by
  cases stated with
  | plain count => exact readPlain count
  | @units front blanks last n unit count blank spelled =>
    obtain ⟨bytes, c, mem, other⟩ := spelled.bytes
    have mixed : Text.number? (front ++ (blanks ++ last)) = none := by
      refine Option.eq_none_iff_forall_ne_some.mpr fun m read => ?_
      have digit := (Text.decimalIff.mp read).digits c (by simp [mem])
      exact Bool.false_ne_true (other.symm.trans digit)
    have cut : Cut (front ++ (blanks ++ last)) (front ++ blanks) last :=
      ⟨(List.append_assoc ..).symm, bytes⟩
    have padded : Text.Padded (front ++ blanks) front :=
      ⟨[], blanks, List.forall_mem_nil _, blank, rfl⟩
    rw [readUnits mixed cut spelled, Text.trimPadded padded, count.trimmed,
      Text.decimalIff.mpr count]

theorem statesUnits {s front last : List Char} {n : Nat} {unit : Unit}
    (head : ∀ c ∈ s.head?, Text.isBlank c = false) (cut : Cut s front last)
    (spelled : unit.Spelled last) (count : Decimal (Text.trim front) n) :
    States s (n * unit.bytes) := by
  obtain ⟨whole, _⟩ := cut
  obtain ⟨before, blanks, blank, after, padded⟩ := Text.paddedTrim front
  cases before with
  | nil =>
    rw [whole, padded, List.nil_append, List.append_assoc]
    exact .units count after spelled
  | cons c rest =>
    have first : s.head? = some c := by rw [whole, padded]; rfl
    exact absurd ((head c first).symm.trans (blank c List.mem_cons_self)) Bool.false_ne_true

theorem verdictStated {s : List Char} {n : Nat} (stated : States s n) :
    Verdict s (ofCount (String.ofList s) n) := by
  by_cases fits : n < 2 ^ 64
  · have read : ofCount (String.ofList s) n = .ok ⟨n, fits⟩ := ofCountOk.mpr rfl
    rw [read]
    exact .size stated
  · have beyond := Nat.le_of_not_lt fits
    rw [ofCountFails beyond]
    exact .overflow stated beyond

theorem unstatedFault {s : List Char} {fault : QuantityError} (read : ofTrimmed s = .error fault)
    (other : fault ≠ .sizeOverflow (String.ofList s)) (n : Nat) : ¬ States s n := by
  intro stated
  have same := (readStated stated).symm.trans read
  unfold ofCount at same
  split at same
  · cases same
  · cases same
    exact other rfl

theorem verdictRead {s : List Char} (head : ∀ c ∈ s.head?, Text.isBlank c = false) :
    Verdict s (ofTrimmed s) := by
  cases number : Text.number? s with
  | some n =>
    have count := Text.decimalIff.mp number
    rw [readPlain count]
    exact verdictStated (.plain count)
  | none =>
    cases found : cutUnit s with
    | none =>
      have read : ofTrimmed s = .error (.invalidSize (String.ofList s)) := by
        simp only [ofTrimmed, number, found]
      rw [read]
      refine .invalid (unstatedFault read nofun) fun front last cut => ?_
      cases found.symm.trans (cutIff.mpr cut)
    | some parts =>
      obtain ⟨front, last⟩ := parts
      have cut := cutIff.mp found
      cases unit : Unit.of? last with
      | none =>
        have read : ofTrimmed s =
            .error (.unknownUnit (String.ofList s) (String.ofList last)) := by
          simp only [ofTrimmed, number, found, unit]
        rw [read]
        refine .unknown (unstatedFault read nofun) cut fun other spelled => ?_
        cases unit.symm.trans (unitIff.mpr spelled)
      | some named =>
        have spelled := unitIff.mp unit
        have read := readUnits number cut spelled
        cases count : Text.number? (Text.trim front) with
        | none =>
          rw [count] at read
          rw [read]
          refine .invalid (unstatedFault read nofun) fun _ other given => ?_
          cases found.symm.trans (cutIff.mpr given)
          exact ⟨named, spelled⟩
        | some n =>
          rw [count] at read
          rw [read]
          exact verdictStated (statesUnits head cut spelled (Text.decimalIff.mp count))

theorem readVerdict {s : List Char} (head : ∀ c ∈ s.head?, Text.isBlank c = false)
    {outcome : Except QuantityError Size} (verdict : Verdict s outcome) : ofTrimmed s = outcome := by
  have read := verdictRead head
  cases verdict with
  | size stated => exact (readStated stated).trans (ofCountOk.mpr rfl)
  | overflow stated beyond => exact (readStated stated).trans (ofCountFails beyond)
  | unknown unstated cut other =>
    generalize ofTrimmed s = found at read ⊢
    cases read with
    | size stated => exact absurd stated (unstated _)
    | overflow stated _ => exact absurd stated (unstated _)
    | unknown _ given _ =>
      cases (cutIff.mpr cut).symm.trans (cutIff.mpr given)
      rfl
    | invalid _ otherwise =>
      obtain ⟨unit, spelled⟩ := otherwise _ _ cut
      exact absurd spelled (other unit)
  | invalid unstated otherwise =>
    generalize ofTrimmed s = found at read ⊢
    cases read with
    | size stated => exact absurd stated (unstated _)
    | overflow stated _ => exact absurd stated (unstated _)
    | unknown _ cut other =>
      obtain ⟨unit, spelled⟩ := otherwise _ _ cut
      exact absurd spelled (other unit)
    | invalid _ _ => rfl

/-- Reading gives the one verdict of the grammar on the text without the blanks around it. The text
is cut before its last two bytes, where these begin on the border of a character, and nowhere
else. -/
theorem parsesExactly (text : String) : (∃ s, Trims text.toList s) ∧
    ∀ s, Trims text.toList s →
      (∀ outcome, parse text = outcome ↔ Verdict s outcome) ∧
      (∀ front last, cutUnit s = some (front, last) ↔ Cut s front last) ∧
      ((∃ front last, Cut s front last) ↔ 2 ≤ (String.ofList s).utf8ByteSize ∧
        String.Pos.Raw.IsValid (String.ofList s) ⟨(String.ofList s).utf8ByteSize - 2⟩) := by
  refine ⟨⟨_, Text.trimsIff.mpr rfl⟩, fun s trims => ⟨fun outcome => ?_, fun _ _ => cutIff, cutBorder⟩⟩
  unfold parse
  rw [Text.trimsIff.mp trims]
  constructor
  · rintro rfl
    exact verdictRead trims.head
  · exact readVerdict trims.head

end Size

def wideText : String := " 17179869184\u2003gB "

def splitText : String := "8€x"

theorem wideRefused :
    Size.parse wideText = .error (.sizeOverflow "17179869184\u2003gB") ∧
    Size.parse splitText = .error (.invalidSize "8€x") ∧
    ¬ String.Pos.Raw.IsValid splitText ⟨3⟩ := by
  have wide : Text.Trims wideText.toList "17179869184\u2003gB".toList := Text.trimsIff.mpr (by rfl)
  have split : Text.Trims splitText.toList splitText.toList := Text.trimsIff.mpr (by rfl)
  obtain ⟨overflow, _, _⟩ := (Size.parsesExactly wideText).2 _ wide
  obtain ⟨invalid, cuts, border⟩ := (Size.parsesExactly splitText).2 _ split
  have count : Text.Decimal "17179869184".toList 17179869184 := Text.decimalIff.mp (by rfl)
  have blank : ∀ c ∈ ['\u2003'], Text.isBlank c = true := List.forall_mem_singleton.mpr rfl
  have spelled : Size.Unit.gb.Spelled ['g', 'B'] := ⟨'g', 'B', rfl, .inl rfl, .inr rfl⟩
  have uncut (front last) : ¬ Size.Cut splitText.toList front last := fun cut =>
    nomatch (cuts front last).mpr cut
  have read : Size.ofTrimmed splitText.toList = .error (.invalidSize "8€x") := by rfl
  refine ⟨(overflow _).mpr ?_, (invalid _).mpr ?_, fun valid => ?_⟩
  · exact .overflow (.units count blank spelled) (by decide)
  · exact .invalid (Size.unstatedFault read nofun) fun front last cut => absurd cut (uncut front last)
  · obtain ⟨front, last, cut⟩ := border.mpr ⟨by decide, valid⟩
    exact uncut front last cut

end HugePools
