import HugePools.TomlString
import Mathlib

/-! TOML strings read back from their written forms. Whatever form is taken, what it writes is the
text: escapes are undone one by one, and quote marks that stand as they are never close the string
too early. -/
namespace HugePools.Toml

theorem plainIff {c : Char} : isPlain c = true ↔ isControl c = false ∧ c ≠ '\n' := by
  have tab : c = '\t' ↔ c.toNat = 9 := Char.toNat_inj.symm
  have feed : c = '\n' ↔ c.toNat = 10 := Char.toNat_inj.symm
  simp only [isPlain, isControl, ne_eq, tab, feed, Bool.or_eq_true, Bool.and_eq_true,
    decide_eq_true_eq, Bool.and_eq_false_iff, Bool.or_eq_false_iff, decide_eq_false_iff_not]
  omega

theorem codeRead {n : Nat} (small : n < 128) (rest : List Char) :
    codePoint 4 ('0' :: '0' :: hexDigit (n / 16) :: hexDigit (n % 16) :: rest) =
      some (Char.ofNat n, rest) := by
  have digit : ∀ d < 16, Integer.digit? 16 (hexDigit d) = some d := by decide
  have high := digit (n / 16) (by omega)
  have low := digit (n % 16) (by omega)
  have zero : Integer.digit? 16 '0' = some 0 := by decide
  have valid : n.isValidChar := .inl (by omega)
  have value : 16 * (n / 16) + n % 16 = n := Nat.div_add_mod n 16
  simp [codePoint, zero, high, low, value, valid]

theorem controlRead {c : Char} (control : isControl c = true) (rest : List Char) :
    escape ('u' :: '0' :: '0' :: hexDigit (c.toNat / 16) :: hexDigit (c.toNat % 16) :: rest) =
      some (c, rest) := by
  have small : c.toNat < 128 := by
    simp only [isControl, Bool.and_eq_true, Bool.or_eq_true, decide_eq_true_eq] at control
    omega
  have read := codeRead small rest
  rw [Char.ofNat_toNat] at read
  exact read

theorem escapeCases (c : Char) : (escapeChar c = [c] ∧ c ≠ '\\' ∧ isControl c = false) ∨
    ∃ d t, escapeChar c = '\\' :: d :: t ∧ d ∈ ['b', 't', 'f', 'r', '\\', 'u'] ∧
      ∀ rest, escape (d :: (t ++ rest)) = some (c, rest) := by
  unfold escapeChar
  split_ifs with back tab page start slash control
  · exact .inr ⟨'b', [], rfl, by decide, fun rest => by rw [back]; rfl⟩
  · exact .inr ⟨'t', [], rfl, by decide, fun rest => by rw [tab]; rfl⟩
  · exact .inr ⟨'f', [], rfl, by decide, fun rest => by rw [page]; rfl⟩
  · exact .inr ⟨'r', [], rfl, by decide, fun rest => by rw [start]; rfl⟩
  · exact .inr ⟨'\\', [], rfl, by decide, fun rest => by rw [slash]; rfl⟩
  · exact .inr ⟨'u', _, rfl, by decide, controlRead control⟩
  · exact .inl ⟨rfl, slash, Bool.eq_false_of_not_eq_true control⟩

theorem afterBreakNone {c : Char} (feed : c ≠ '\n') (back : c ≠ '\r') (rest : List Char) :
    afterBreak (c :: rest) = none := by
  unfold afterBreak
  split
  · rename_i same
    exact absurd (List.cons.inj same).1 feed
  · rename_i same
    exact absurd (List.cons.inj same).1 back
  · rfl

theorem breakless {c : Char} (visible : isControl c = false) (feed : c ≠ '\n') (rest : List Char) :
    afterBreak (c :: rest) = none := by
  refine afterBreakNone feed ?_ rest
  rintro rfl
  exact absurd visible (by decide)

theorem solidKept {c : Char} (solid : isBlank c = false) (rest : List Char) :
    skipBlanks (c :: rest) = c :: rest :=
  List.dropWhile_cons_of_neg (by simp [solid])

theorem continuedNone {d : Char} (mark : d ∈ ['b', 't', 'f', 'r', '\\', 'u', '"'])
    (rest : List Char) : continued (d :: rest) = none := by
  have solid : ∀ c ∈ ['b', 't', 'f', 'r', '\\', 'u', '"'],
      isBlank c = false ∧ c ≠ '\n' ∧ c ≠ '\r' := by
    simp [isBlank]
  obtain ⟨blank, feed, back⟩ := solid d mark
  unfold continued
  rw [solidKept blank, afterBreakNone feed back]
  rfl

theorem lineUnitEscaped {c : Char} (other : c ≠ '"') (one : c ≠ '\n') (rest : List Char) :
    lineUnit .basic (escapeChar c ++ rest) = some (c, rest) := by
  rcases escapeCases c with ⟨written, slash, visible⟩ | ⟨d, t, written, _, read⟩
  · rw [written, List.singleton_append, lineUnit, if_neg fun both => slash both.1]
    exact if_pos ⟨plainIff.mpr ⟨visible, one⟩, other⟩
  · rw [written, List.cons_append, List.cons_append, lineUnit, if_pos ⟨rfl, rfl⟩]
    exact read rest

theorem linesUnitVisible {q : Quote} {c : Char} (visible : isControl c = false)
    (itself : ¬ (c = '\\' ∧ q = .basic)) (rest : List Char) :
    linesUnit q (c :: rest) = some ([c], rest) := by
  rw [linesUnit, if_neg itself]
  by_cases feed : c = '\n'
  · subst feed
    rfl
  · simp only [breakless visible feed, if_pos (plainIff.mpr ⟨visible, feed⟩)]

theorem linesUnitEscaped (c : Char) (rest : List Char) :
    linesUnit .basic (escapeChar c ++ rest) = some ([c], rest) := by
  rcases escapeCases c with ⟨written, slash, visible⟩ | ⟨d, t, written, mark, read⟩
  · rw [written]
    exact linesUnitVisible visible (fun both => slash both.1) rest
  · have whole : continued (d :: (t ++ rest)) = none :=
      continuedNone (List.mem_append_left ['"'] mark) _
    have found := read rest
    rw [written, List.cons_append, List.cons_append, linesUnit, if_pos ⟨rfl, rfl⟩]
    simp only [whole, found, Option.map_some]

theorem quoteEscaped (rest : List Char) : lineUnit .basic ('\\' :: '"' :: rest) = some ('"', rest) ∧
    linesUnit .basic ('\\' :: '"' :: rest) = some (['"'], rest) := by
  refine ⟨rfl, ?_⟩
  have whole : continued ('"' :: rest) = none := continuedNone (by decide) rest
  rw [linesUnit, if_pos ⟨rfl, rfl⟩]
  simp only [whole]
  rfl

theorem lineClose (q : Quote) (rest : List Char) : line q (q.mark :: rest) = some ([], rest) := by
  rw [line, if_pos List.head?_cons]
  rfl

theorem lineStep {q : Quote} {s rest : List Char} {c : Char}
    (unit : lineUnit q s = some (c, rest)) :
    line q s = (line q rest).map fun (cs, after) => (c :: cs, after) := by
  have inner : s.head? ≠ some q.mark := by
    intro first
    obtain ⟨tail, rfl⟩ := List.head?_eq_some_iff.mp first
    cases q <;> cases unit
  rw [line, if_neg inner]
  split
  · rename_i none
    cases unit.symm.trans none
  · rename_i found
    cases unit.symm.trans found
    rfl

theorem linesClose (q : Quote) {k : Nat} (few : k ≤ 2) {rest : List Char}
    (next : rest.head? ≠ some q.mark) :
    lines q (List.replicate (k + 3) q.mark ++ rest) = some (List.replicate k q.mark, rest) := by
  have run : (List.replicate (k + 3) q.mark ++ rest).takeWhile (· = q.mark) =
      List.replicate (k + 3) q.mark := by
    have none : rest.takeWhile (· = q.mark) = [] := by
      cases rest with
      | nil => rfl
      | cons c more => exact List.takeWhile_cons_of_neg fun same => next (by simpa using same)
    rw [List.takeWhile_append_of_pos (by simp), none, List.append_nil]
  have all : min (k + 3) 5 = k + 3 := by omega
  rw [lines, run, List.length_replicate, if_pos (by omega), all, Nat.add_sub_cancel,
    List.drop_left' List.length_replicate]

theorem linesStep {q : Quote} {s rest cs : List Char}
    (few : (s.takeWhile (· = q.mark)).length < 3) (unit : linesUnit q s = some (cs, rest)) :
    lines q s = (lines q rest).map fun (more, after) => (cs ++ more, after) := by
  rw [lines, if_neg (Nat.not_le_of_lt few)]
  split
  · rename_i none
    cases unit.symm.trans none
  · rename_i found
    cases unit.symm.trans found
    rfl

theorem literalPlain {c : Char} : ¬ (c = '\\' ∧ Quote.literal = .basic) :=
  fun both => Quote.noConfusion both.2

theorem lineLiteral {s : List Char} (visible : ∀ c ∈ s, isControl c = false) (one : '\n' ∉ s)
    (unmarked : '\'' ∉ s) (rest : List Char) :
    line .literal (s ++ '\'' :: rest) = some (s, rest) := by
  induction s with
  | nil => exact lineClose .literal rest
  | cons c s ih =>
    obtain ⟨plain, others⟩ := List.forall_mem_cons.mp visible
    obtain ⟨feed, later⟩ := not_or.mp (List.mem_cons.not.mp one)
    obtain ⟨mark, free⟩ := not_or.mp (List.mem_cons.not.mp unmarked)
    have unit : lineUnit .literal (c :: (s ++ '\'' :: rest)) = some (c, s ++ '\'' :: rest) := by
      rw [lineUnit, if_neg literalPlain]
      exact if_pos ⟨plainIff.mpr ⟨plain, Ne.symm feed⟩, Ne.symm mark⟩
    rw [List.cons_append, lineStep unit, ih others later free]
    rfl

theorem lineBasic {s : List Char} (one : '\n' ∉ s) (run : Nat) (rest : List Char) :
    line .basic (escaped 0 run s ++ '"' :: rest) = some (s, rest) := by
  induction s generalizing run with
  | nil => exact lineClose .basic rest
  | cons c s ih =>
    obtain ⟨feed, later⟩ := not_or.mp (List.mem_cons.not.mp one)
    rw [escaped]
    split
    · rename_i other
      rw [List.append_assoc, lineStep (lineUnitEscaped other (Ne.symm feed) _), ih later]
      rfl
    · rename_i quote
      obtain rfl := not_not.mp quote
      rw [if_neg (Nat.not_lt_zero run), List.cons_append, List.cons_append,
        lineStep (quoteEscaped _).1, ih later]
      rfl

/-- What stands before the closing marks is either nothing but quote marks, which close with them,
or breaks off before there are three in a row. -/
theorem quotesFew (s : List Char) {run : Nat} (most : run ≤ 2) (tail : List Char) :
    (∃ k, k + run ≤ 2 ∧ s = List.replicate k '"') ∨
      ((escaped 2 run s ++ tail).takeWhile (· = '"')).length + run ≤ 2 := by
  induction s generalizing run with
  | nil => exact .inl ⟨0, by omega, rfl⟩
  | cons c s ih =>
    rw [escaped]
    split
    · rename_i other
      right
      rcases escapeCases c with ⟨written, _⟩ | ⟨d, t, written, _⟩ <;> simp [written, other, most]
    · rename_i quote
      obtain rfl := not_not.mp quote
      split
      · rename_i few
        have next : run + 1 ≤ 2 := few
        rcases ih next with ⟨k, within, rfl⟩ | short
        · exact .inl ⟨k + 1, by omega, rfl⟩
        · right
          simp only [List.cons_append, List.takeWhile_cons, decide_true, if_true, List.length_cons]
          omega
      · right
        simp [most]

theorem escapedQuotes {k run : Nat} (few : k + run ≤ 2) :
    escaped 2 run (List.replicate k '"') = List.replicate k '"' := by
  induction k generalizing run with
  | zero => rfl
  | succ k ih =>
    rw [List.replicate_succ, escaped, if_neg (not_not.mpr rfl), if_pos (by omega), ih (by omega)]

theorem unitEscaped (c : Char) (s : List Char) (run : Nat) (tail : List Char) :
    ∃ n ≤ 2, linesUnit .basic (escaped 2 run (c :: s) ++ tail) =
      some ([c], escaped 2 n s ++ tail) := by
  rw [escaped]
  split
  · rw [List.append_assoc]
    exact ⟨0, Nat.zero_le 2, linesUnitEscaped c _⟩
  · rename_i quote
    obtain rfl := not_not.mp quote
    split
    · rename_i few
      exact ⟨run + 1, few, rfl⟩
    · exact ⟨0, Nat.zero_le 2, (quoteEscaped _).2⟩

theorem linesBasic (s : List Char) {run : Nat} (most : run ≤ 2) {rest : List Char}
    (next : rest.head? ≠ some '"') :
    lines .basic (escaped 2 run s ++ (List.replicate 3 '"' ++ rest)) = some (s, rest) := by
  induction s generalizing run with
  | nil => exact linesClose .basic (Nat.zero_le 2) next
  | cons c s ih =>
    rcases quotesFew (c :: s) most (List.replicate 3 '"' ++ rest) with ⟨k, few, same⟩ | few
    · rw [same, escapedQuotes few, ← List.append_assoc, List.replicate_append_replicate]
      exact linesClose .basic (by omega) next
    · obtain ⟨n, bound, unit⟩ := unitEscaped c s run (List.replicate 3 '"' ++ rest)
      rw [linesStep (Nat.lt_succ_of_le (Nat.le_of_add_right_le few)) unit, ih bound]
      rfl

theorem marksFew {s : List Char} (few : hasRun '\'' s = false) (tail : List Char) :
    (∃ k ≤ 2, s = List.replicate k '\'') ∨
      ((s ++ tail).takeWhile (· = '\'')).length < 3 := by
  match s with
  | [] => exact .inl ⟨0, by decide, rfl⟩
  | [a] =>
    by_cases first : a = '\''
    · exact .inl ⟨1, by decide, by rw [first]; rfl⟩
    · simp [first]
  | [a, b] =>
    by_cases first : a = '\'' <;> by_cases second : b = '\''
    · exact .inl ⟨2, by decide, by rw [first, second]; rfl⟩
    all_goals simp [first, second]
  | a :: b :: c :: more =>
    right
    have apart : ¬ (a = '\'' ∧ b = '\'' ∧ c = '\'') := by
      rintro ⟨rfl, rfl, rfl⟩
      simp [hasRun] at few
    by_cases first : a = '\'' <;> by_cases second : b = '\'' <;> by_cases third : c = '\'' <;>
      simp [first, second, third] at apart ⊢

theorem linesLiteral {s : List Char} (visible : ∀ c ∈ s, isControl c = false)
    (few : hasRun '\'' s = false) {rest : List Char} (next : rest.head? ≠ some '\'') :
    lines .literal (s ++ (List.replicate 3 '\'' ++ rest)) = some (s, rest) := by
  induction s with
  | nil => exact linesClose .literal (Nat.zero_le 2) next
  | cons c s ih =>
    obtain ⟨plain, others⟩ := List.forall_mem_cons.mp visible
    rcases marksFew few (List.replicate 3 '\'' ++ rest) with ⟨k, most, same⟩ | short
    · rw [same, ← List.append_assoc, List.replicate_append_replicate]
      exact linesClose .literal most next
    · have unit := linesUnitVisible (q := .literal) plain literalPlain
        (s ++ (List.replicate 3 '\'' ++ rest))
      have later : hasRun '\'' s = false := (Bool.or_eq_false_iff.mp few).2
      rw [linesStep (q := .literal) short unit, ih others later]
      rfl

structure Form.Holds (f : Form) (s : List Char) : Prop where
  line : f.long = false → '\n' ∉ s
  visible : f.quote = .literal → ∀ c ∈ s, isControl c = false
  unmarked : f.quote = .literal → f.long = false → '\'' ∉ s
  few : f.quote = .literal → f.long = true → hasRun '\'' s = false

theorem formHolds (s : List Char) : (form s).Holds s := by
  unfold form
  split
  · constructor <;> simp
  · rename_i visible
    have plain : ∀ c ∈ s, isControl c = false := by simpa using visible
    split
    · rename_i one
      constructor <;> simp [one.1]
    · split
      · rename_i one
        exact ⟨fun _ => one.1, fun _ => plain, fun _ _ => one.2, by simp⟩
      · split
        · constructor <;> simp
        · split
          · rename_i few
            exact ⟨by simp, fun _ => plain, by simp, fun _ _ => few⟩
          · constructor <;> simp

theorem insideBreakless {f : Form} {s : List Char} (holds : f.Holds s) (one : '\n' ∉ s)
    (tail : List Char) : afterBreak (inside f s ++ f.quote.mark :: tail) = none := by
  obtain ⟨q, long⟩ := f
  cases s with
  | nil => cases q <;> rfl
  | cons c s =>
    have feed : c ≠ '\n' := fun same => one (same ▸ List.mem_cons_self)
    cases q with
    | literal => exact breakless (holds.visible rfl c List.mem_cons_self) feed _
    | basic =>
      simp only [inside, escaped]
      split
      · rcases escapeCases c with ⟨written, _, visible⟩ | ⟨d, t, written, _⟩
        · rw [written]
          exact breakless visible feed _
        · rw [written]
          rfl
      · split <;> rfl

theorem stringShort {q : Quote} {t s rest : List Char} (read : line q t = some (s, rest))
    (next : rest.head? ≠ some q.mark) : string (q.mark :: t) = some (s, rest) := by
  have apart : ∀ more, t ≠ q.mark :: q.mark :: more := by
    rintro more rfl
    cases (lineClose q _).symm.trans read
    exact next rfl
  cases q with
  | basic =>
    unfold string
    split
    · rename_i same
      exact absurd (List.cons.inj same).2 (apart _)
    · rename_i same
      exact absurd (List.cons.inj same).1 (by decide)
    · exact read
  | literal =>
    unfold string
    split
    · rename_i same
      exact absurd (List.cons.inj same).1 (by decide)
    · rename_i same
      exact absurd (List.cons.inj same).2 (apart _)
    · exact read

theorem stringLong (q : Quote) (t : List Char) :
    string (List.replicate 3 q.mark ++ t) = lines q (skipFirstBreak t) := by
  cases q <;> rfl

theorem surroundShort {q : Quote} {s rest : List Char} (holds : (Form.mk q false).Holds s) :
    line q (inside ⟨q, false⟩ s ++ q.mark :: rest) = some (s, rest) := by
  cases q with
  | basic => exact lineBasic (holds.line rfl) 0 rest
  | literal => exact lineLiteral (holds.visible rfl) (holds.line rfl) (holds.unmarked rfl rfl) rest

theorem surroundLong {q : Quote} {s rest : List Char} (holds : (Form.mk q true).Holds s)
    (next : rest.head? ≠ some q.mark) :
    lines q (inside ⟨q, true⟩ s ++ (List.replicate 3 q.mark ++ rest)) = some (s, rest) := by
  cases q with
  | basic => exact linesBasic s (Nat.zero_le 2) next
  | literal => exact linesLiteral (holds.visible rfl) (holds.few rfl rfl) next

theorem firstBreakSkipped {f : Form} {s : List Char} (holds : f.Holds s) (tail : List Char) :
    skipFirstBreak ((if '\n' ∈ s then ['\n'] else []) ++ (inside f s ++ f.quote.mark :: tail)) =
      inside f s ++ f.quote.mark :: tail := by
  split
  · rfl
  · rename_i one
    simp only [List.nil_append, skipFirstBreak, insideBreakless holds one, Option.getD_none]

theorem surroundRead {f : Form} {s rest : List Char} (holds : f.Holds s)
    (next : ∀ q : Quote, rest.head? ≠ some q.mark) :
    string (surround f s ++ rest) = some (s, rest) := by
  obtain ⟨q, long⟩ := f
  cases long with
  | false =>
    have written : surround ⟨q, false⟩ s ++ rest =
        q.mark :: (inside ⟨q, false⟩ s ++ q.mark :: rest) := by
      simp [surround]
    rw [written]
    exact stringShort (surroundShort holds) (next q)
  | true =>
    have written : surround ⟨q, true⟩ s ++ rest = List.replicate 3 q.mark ++
        ((if '\n' ∈ s then ['\n'] else []) ++
          (inside ⟨q, true⟩ s ++ (List.replicate 3 q.mark ++ rest))) := by
      simp [surround]
    rw [written, stringLong, List.replicate_succ, List.cons_append, firstBreakSkipped holds]
    exact surroundLong holds (next q)

theorem writtenRead (s : List Char) {rest : List Char}
    (next : ∀ q : Quote, rest.head? ≠ some q.mark) :
    string (writeString s ++ rest) = some (s, rest) :=
  surroundRead (formHolds s) next

end HugePools.Toml
