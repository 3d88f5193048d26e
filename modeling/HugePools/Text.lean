/-! Text as a list of characters, with the cuts and tests that the readers share.
A blank is a character of Unicode's White_Space; digits and case are ASCII. -/
namespace HugePools.Text

def isBlank (c : Char) : Bool :=
  let n := c.toNat
  (9 ≤ n && n ≤ 13) || n == 0x20 || n == 0x85 || n == 0xA0 || n == 0x1680 ||
    (0x2000 ≤ n && n ≤ 0x200A) || n == 0x2028 || n == 0x2029 || n == 0x202F ||
    n == 0x205F || n == 0x3000

def trimLeft (s : List Char) : List Char := s.dropWhile isBlank

def trimRight (s : List Char) : List Char := (s.reverse.dropWhile isBlank).reverse

def trim (s : List Char) : List Char := trimRight (trimLeft s)

def trimmed (s : String) : String := String.ofList (trim s.toList)

def pieces (sep : Char) : List Char → List (List Char)
  | [] => [[]]
  | c :: rest =>
    if c = sep then [] :: pieces sep rest
    else match pieces sep rest with
      | [] => [[c]]
      | piece :: more => (c :: piece) :: more

def cut (sep : Char) : List Char → Option (List Char × List Char)
  | [] => none
  | c :: rest =>
    if c = sep then some ([], rest)
    else (cut sep rest).map fun (before, after) => (c :: before, after)

def digits (n : Nat) : List Char := Nat.toDigits 10 n

def number? (s : List Char) : Option Nat :=
  if s ≠ [] ∧ s.all Char.isDigit then some (Nat.ofDigitChars 10 s 0) else none

def padRight (width : Nat) (s : String) : String :=
  s ++ String.ofList (List.replicate (width - s.length) ' ')

def padLeft (width : Nat) (s : String) : String :=
  String.ofList (List.replicate (width - s.length) ' ') ++ s

theorem piecesNonempty (sep : Char) (s : List Char) : pieces sep s ≠ [] := by
  induction s with
  | nil => simp [pieces]
  | cons c rest ih =>
    simp only [pieces]
    split
    · simp
    · split <;> simp

theorem cutRejoins {sep : Char} {s before after : List Char}
    (found : cut sep s = some (before, after)) :
    s = before ++ sep :: after ∧ sep ∉ before := by
  induction s generalizing before after with
  | nil => simp [cut] at found
  | cons c rest ih =>
    simp only [cut] at found
    split at found
    · rename_i same
      simp only [Option.some.injEq, Prod.mk.injEq] at found
      obtain ⟨rfl, rfl⟩ := found
      simp [same]
    · rename_i different
      simp only [Option.map_eq_some_iff, Prod.mk.injEq, Prod.exists] at found
      obtain ⟨b, a, inner, rfl, rfl⟩ := found
      obtain ⟨joined, absent⟩ := ih inner
      exact ⟨by simp [joined], by simp [absent, Ne.symm different]⟩

theorem numberOfDigits (n : Nat) : Nat.ofDigitChars 10 (digits n) 0 = n :=
  Nat.ofDigitChars_toDigits (by decide) (by decide)

end HugePools.Text
