import HugePools.Integer
import HugePools.Text

/-! TOML values that are written without quotes or brackets: integers, floats, dates and
times. They are told from ill-formed text; their values are not kept. -/
namespace HugePools.Toml

def isScalarChar (c : Char) : Bool :=
  c.isAlphanum || c = '+' || c = '-' || c = '.' || c = '_' || c = ':'

def grouped (isDigit : Char → Bool) : List Char → Bool
  | [] => false
  | [c] => isDigit c
  | c :: d :: rest =>
    isDigit c && (if d = '_' then grouped isDigit rest else grouped isDigit (d :: rest))

def dropSign : List Char → List Char
  | '+' :: rest => rest
  | '-' :: rest => rest
  | s => s

def isNegative (s : List Char) : Bool := s.head? = some '-'

def isRadixDigit (radix : Nat) (c : Char) : Bool := (Integer.digit? radix c).isSome

def radixValue (radix : Nat) (s : List Char) : Nat :=
  (s.filterMap (Integer.digit? radix)).foldl (fun n d => radix * n + d) 0

def isDecimal (s : List Char) : Bool := s = ['0'] || (s.head? ≠ some '0' && grouped Char.isDigit s)

def isRadixInteger (radix : Nat) (s : List Char) : Bool :=
  grouped (isRadixDigit radix) s && radixValue radix s < 0x8000000000000000

def isInteger : List Char → Bool
  | '0' :: 'x' :: rest => isRadixInteger 16 rest
  | '0' :: 'o' :: rest => isRadixInteger 8 rest
  | '0' :: 'b' :: rest => isRadixInteger 2 rest
  | s =>
    let n := radixValue 10 (dropSign s)
    isDecimal (dropSign s) &&
      (if isNegative s then n ≤ 0x8000000000000000 else n < 0x8000000000000000)

def exceedsDouble (m : Nat) (e : Int) : Bool :=
  let top : Int := (Text.digits m).length + e
  if m = 0 ∨ top ≤ 308 then false
  else if 311 ≤ top then true
  else if 0 ≤ e then (Nat.pow 2 54 - 1) * Nat.pow 2 970 ≤ m * Nat.pow 10 e.toNat
  else (Nat.pow 2 54 - 1) * Nat.pow 2 970 * Nat.pow 10 (-e).toNat ≤ m

def exponent (s : List Char) : Option Int :=
  if grouped Char.isDigit (dropSign s) then
    let n : Int := radixValue 10 (dropSign s)
    some (if isNegative s then -n else n)
  else none

def isExponentMark (c : Char) : Bool := c = 'e' || c = 'E'

def fractionExponent : List Char → Option (List Char × Int)
  | '.' :: rest =>
    let fraction := rest.takeWhile fun c => !isExponentMark c
    if grouped Char.isDigit fraction then
      match rest.dropWhile fun c => !isExponentMark c with
      | [] => some (fraction, 0)
      | _ :: mantissaEnd => (exponent mantissaEnd).map fun e => (fraction, e)
    else none
  | c :: rest => if isExponentMark c then (exponent rest).map fun e => ([], e) else none
  | [] => none

def isFloat (s : List Char) : Bool :=
  let ends := fun c => c = '.' || isExponentMark c
  let whole := (dropSign s).takeWhile fun c => !ends c
  match fractionExponent ((dropSign s).dropWhile fun c => !ends c) with
  | none => false
  | some (fraction, e) =>
    let places := (fraction.filter Char.isDigit).length
    isDecimal whole &&
      (isNegative s || !exceedsDouble (radixValue 10 (whole ++ fraction)) (e - places))

def isSpecial (s : List Char) : Bool :=
  dropSign s = ['i', 'n', 'f'] || dropSign s = ['n', 'a', 'n']

def daysIn (year month : Nat) : Nat :=
  if month = 2 then
    if year % 4 = 0 ∧ (year % 100 ≠ 0 ∨ year % 400 = 0) then 29 else 28
  else if month = 4 ∨ month = 6 ∨ month = 9 ∨ month = 11 then 30
  else 31

def isDate (s : List Char) : Bool :=
  match s with
  | [y1, y2, y3, y4, '-', m1, m2, '-', d1, d2] =>
    match Text.number? [y1, y2, y3, y4], Text.number? [m1, m2], Text.number? [d1, d2] with
    | some year, some month, some day =>
      1 ≤ month && month ≤ 12 && 1 ≤ day && day ≤ daysIn year month
    | _, _, _ => false
  | _ => false

def isAtMost (limit : Nat) (s : List Char) : Bool :=
  match Text.number? s with
  | some n => n ≤ limit
  | none => false

def isZone : List Char → Bool
  | ['Z'] => true
  | ['z'] => true
  | [sign, h1, h2, ':', m1, m2] =>
    (sign = '+' || sign = '-') && isAtMost 23 [h1, h2] && isAtMost 59 [m1, m2]
  | _ => false

/-- What follows a time of day: nothing of it is left where it stands alone. A leap second
is a second. -/
def afterTime (s : List Char) : Option (List Char) :=
  match s with
  | h1 :: h2 :: ':' :: m1 :: m2 :: ':' :: s1 :: s2 :: rest =>
    if isAtMost 23 [h1, h2] && isAtMost 59 [m1, m2] && isAtMost 60 [s1, s2] then
      match rest with
      | '.' :: digits =>
        if (digits.head?.any Char.isDigit) then some (digits.dropWhile Char.isDigit) else none
      | _ => some rest
    else none
  | _ => none

def isTime (s : List Char) : Bool := afterTime s = some []

def isZonedTime (s : List Char) : Bool :=
  match afterTime s with
  | some [] => true
  | some zone => isZone zone
  | none => false

def isDateTime (s : List Char) : Bool :=
  isDate (s.take 10) &&
    match s.drop 10 with
    | [] => true
    | mark :: time => (mark = 'T' || mark = 't') && isZonedTime time

def isScalar (s : List Char) : Bool :=
  isInteger s || isFloat s || isSpecial s || isDateTime s || isTime s

def afterScalar (s : List Char) : Option (List Char) :=
  let token := s.takeWhile isScalarChar
  let rest := s.dropWhile isScalarChar
  if isScalar token then
    match rest with
    | ' ' :: more =>
      if isDate token && isZonedTime (more.takeWhile isScalarChar) then
        some (more.dropWhile isScalarChar)
      else some rest
    | _ => some rest
  else none

end HugePools.Toml
