/-! Signed 64-bit integers in decimal and hexadecimal text. Reading goes from left to
right and stops at the first digit that is none, or that leaves the range. -/
namespace HugePools.Integer

inductive Fault where
  | empty | invalidDigit | tooLarge | tooSmall
  deriving DecidableEq, Repr

def Fault.message : Fault → String
  | .empty => "cannot parse integer from empty string"
  | .invalidDigit => "invalid digit found in string"
  | .tooLarge => "number too large to fit in target type"
  | .tooSmall => "number too small to fit in target type"

def digit? (radix : Nat) (c : Char) : Option Nat :=
  let value :=
    if c.isDigit then c.toNat - '0'.toNat
    else if 'a' ≤ c ∧ c ≤ 'f' then c.toNat - 'a'.toNat + 10
    else if 'A' ≤ c ∧ c ≤ 'F' then c.toNat - 'A'.toNat + 10
    else radix
  if value < radix then some value else none

def accumulate (radix : Nat) (negative : Bool) : Int → List Char → Except Fault Int
  | n, [] => .ok n
  | n, c :: rest =>
    match digit? radix c with
    | none => .error .invalidDigit
    | some d =>
      let next := if negative then n * radix - d else n * radix + d
      if next < -0x8000000000000000 then .error .tooSmall
      else if 0x8000000000000000 ≤ next then .error .tooLarge
      else accumulate radix negative next rest

def ofDigits (radix : Nat) (s : List Char) : Except Fault Int64 :=
  match s with
  | [] => .error .empty
  | ['+'] => .error .invalidDigit
  | ['-'] => .error .invalidDigit
  | '+' :: rest => (accumulate radix false 0 rest).map Int64.ofInt
  | '-' :: rest => (accumulate radix true 0 rest).map Int64.ofInt
  | rest => (accumulate radix false 0 rest).map Int64.ofInt

def parse (s : List Char) : Except Fault Int64 :=
  match s with
  | '0' :: 'x' :: rest => ofDigits 16 rest
  | _ => ofDigits 10 s

def chars (n : Int64) : List Char :=
  if n.toInt < 0 then '-' :: Nat.toDigits 10 n.toInt.natAbs
  else Nat.toDigits 10 n.toInt.natAbs

end HugePools.Integer
