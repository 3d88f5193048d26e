import HugePools.Text

/-! UTF-8. Decoding gives the characters, or the index at which the first sequence
begins that is not well formed. -/
namespace HugePools.Utf8

def encode (s : List Char) : List UInt8 := s.flatMap String.utf8EncodeChar

def tail (b : UInt8) : Bool := 0x80 ≤ b && b ≤ 0xBF

def second (a b : UInt8) : Bool :=
  if a = 0xE0 then 0xA0 ≤ b && b ≤ 0xBF
  else if a = 0xED then 0x80 ≤ b && b ≤ 0x9F
  else if a = 0xF0 then 0x90 ≤ b && b ≤ 0xBF
  else if a = 0xF4 then 0x80 ≤ b && b ≤ 0x8F
  else tail b

def low (b : UInt8) : Nat := b.toNat % 64

def step : List UInt8 → Option (Char × List UInt8)
  | [] => none
  | a :: rest =>
    if a < 0x80 then some (Char.ofNat a.toNat, rest)
    else if 0xC2 ≤ a && a ≤ 0xDF then
      match rest with
      | b :: rest =>
        if tail b then some (Char.ofNat ((a.toNat - 0xC0) * 64 + low b), rest) else none
      | _ => none
    else if 0xE0 ≤ a && a ≤ 0xEF then
      match rest with
      | b :: c :: rest =>
        if second a b && tail c then
          some (Char.ofNat (((a.toNat - 0xE0) * 64 + low b) * 64 + low c), rest)
        else none
      | _ => none
    else if 0xF0 ≤ a && a ≤ 0xF4 then
      match rest with
      | b :: c :: d :: rest =>
        if second a b && tail c && tail d then
          some (Char.ofNat ((((a.toNat - 0xF0) * 64 + low b) * 64 + low c) * 64 + low d), rest)
        else none
      | _ => none
    else none

theorem stepShorter {bytes rest : List UInt8} {c : Char} (found : step bytes = some (c, rest)) :
    rest.length < bytes.length := by
  unfold step at found
  grind

def decodeFrom (index : Nat) (bytes : List UInt8) : Except Nat (List Char) :=
  if bytes = [] then .ok []
  else
    match _found : step bytes with
    | none => .error index
    | some (c, rest) => (decodeFrom (index + (bytes.length - rest.length)) rest).map (c :: ·)
termination_by bytes.length
decreasing_by exact stepShorter (by assumption)

def decode (bytes : List UInt8) : Except Nat (List Char) := decodeFrom 0 bytes

end HugePools.Utf8
