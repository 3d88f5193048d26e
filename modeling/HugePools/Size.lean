import HugePools.Quantity
import HugePools.Text

/-! Byte counts and their text. A size is written as a plain count, or as a count
and one of three 1024-based units. -/
namespace HugePools

@[ext] structure Size where
  bytes : Nat
  bounded : bytes < wordLimit := by decide
  deriving Repr

instance : DecidableEq Size := fun s t => decidable_of_iff (s.bytes = t.bytes) Size.ext_iff.symm

namespace Size

def zero : Size := { bytes := 0 }

inductive Unit where
  | kb | mb | gb
  deriving DecidableEq, Repr

def Unit.bytes : Unit → Nat
  | .kb => 1024
  | .mb => 1024 * 1024
  | .gb => 1024 * 1024 * 1024

def Unit.of? (s : List Char) : Option Unit :=
  let folded := s.map Char.toLower
  if folded = ['k', 'b'] then some .kb
  else if folded = ['m', 'b'] then some .mb
  else if folded = ['g', 'b'] then some .gb
  else none

/-- The text before its last two UTF-8 bytes, and the characters which those bytes are:
two ASCII characters, or one that takes two bytes. None where the two bytes would
begin inside a character, or where there are fewer. -/
def cutUnit (s : List Char) : Option (List Char × List Char) :=
  match s.reverse with
  | [] => none
  | c :: rest =>
    if c.utf8Size = 2 then some (rest.reverse, [c])
    else match rest with
      | [] => none
      | b :: front =>
        if c.utf8Size = 1 ∧ b.utf8Size = 1 then some (front.reverse, [b, c]) else none

def ofCount (text : String) (count : Nat) : Except QuantityError Size :=
  if bounded : count < wordLimit then .ok ⟨count, bounded⟩ else .error (.sizeOverflow text)

def ofTrimmed (s : List Char) : Except QuantityError Size :=
  let text := String.ofList s
  match Text.number? s with
  | some count => ofCount text count
  | none =>
    match cutUnit s with
    | none => .error (.invalidSize text)
    | some (front, last) =>
      match Unit.of? last with
      | none => .error (.unknownUnit text (String.ofList last))
      | some unit =>
        match Text.number? (Text.trim front) with
        | none => .error (.invalidSize text)
        | some count => ofCount text (count * unit.bytes)

def parse (text : String) : Except QuantityError Size := ofTrimmed (Text.trim text.toList)

def text (s : Size) : String :=
  if Unit.gb.bytes ≤ s.bytes ∧ s.bytes % Unit.gb.bytes = 0 then s!"{s.bytes / Unit.gb.bytes} GB"
  else if Unit.mb.bytes ≤ s.bytes ∧ s.bytes % Unit.mb.bytes = 0 then
    s!"{s.bytes / Unit.mb.bytes} MB"
  else if Unit.kb.bytes ≤ s.bytes ∧ s.bytes % Unit.kb.bytes = 0 then
    s!"{s.bytes / Unit.kb.bytes} KB"
  else s!"{s.bytes} B"

theorem ofCountBytes {text : String} {count : Nat} {s : Size} (ok : ofCount text count = .ok s) :
    s.bytes = count := by
  unfold ofCount at ok
  split at ok
  · cases ok; rfl
  · contradiction

end Size
end HugePools
