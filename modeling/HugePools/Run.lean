import HugePools.Quantity
import HugePools.Text

/-! Runs of page indices and ranges of byte addresses. A run holds both its ends; a
byte range stops before its end. -/
namespace HugePools

structure ByteRange where
  start : Nat
  stop : Nat
  deriving DecidableEq, Repr

namespace ByteRange

def length (r : ByteRange) : Nat := r.stop - r.start

def isEmpty (r : ByteRange) : Bool := r.length = 0

def fitsWithin (r : ByteRange) (limit : Nat) : Bool := r.start ≤ limit && r.stop ≤ limit

def interleaves (r s : ByteRange) : Bool := s.start < r.stop && r.start < s.stop

def text (r : ByteRange) : String := s!"[{r.start}-{r.stop})"

end ByteRange

structure Run where
  first : Nat
  last : Nat
  ordered : first ≤ last
  bounded : last < wordLimit
  deriving DecidableEq, Repr

namespace Run

def single (index : Word) : Run := ⟨index.val, index.val, Nat.le_refl _, index.isLt⟩

def between (first last : Word) : Except QuantityError Run :=
  if ordered : first.val ≤ last.val then .ok ⟨first.val, last.val, ordered, last.isLt⟩
  else .error (.reversedRange first.val last.val)

def count (r : Run) : Nat := r.last - r.first + 1

def indices (r : Run) : List Nat := List.range' r.first r.count

def Has (r : Run) (index : Nat) : Prop := r.first ≤ index ∧ index ≤ r.last

instance (r : Run) (index : Nat) : Decidable (r.Has index) :=
  inferInstanceAs (Decidable (_ ∧ _))

def index? (part : List Char) : Option Word := (Text.number? (Text.trim part)).bind Word.of?

def parse (text : String) : Except QuantityError Run :=
  let token := Text.trim text.toList
  let invalid := QuantityError.invalidToken (String.ofList token)
  match Text.cut '-' token with
  | none =>
    match index? token with
    | some index => .ok (single index)
    | none => .error invalid
  | some (before, after) =>
    match index? before, index? after with
    | some first, some last => between first last
    | _, _ => .error invalid

def chars (r : Run) : List Char :=
  if r.first = r.last then Text.digits r.first
  else Text.digits r.first ++ '-' :: Text.digits r.last

def text (r : Run) : String := String.ofList r.chars

def address (pageSize offset index : Nat) : Except QuantityError Nat :=
  if index * pageSize + offset < wordLimit then .ok (index * pageSize + offset)
  else .error (.addressOverflow index pageSize offset)

def byteRange (pageSize offset : Nat) (r : Run) : Except QuantityError ByteRange := do
  let start ← address pageSize offset r.first
  if r.last + 1 < wordLimit then
    let stop ← address pageSize offset (r.last + 1)
    return ⟨start, stop⟩
  else throw (.addressOverflow r.last pageSize offset)

def Apart (r s : Run) : Prop := r.last + 1 < s.first

instance (r s : Run) : Decidable (r.Apart s) := inferInstanceAs (Decidable (_ < _))

def extend (r s : Run) : Run :=
  ⟨r.first, max r.last s.last, Nat.le_trans r.ordered (Nat.le_max_left _ _),
    Nat.max_lt.mpr ⟨r.bounded, s.bounded⟩⟩

def before (r s : Run) : Bool :=
  r.first < s.first || (r.first = s.first && r.last ≤ s.last)

theorem memIndices (r : Run) (index : Nat) : index ∈ r.indices ↔ r.Has index := by
  have := r.ordered
  simp only [indices, count, List.mem_range'_1, Has]
  omega

theorem lengthIndices (r : Run) : r.indices.length = r.count := by simp [indices]

end Run
end HugePools
