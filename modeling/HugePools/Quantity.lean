/-! The 64-bit limit of sizes, offsets and page indices, and why one of them was refused. Sums and
products are taken in the natural numbers and compared with the limit once, at the end. -/
namespace HugePools

abbrev wordLimit : Nat := 0x10000000000000000

abbrev Word : Type := Fin wordLimit

def Word.of? (n : Nat) : Option Word :=
  if fits : n < wordLimit then some ⟨n, fits⟩ else none

def saturate (n : Nat) : Nat := min n (wordLimit - 1)

theorem saturateOfLt {n : Nat} (fits : n < wordLimit) : saturate n = n := by
  unfold saturate wordLimit at *; omega

theorem saturateAdd (m n : Nat) : saturate (saturate m + saturate n) = saturate (m + n) := by
  unfold saturate; omega

theorem saturateAddLeft (m n : Nat) : saturate (saturate m + n) = saturate (m + n) := by
  unfold saturate; omega

inductive QuantityError where
  | invalidSize (text : String)
  | unknownUnit (text unit : String)
  | sizeOverflow (text : String)
  | invalidToken (text : String)
  | reversedRange (first last : Nat)
  | addressOverflow (index pageSize offset : Nat)
  deriving DecidableEq, Repr

def QuantityError.message : QuantityError → String
  | .invalidSize text => s!"invalid size string: '{text}'"
  | .unknownUnit text unit =>
    s!"invalid unit '{unit}' in size string '{text}' (expected kb, mb or gb)"
  | .sizeOverflow text => s!"size overflow: '{text}'"
  | .invalidToken text => s!"invalid range token: '{text}'"
  | .reversedRange first last => s!"reversed range token: {first}-{last}"
  | .addressOverflow index pageSize offset =>
    s!"address overflow expanding index {index} (page size {pageSize}, offset {offset})"

end HugePools
