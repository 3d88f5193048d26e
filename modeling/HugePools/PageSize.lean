/-! The three page sizes, and alignment. -/
namespace HugePools

inductive PageSize where
  | base | large | huge
  deriving DecidableEq, Repr

namespace PageSize

def bytes : PageSize → Nat
  | .base => 4 * 1024
  | .large => 2 * 1024 * 1024
  | .huge => 1024 * 1024 * 1024

def label : PageSize → String
  | .base => "4KB"
  | .large => "2MB"
  | .huge => "1GB"

def isHuge : PageSize → Bool
  | .base => false
  | .large => true
  | .huge => true

def ofBytes? (n : Nat) : Option PageSize :=
  if n = base.bytes then some .base
  else if n = large.bytes then some .large
  else if n = huge.bytes then some .huge
  else none

theorem ofBytesBytes (p : PageSize) : ofBytes? p.bytes = some p := by cases p <;> rfl

theorem ofBytesOk {n : Nat} {page : PageSize} : ofBytes? n = some page ↔ n = page.bytes := by
  constructor
  · intro found
    unfold ofBytes? at found
    split at found
    · cases found; assumption
    · split at found
      · cases found; assumption
      · split at found
        · cases found; assumption
        · cases found
  · intro same
    rw [same, ofBytesBytes]

theorem forallHuge {holds : PageSize → Prop} :
    (∀ page, page ≠ .base → holds page) ↔ holds .large ∧ holds .huge := by
  constructor
  · intro all
    exact ⟨all .large (by decide), all .huge (by decide)⟩
  · intro both page other
    cases page with
    | base => contradiction
    | large => exact both.1
    | huge => exact both.2

theorem bytesPos (p : PageSize) : 0 < p.bytes := by cases p <;> decide

end PageSize

def isAligned (value alignment : Nat) : Bool := alignment ≠ 0 && value % alignment = 0

def distance (a b : Nat) : Nat := (a - b) + (b - a)

theorem isAlignedIff {value alignment : Nat} :
    isAligned value alignment = true ↔ alignment ≠ 0 ∧ alignment ∣ value := by
  simp [isAligned, Nat.dvd_iff_mod_eq_zero]

theorem PageSize.alignedIff (page : PageSize) {value : Nat} :
    isAligned value page.bytes = true ↔ page.bytes ∣ value := by
  rw [HugePools.isAlignedIff]
  exact and_iff_right (Nat.ne_of_gt page.bytesPos)

end HugePools
