import HugePools.LayoutError

/-! The rows of the legacy format with their meaning: a range of pages of one size, or
the marker that states the size of a pool. -/
namespace HugePools

inductive IntervalKind where
  | poolSize
  | page (size : PageSize)
  deriving DecidableEq, Repr

namespace IntervalKind

def column : IntervalKind → Int
  | .poolSize => -1
  | .page size => size.bytes

def ofColumn? (n : Int) : Option IntervalKind :=
  if n = -1 then some .poolSize
  else if n < 0 then none
  else (PageSize.ofBytes? n.toNat).map .page

theorem ofColumnColumn (k : IntervalKind) : ofColumn? k.column = some k := by
  cases k with
  | poolSize => rfl
  | page size => cases size <;> rfl

theorem ofColumnOk {n : Int} {kind : IntervalKind} :
    ofColumn? n = some kind ↔ n = kind.column := by
  constructor
  · intro found
    unfold ofColumn? at found
    split at found
    · cases found
      assumption
    · split at found
      · cases found
      · obtain ⟨page, bytes, rfl⟩ := Option.map_eq_some_iff.mp found
        have value := PageSize.ofBytesOk.mp bytes
        simp only [column]
        omega
  · intro same
    rw [same, ofColumnColumn]

end IntervalKind

structure Interval where
  pool : PoolKind
  kind : IntervalKind
  start : Nat
  stop : Nat
  deriving DecidableEq, Repr

namespace Interval

def marker (pool : PoolKind) (size : Nat) : Interval := ⟨pool, .poolSize, 0, size⟩

def ofRange (pool : PoolKind) (page : PageSize) (r : ByteRange) : Interval :=
  ⟨pool, .page page, r.start, r.stop⟩

def isMarker (i : Interval) : Bool := i.kind = .poolSize

def range (i : Interval) : ByteRange := ⟨i.start, i.stop⟩

def text (i : Interval) : String := s!"{i.pool.name},{i.kind.column},{i.start},{i.stop}"

def ofRow (pool : PoolKind) (r : LegacyRow) : Except LayoutError Interval :=
  match IntervalKind.ofColumn? r.pageSize.toInt with
  | none => .error (.unknownPageSize pool r.pageSize.toInt)
  | some kind =>
    if r.startOffset.toInt < 0 ∨ r.endOffset.toInt < 0 then
      .error (.negativeOffset pool r.startOffset.toInt r.endOffset.toInt)
    else .ok ⟨pool, kind, r.startOffset.toInt.toNat, r.endOffset.toInt.toNat⟩

def signed (pool : PoolKind) (offset : Nat) : Except LayoutError Int64 :=
  if offset < 0x8000000000000000 then .ok (Int64.ofNat offset) else .error (.offsetOverflow pool offset)

def row (i : Interval) : Except LayoutError LegacyRow := do
  let start ← signed i.pool i.start
  let stop ← signed i.pool i.stop
  return ⟨i.pool.name, Int64.ofInt i.kind.column, start, stop⟩

end Interval
end HugePools
