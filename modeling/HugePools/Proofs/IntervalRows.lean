import HugePools.LegacyTable
import HugePools.Proofs.Results

/-! Intervals as rows of the legacy table. Where both ends fit the signed columns, the row
of an interval is read back as that interval. -/
namespace HugePools

structure LegacyRow.Denotes (pool : PoolKind) (r : LegacyRow) (i : Interval) : Prop where
  pool : i.pool = pool
  kind : i.kind.column = r.pageSize.toInt
  start : (i.start : Int) = r.startOffset.toInt
  stop : (i.stop : Int) = r.endOffset.toInt

namespace Interval

def Storable (i : Interval) : Prop := i.start < 2 ^ 63 ∧ i.stop < 2 ^ 63

def record (i : Interval) : LegacyRow :=
  ⟨i.pool.name, Int64.ofInt i.kind.column, Int64.ofNat i.start, Int64.ofNat i.stop⟩

theorem signedOk {pool : PoolKind} {offset : Nat} {n : Int64} :
    signed pool offset = .ok n ↔ offset < 2 ^ 63 ∧ n = Int64.ofNat offset := by
  unfold signed
  split
  · rename_i fits
    have small : offset < 2 ^ 63 := by omega
    simp only [Except.ok.injEq, small, true_and]
    exact eq_comm
  · rename_i large
    have beyond : ¬ offset < 2 ^ 63 := by omega
    exact iff_of_false (fun same => by cases same) fun both => beyond both.1

theorem signedFails {pool : PoolKind} {offset : Nat} {fault : LayoutError} :
    signed pool offset = .error fault ↔ 2 ^ 63 ≤ offset ∧ fault = .offsetOverflow pool offset := by
  unfold signed
  split
  · exact iff_of_false (fun same => by cases same) fun both => by omega
  · have beyond : 2 ^ 63 ≤ offset := by omega
    simp only [Except.error.injEq, beyond, true_and]
    exact eq_comm

theorem rowOk {i : Interval} {r : LegacyRow} :
    i.row = .ok r ↔ i.Storable ∧ r = i.record := by
  unfold row
  rw [Results.bindOk]
  constructor
  · intro given
    obtain ⟨start, first, more⟩ := given
    obtain ⟨stop, second, last⟩ := Results.bindOk.mp more
    obtain ⟨below, rfl⟩ := signedOk.mp first
    obtain ⟨under, rfl⟩ := signedOk.mp second
    exact ⟨⟨below, under⟩, (Results.pureOk.mp last).symm⟩
  · intro given
    obtain ⟨⟨below, under⟩, rfl⟩ := given
    refine ⟨_, signedOk.mpr ⟨below, rfl⟩, ?_⟩
    exact Results.bindOk.mpr ⟨_, signedOk.mpr ⟨under, rfl⟩, rfl⟩

theorem rowFails {i : Interval} {fault : LayoutError} : i.row = .error fault ↔ ¬ i.Storable ∧
    fault = .offsetOverflow i.pool (if 2 ^ 63 ≤ i.start then i.start else i.stop) := by
  constructor
  · intro failed
    rcases Results.bindFails.mp failed with first | ⟨start, first, more⟩
    · obtain ⟨large, rfl⟩ := signedFails.mp first
      exact ⟨fun fits => Nat.not_lt_of_le large fits.1, by rw [if_pos large]⟩
    · have small := (signedOk.mp first).1
      rcases Results.bindFails.mp more with second | ⟨_, _, last⟩
      · obtain ⟨large, rfl⟩ := signedFails.mp second
        exact ⟨fun fits => Nat.not_lt_of_le large fits.2, by rw [if_neg (Nat.not_le_of_lt small)]⟩
      · cases last
  · intro given
    obtain ⟨beyond, rfl⟩ := given
    by_cases large : 2 ^ 63 ≤ i.start
    · rw [if_pos large]
      exact Results.bindFails.mpr (.inl (signedFails.mpr ⟨large, rfl⟩))
    · have small := Nat.lt_of_not_le large
      have late : 2 ^ 63 ≤ i.stop := Nat.le_of_not_lt fun fits => beyond ⟨small, fits⟩
      rw [if_neg large]
      refine Results.bindFails.mpr (.inr ⟨_, signedOk.mpr ⟨small, rfl⟩, ?_⟩)
      exact Results.bindFails.mpr (.inl (signedFails.mpr ⟨late, rfl⟩))

theorem columnKept (kind : IntervalKind) : (Int64.ofInt kind.column).toInt = kind.column := by
  cases kind with
  | poolSize => rfl
  | page size => cases size <;> rfl

theorem ofRowOk {pool : PoolKind} {r : LegacyRow} {i : Interval} :
    ofRow pool r = .ok i ↔ r.Denotes pool i := by
  constructor
  · intro read
    unfold ofRow at read
    split at read
    · cases read
    · rename_i kind found
      split at read
      · cases read
      · cases read
        exact ⟨rfl, (IntervalKind.ofColumnOk.mp found).symm, Int.toNat_of_nonneg (by omega),
          Int.toNat_of_nonneg (by omega)⟩
  · intro row
    obtain ⟨pool', kind, start, stop⟩ := i
    obtain ⟨rfl, column, first, last⟩ := row
    simp only at column first last
    unfold ofRow
    rw [← column, ← first, ← last, IntervalKind.ofColumnColumn]
    simp only [Int.toNat_natCast]
    rw [if_neg (by omega)]

theorem ofRowRecord {i : Interval} (fits : i.Storable) : ofRow i.pool i.record = .ok i :=
  ofRowOk.mpr ⟨rfl, (columnKept i.kind).symm, (Int64.toInt_ofNat_of_lt fits.1).symm,
    (Int64.toInt_ofNat_of_lt fits.2).symm⟩

end Interval

namespace LegacyTable

theorem rowsOk {intervals : List Interval} {table : List LegacyRow} :
    rows intervals = .ok table ↔
      (∀ i ∈ intervals, i.Storable) ∧ table = intervals.map Interval.record :=
  Results.mapMOk fun _ _ => Interval.rowOk

theorem ownRowsRead {intervals : List Interval} (fits : ∀ i ∈ intervals, i.Storable)
    (pool : PoolKind) :
    ((intervals.map Interval.record).filter fun r => r.poolType = pool.name).mapM
        (Interval.ofRow pool) = .ok (intervals.filter fun i => i.pool = pool) := by
  have named (i : Interval) : (i.record.poolType = pool.name) = (i.pool = pool) :=
    propext ⟨PoolKind.nameInjective, fun same => congrArg PoolKind.name same⟩
  induction intervals with
  | nil => rfl
  | cons i rest ih =>
    obtain ⟨first, others⟩ := List.forall_mem_cons.mp fits
    simp only [List.map_cons, List.filter_cons, named, decide_eq_true_eq]
    split
    · rename_i same
      exact Results.mapMCons.mpr ⟨i, _, same ▸ Interval.ofRowRecord first, ih others, rfl⟩
    · exact ih others

end LegacyTable
end HugePools
