import HugePools.Proofs.RegionContents

/-! What a region does not depend on. Of the whole table the rows of its pages count, in their
order, and of its markers how many there are and the end that they state. Rows of other pools, the
places of the markers and their starts have no say in the region, nor in the error. -/
namespace HugePools

namespace LegacyRow

def markers (pool : PoolKind) (rows : List LegacyRow) : List LegacyRow :=
  (own pool rows).filter isMarker

structure EndsAt (stop : Int64) (row : LegacyRow) : Prop where
  start : 0 ≤ row.startOffset.toInt
  positive : 0 ≤ row.endOffset.toInt
  ends : row.endOffset = stop

instance (stop : Int64) (row : LegacyRow) : Decidable (row.EndsAt stop) :=
  decidable_of_iff (0 ≤ row.startOffset.toInt ∧ 0 ≤ row.endOffset.toInt ∧ row.endOffset = stop)
    ⟨fun all => ⟨all.1, all.2.1, all.2.2⟩, fun ends => ⟨ends.start, ends.positive, ends.ends⟩⟩

variable {pool : PoolKind} {row : LegacyRow} {stop : Int64} {i : Interval}

theorem readMarker (read : Interval.ofRow pool row = .ok i) : i.isMarker = row.isMarker := by
  obtain ⟨_, rfl⟩ := denotesIff.mp (Interval.ofRowOk.mp read)
  exact row.intervalMarker pool

theorem EndsAt.read (ends : row.EndsAt stop) (marker : row.isMarker = true) :
    Interval.ofRow pool row = .ok (row.interval pool) := by
  have size : row.pageSize.toInt = -1 := of_decide_eq_true marker
  exact Interval.ofRowOk.mpr (denotesIff.mpr ⟨⟨.inl size, ends.start, ends.positive⟩, rfl⟩)

theorem EndsAt.size (ends : row.EndsAt stop) : (row.interval pool).stop = stop.toInt.toNat :=
  congrArg (fun stop => stop.toInt.toNat) ends.ends

end LegacyRow

namespace LegacyRegion

variable {pool : PoolKind} {rows others : List LegacyRow} {stop : Int64}

def sizeStated (pool : PoolKind) (size : Nat) : Nat → Except LayoutError Nat
  | 0 => .error (.missingPoolSize pool)
  | 1 => .ok size
  | count => .error (.repeatedPoolSize pool count)

/-- A region out of the rows of its pages, the number of its markers and the size that each of them
states. -/
def ofParts? (pool : PoolKind) (pages : List LegacyRow) (count size : Nat) :
    Except LayoutError LegacyRegion := do
  let intervals ← pages.mapM (Interval.ofRow pool)
  let size ← sizeStated pool size count
  let region : LegacyRegion := ⟨pool, size, intervals.mergeSort fun i j => i.start ≤ j.start⟩
  region.check
  return region

theorem statedAlike {intervals : List Interval} {size : Nat}
    (same : ∀ i ∈ intervals.filter Interval.isMarker, i.stop = size) :
    statedSize pool intervals =
      sizeStated pool size (intervals.filter Interval.isMarker).length := by
  unfold statedSize
  split
  · rename_i none
    rw [none]
    rfl
  · rename_i m one
    rw [one, same m (one ▸ List.mem_singleton_self m)]
    rfl
  · rename_i none several
    rcases markers : intervals.filter Interval.isMarker with _ | ⟨m, _ | ⟨n, more⟩⟩
    · exact absurd markers none
    · exact absurd markers (several m)
    · rfl

theorem pagesRead (ends : ∀ m ∈ LegacyRow.markers pool rows, m.EndsAt stop) :
    (LegacyRow.pages pool rows).mapM (Interval.ofRow pool) =
      ((LegacyRow.own pool rows).mapM (Interval.ofRow pool)).map
        (List.filter fun i => !i.isMarker) := by
  refine Results.mapMFilter (fun row i read => ?_) fun row mem other => ?_
  · rw [LegacyRow.readMarker read]
  · have marker : row.isMarker = true := by simpa using other
    exact ⟨_, (ends row (List.mem_filter.mpr ⟨mem, marker⟩)).read marker⟩

theorem markersStated (ends : ∀ m ∈ LegacyRow.markers pool rows, m.EndsAt stop) :
    statedSize pool (((LegacyRow.own pool rows).map (LegacyRow.interval pool)).mergeSort
      fun i j => i.start ≤ j.start) =
      sizeStated pool stop.toInt.toNat (LegacyRow.markers pool rows).length := by
  -- A marker may start where an interval does, so this takes a sort that keeps ties in order.
  have kept : (((LegacyRow.own pool rows).map (LegacyRow.interval pool)).mergeSort
      fun i j => i.start ≤ j.start).filter Interval.isMarker =
        ((LegacyRow.markers pool rows).map (LegacyRow.interval pool)).mergeSort
          fun i j => i.start ≤ j.start := by
    rw [filterSorted]
    simp only [LegacyRow.intervalMarker]
    rfl
  rw [statedAlike, kept, List.length_mergeSort, List.length_map]
  intro i mem
  rw [kept, List.mem_mergeSort] at mem
  obtain ⟨row, own, rfl⟩ := List.mem_map.mp mem
  exact (ends row own).size

theorem ofRowsParts (ends : ∀ m ∈ LegacyRow.markers pool rows, m.EndsAt stop) :
    ofRows? pool rows = ofParts? pool (LegacyRow.pages pool rows)
      (LegacyRow.markers pool rows).length stop.toInt.toNat := by
  unfold ofRows? ofParts?
  rw [pagesRead ends]
  cases read : (LegacyRow.own pool rows).mapM (Interval.ofRow pool) with
  | error fault =>
    have unread : sorted pool rows = .error fault := Results.mapFails.mpr read
    rw [unread]
    rfl
  | ok own =>
    obtain ⟨readable, rfl⟩ := LegacyRow.readAll.mp read
    rw [sortedOk.mpr ⟨readable, rfl⟩]
    change (statedSize pool _ >>= _) = (sizeStated pool _ _ >>= _)
    rw [markersStated ends, filterMergeSort startTrans startTotal]

/-- Two tables with the same page rows of a pool and with as many markers of it, all of which end at
one offset, give the same region or the same error, and report the same. -/
theorem insulated (stop : Int64)
    (pages : LegacyRow.pages pool rows = LegacyRow.pages pool others)
    (count : (LegacyRow.markers pool rows).length = (LegacyRow.markers pool others).length)
    (ends : ∀ m ∈ LegacyRow.markers pool rows ++ LegacyRow.markers pool others, m.EndsAt stop) :
    ofRows pool rows = ofRows pool others := by
  obtain ⟨first, second⟩ := List.forall_mem_append.mp ends
  have same : ofRows? pool rows = ofRows? pool others := by
    rw [ofRowsParts first, ofRowsParts second, pages, count]
  unfold ofRows
  rw [same]

end LegacyRegion

def fencedRows : List LegacyRow := [
  ⟨"mmap", -1, 0, 8388608⟩, ⟨"mmap", 2097152, 2097152, 4194304⟩, ⟨"mmap", 4096, 0, 2097152⟩]

def scatteredRows : List LegacyRow := [
  ⟨"brk", 7, -1, 0⟩, ⟨"mmap", 2097152, 2097152, 4194304⟩, ⟨"MMAP", -1, 0, 1⟩,
  ⟨"mmap", 4096, 0, 2097152⟩, ⟨"mmap", -1, 2097152, 8388608⟩]

theorem scatteredAlike : (LegacyRegion.ofRows .mmap scatteredRows).result = .ok ⟨.mmap, 8388608,
      [⟨.mmap, .page .base, 0, 2097152⟩, ⟨.mmap, .page .large, 2097152, 4194304⟩]⟩ ∧
    (LegacyRegion.ofRows .mmap (⟨"mmap", -1, 9, 8388608⟩ :: scatteredRows)).result =
      .error (.repeatedPoolSize .mmap 2) := by
  have loaded : (LegacyRegion.ofRows .mmap fencedRows).result = .ok ⟨.mmap, 8388608,
      [⟨.mmap, .page .base, 0, 2097152⟩, ⟨.mmap, .page .large, 2097152, 4194304⟩]⟩ := by cbv
  have refused : (LegacyRegion.ofRows .mmap (⟨"mmap", -1, 0, 8388608⟩ :: fencedRows)).result =
      .error (.repeatedPoolSize .mmap 2) := by cbv
  have first : LegacyRegion.ofRows .mmap fencedRows = LegacyRegion.ofRows .mmap scatteredRows :=
    LegacyRegion.insulated 8388608 (by decide) (by decide) (by decide)
  have second : LegacyRegion.ofRows .mmap (⟨"mmap", -1, 0, 8388608⟩ :: fencedRows) =
      LegacyRegion.ofRows .mmap (⟨"mmap", -1, 9, 8388608⟩ :: scatteredRows) :=
    LegacyRegion.insulated 8388608 (by decide) (by decide) (by decide)
  exact ⟨first ▸ loaded, second ▸ refused⟩

end HugePools
