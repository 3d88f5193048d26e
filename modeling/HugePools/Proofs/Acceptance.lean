import HugePools.Proofs.IntervalRows
import HugePools.Proofs.RegionChecks

/-! Which rows a legacy region is read from, stated on the rows and on all pairs of intervals. -/
namespace HugePools

namespace LegacyRow

def own (pool : PoolKind) (rows : List LegacyRow) : List LegacyRow :=
  rows.filter fun r => r.poolType = pool.name

structure Readable (r : LegacyRow) : Prop where
  pageSize : r.pageSize.toInt = -1 ∨ r.pageSize.toInt = 4096 ∨ r.pageSize.toInt = 2 ^ 21 ∨
    r.pageSize.toInt = 2 ^ 30
  start : 0 ≤ r.startOffset.toInt
  stop : 0 ≤ r.endOffset.toInt

def isMarker (r : LegacyRow) : Bool := r.pageSize.toInt = -1

def kind (r : LegacyRow) : IntervalKind :=
  (IntervalKind.ofColumn? r.pageSize.toInt).getD (.page .base)

def interval (pool : PoolKind) (r : LegacyRow) : Interval :=
  ⟨pool, r.kind, r.startOffset.toInt.toNat, r.endOffset.toInt.toNat⟩

theorem kindOfColumn {r : LegacyRow} {kind : IntervalKind}
    (column : kind.column = r.pageSize.toInt) : r.kind = kind := by
  unfold LegacyRow.kind
  rw [← column, IntervalKind.ofColumnColumn]
  rfl

theorem kindMarker (r : LegacyRow) : r.kind = .poolSize ↔ r.pageSize.toInt = -1 := by
  constructor
  · intro same
    cases found : IntervalKind.ofColumn? r.pageSize.toInt with
    | none => rw [LegacyRow.kind, found] at same; cases same
    | some kind =>
      rw [LegacyRow.kind, found] at same
      cases same
      exact IntervalKind.ofColumnOk.mp found
  · intro minus
    exact kindOfColumn minus.symm

theorem intervalMarker (pool : PoolKind) (r : LegacyRow) :
    (r.interval pool).isMarker = r.isMarker := by
  rw [Bool.eq_iff_iff]
  unfold Interval.isMarker LegacyRow.isMarker
  rw [decide_eq_true_iff, decide_eq_true_iff]
  exact r.kindMarker

theorem columnIff {r : LegacyRow} : (r.pageSize.toInt = -1 ∨ r.pageSize.toInt = 4096 ∨
    r.pageSize.toInt = 2 ^ 21 ∨ r.pageSize.toInt = 2 ^ 30) ↔ r.kind.column = r.pageSize.toInt := by
  constructor
  · intro given
    have known : ∃ kind : IntervalKind, kind.column = r.pageSize.toInt := by
      rcases given with size | size | size | size
      · exact ⟨.poolSize, size.symm⟩
      · exact ⟨.page .base, size.symm⟩
      · exact ⟨.page .large, size.symm⟩
      · exact ⟨.page .huge, size.symm⟩
    obtain ⟨kind, column⟩ := known
    rw [kindOfColumn column, column]
  · intro column
    rw [← column]
    cases r.kind with
    | poolSize => exact .inl rfl
    | page size => cases size <;> simp [IntervalKind.column, PageSize.bytes]

theorem denotesIff {pool : PoolKind} {r : LegacyRow} {i : Interval} :
    r.Denotes pool i ↔ r.Readable ∧ i = r.interval pool := by
  constructor
  · intro row
    have start := row.start
    have stop := row.stop
    have column := row.kind
    have kind := kindOfColumn column
    refine ⟨⟨columnIff.mpr (kind ▸ column), by omega, by omega⟩, ?_⟩
    have first : i.start = r.startOffset.toInt.toNat := by omega
    have last : i.stop = r.endOffset.toInt.toNat := by omega
    unfold interval
    rw [← row.pool, kind, ← first, ← last]
  · intro given
    obtain ⟨readable, rfl⟩ := given
    exact ⟨rfl, columnIff.mp readable.pageSize, Int.toNat_of_nonneg readable.start,
      Int.toNat_of_nonneg readable.stop⟩

end LegacyRow

namespace LegacyRegion

def sortedPages (pool : PoolKind) (rows : List LegacyRow) : List Interval :=
  (((LegacyRow.own pool rows).filter fun r => !r.isMarker).map (LegacyRow.interval pool)).mergeSort
    fun i j => i.start ≤ j.start

/-- The arrangement that the checks enforce, for all intervals at once. Bounds are
enforced only as far as both huge page sizes go along with each other. -/
structure Arranged (r : LegacyRegion) : Prop where
  bounded : ∀ (k : Nat) (i j : Interval),
    (r.intervals.filter fun i => i.kind = .page .large)[k]? = some i →
    (r.intervals.filter fun i => i.kind = .page .huge)[k]? = some j →
    i.stop ≤ r.size ∧ j.stop ≤ r.size
  shaped : ∀ page, page ≠ .base → ∀ i ∈ r.intervals, i.kind = .page page →
    i.start ≤ i.stop ∧ 4096 ∣ i.start ∧ page.bytes ∣ i.stop - i.start
  stepped : ∀ page, page ≠ .base → ∀ i ∈ r.intervals, i.kind = .page page →
    ∀ j ∈ r.intervals, j.kind = .page page → page.bytes ∣ Nat.dist i.start j.start
  crossed : ∀ i ∈ r.intervals, i.kind = .page .large → ∀ j ∈ r.intervals, j.kind = .page .huge →
    2 ^ 21 ∣ Nat.dist i.start j.start
  clear : r.intervals.Pairwise fun i j => i.stop ≤ j.start

variable {r : LegacyRegion}

theorem memGroup {page : PageSize} {i : Interval} :
    i ∈ r.group page ↔ i ∈ r.intervals ∧ i.kind = .page page := by
  unfold group
  rw [List.mem_filter, decide_eq_true_iff]

theorem groupOk {page : PageSize} (between : String) :
    r.checkGroup page between none (r.group page) = .ok () ↔
      (∀ i ∈ r.intervals, i.kind = .page page →
        i.start ≤ i.stop ∧ 4096 ∣ i.start ∧ page.bytes ∣ i.stop - i.start) ∧
      ∀ i ∈ r.intervals, i.kind = .page page → ∀ j ∈ r.intervals, j.kind = .page page →
        page.bytes ∣ Nat.dist i.start j.start := by
  rw [checkGroupOk, Option.toList_none, List.nil_append, sameStepAll]
  simp only [memGroup, and_imp, checkShapeOk, SameStep, distDivides]

theorem headsOk (large : (r.group .large).Pairwise (SameStep .large))
    (huge : (r.group .huge).Pairwise (SameStep .huge)) :
    r.checkHeads (r.group .huge) (r.group .large) = .ok () ↔
      ∀ i ∈ r.intervals, i.kind = .page .large → ∀ j ∈ r.intervals, j.kind = .page .huge →
        2 ^ 21 ∣ Nat.dist i.start j.start := by
  rw [checkHeadsOk huge large]
  simp only [memGroup, and_imp, SameStep, ← distDivides]
  rfl

theorem checkOk (sorted : r.intervals.Pairwise fun i j => i.start ≤ j.start) :
    r.check = .ok () ↔ r.Arranged := by
  have steps {page : PageSize} {between : String}
      (passed : r.checkGroup page between none (r.group page) = .ok ()) :
      (r.group page).Pairwise (SameStep page) := (checkGroupOk.mp passed).2
  unfold check
  rw [Results.thenOk, Results.thenOk, Results.thenOk, Results.thenOk, checkOverlapsOk sorted]
  constructor
  · intro given
    obtain ⟨ends, large, huge, heads, clear⟩ := given
    obtain ⟨largeShape, largeStep⟩ := (groupOk _).mp large
    obtain ⟨hugeShape, hugeStep⟩ := (groupOk _).mp huge
    exact {
      bounded := fun k i j low high => (checkEndsOk.mp ends k j i high low).symm
      shaped := PageSize.forallHuge.mpr ⟨largeShape, hugeShape⟩
      stepped := PageSize.forallHuge.mpr ⟨largeStep, hugeStep⟩
      crossed := (headsOk (steps large) (steps huge)).mp heads
      clear }
  · intro arranged
    obtain ⟨largeShape, hugeShape⟩ := PageSize.forallHuge.mp arranged.shaped
    obtain ⟨largeStep, hugeStep⟩ := PageSize.forallHuge.mp arranged.stepped
    have large := (groupOk "2mb regions").mpr ⟨largeShape, largeStep⟩
    have huge := (groupOk "1gb regions").mpr ⟨hugeShape, hugeStep⟩
    have heads := (headsOk (steps large) (steps huge)).mpr arranged.crossed
    exact ⟨checkEndsOk.mpr fun k j i high low => (arranged.bounded k i j low high).symm,
      large, huge, heads, arranged.clear⟩

theorem sortedOk {pool : PoolKind} {rows : List LegacyRow} {own : List Interval} :
    sorted pool rows = .ok own ↔ (∀ row ∈ LegacyRow.own pool rows, row.Readable) ∧
      own = ((LegacyRow.own pool rows).map (LegacyRow.interval pool)).mergeSort
        fun i j => i.start ≤ j.start := by
  have read (row : LegacyRow) (i : Interval) : Interval.ofRow pool row = .ok i ↔
      row.Readable ∧ i = row.interval pool := Interval.ofRowOk.trans LegacyRow.denotesIff
  unfold sorted
  rw [Results.mapOk]
  constructor
  · intro given
    obtain ⟨intervals, all, rfl⟩ := given
    obtain ⟨readable, rfl⟩ := (Results.mapMOk read).mp all
    exact ⟨readable, rfl⟩
  · intro given
    obtain ⟨readable, rfl⟩ := given
    exact ⟨_, (Results.mapMOk read).mpr ⟨readable, rfl⟩, rfl⟩

theorem statedSizeOk {pool : PoolKind} {intervals : List Interval} {size : Nat} :
    statedSize pool intervals = .ok size ↔
      ∃ m, intervals.filter Interval.isMarker = [m] ∧ m.stop = size := by
  unfold statedSize
  split
  · rename_i none
    simp [none]
  · rename_i m one
    simp [one]
  · rename_i markers other several
    exact iff_of_false (fun same => by cases same) fun ⟨m, one, _⟩ => several m one

theorem mergeSortSingle {α : Type} {le : α → α → Bool} {xs : List α} {a : α} :
    xs.mergeSort le = [a] ↔ xs = [a] := by
  constructor
  · intro same
    exact List.perm_singleton.mp (same ▸ (List.mergeSort_perm xs le).symm)
  · intro same
    rw [same, List.mergeSort_singleton]

theorem filterSorted (pool : PoolKind) (rows : List LegacyRow) (keep : Interval → Bool) :
    ((rows.map (LegacyRow.interval pool)).mergeSort fun i j => i.start ≤ j.start).filter keep =
      ((rows.filter fun r => keep (r.interval pool)).map (LegacyRow.interval pool)).mergeSort
        fun i j => i.start ≤ j.start := by
  rw [filterMergeSort startTrans startTotal, List.filter_map]
  rfl

theorem pagesKept (pool : PoolKind) (rows : List LegacyRow) :
    (((LegacyRow.own pool rows).map (LegacyRow.interval pool)).mergeSort
      fun i j => i.start ≤ j.start).filter (fun i => !i.isMarker) = sortedPages pool rows := by
  rw [filterSorted]
  simp only [LegacyRow.intervalMarker]
  rfl

theorem markersKept (pool : PoolKind) (rows : List LegacyRow) {m : Interval} :
    (((LegacyRow.own pool rows).map (LegacyRow.interval pool)).mergeSort
      fun i j => i.start ≤ j.start).filter Interval.isMarker = [m] ↔
      ∃ marker, (LegacyRow.own pool rows).filter LegacyRow.isMarker = [marker] ∧
        marker.interval pool = m := by
  rw [filterSorted, mergeSortSingle, List.map_eq_singleton_iff]
  simp only [LegacyRow.intervalMarker]

theorem ofRowsExact {pool : PoolKind} {rows : List LegacyRow} :
    ofRows? pool rows = .ok r ↔ (∀ row ∈ LegacyRow.own pool rows, row.Readable) ∧
      ∃ marker, (LegacyRow.own pool rows).filter LegacyRow.isMarker = [marker] ∧
        r = ⟨pool, marker.endOffset.toInt.toNat, sortedPages pool rows⟩ ∧ r.Arranged := by
  have ordered : (sortedPages pool rows).Pairwise fun i j => i.start ≤ j.start := sortedByStart _
  unfold ofRows?
  rw [Results.bindOk]
  constructor
  · intro given
    obtain ⟨own, read, more⟩ := given
    obtain ⟨size, stated, last⟩ := Results.bindOk.mp more
    obtain ⟨readable, rfl⟩ := sortedOk.mp read
    obtain ⟨m, one, rfl⟩ := statedSizeOk.mp stated
    obtain ⟨marker, single, rfl⟩ := (markersKept pool rows).mp one
    obtain ⟨passed, done⟩ := Results.thenOk.mp last
    rw [pagesKept] at passed done
    cases done
    exact ⟨readable, marker, single, rfl, (checkOk ordered).mp passed⟩
  · intro given
    obtain ⟨readable, marker, single, rfl, arranged⟩ := given
    refine ⟨_, sortedOk.mpr ⟨readable, rfl⟩, ?_⟩
    have one := (markersKept pool rows).mpr ⟨marker, single, rfl⟩
    refine Results.bindOk.mpr ⟨_, statedSizeOk.mpr ⟨_, one, rfl⟩, ?_⟩
    rw [pagesKept]
    exact Results.thenOk.mpr ⟨(checkOk ordered).mpr arranged, rfl⟩

/-- Rows are read as a region of a pool if and only if all rows under the name of the pool are
readable, one of them states its size, and the others are arranged as the checks ask. -/
theorem acceptedExactly (pool : PoolKind) (rows : List LegacyRow) :
    ((∃ r, (ofRows pool rows).result = .ok r) ↔
      (∀ row ∈ LegacyRow.own pool rows, row.Readable) ∧
      ∃ marker, (LegacyRow.own pool rows).filter LegacyRow.isMarker = [marker] ∧
        Arranged ⟨pool, marker.endOffset.toInt.toNat, sortedPages pool rows⟩) ∧
    ∀ r, (ofRows pool rows).result = .ok r → r.intervals = sortedPages pool rows ∧
      ∃ marker, (LegacyRow.own pool rows).filter LegacyRow.isMarker = [marker] ∧
        (r.size : Int) = marker.endOffset.toInt := by
  simp only [ofRowsResult]
  refine ⟨⟨fun given => ?_, fun given => ?_⟩, fun r loaded => ?_⟩
  · obtain ⟨r, loaded⟩ := given
    obtain ⟨readable, marker, single, rfl, arranged⟩ := ofRowsExact.mp loaded
    exact ⟨readable, marker, single, arranged⟩
  · obtain ⟨readable, marker, single, arranged⟩ := given
    exact ⟨_, ofRowsExact.mpr ⟨readable, marker, single, rfl, arranged⟩⟩
  · obtain ⟨readable, marker, single, rfl, _⟩ := ofRowsExact.mp loaded
    have held : marker ∈ LegacyRow.own pool rows :=
      List.mem_of_mem_filter (single ▸ List.mem_singleton_self marker)
    exact ⟨rfl, marker, single, Int.toNat_of_nonneg (readable marker held).stop⟩

end LegacyRegion

def looseRows : List LegacyRow := [
  ⟨"brk", 4096, 2097152, 4096⟩, ⟨"mmap", 7, -1, 0⟩, ⟨"brk", 2097152, 2097152, 4194304⟩,
  ⟨"brk", -1, 9, 4096⟩]

def strayRows : List LegacyRow := [
  ⟨"mmap", -1, 0, 8589934592⟩, ⟨"mmap", 1073741824, 2147483648, 3221225472⟩,
  ⟨"mmap", 2097152, 8192, 2105344⟩]

theorem looseAccepted : (∃ r, (LegacyRegion.ofRows .brk looseRows).result = .ok r) ∧
    (¬ ∃ r, (LegacyRegion.ofRows .mmap strayRows).result = .ok r) ∧
    (∀ row ∈ LegacyRow.own .brk looseRows, row.Readable) ∧
    LegacyRegion.sortedPages .brk looseRows =
      [⟨.brk, .page .base, 2097152, 4096⟩, ⟨.brk, .page .large, 2097152, 4194304⟩] := by
  have loaded : (LegacyRegion.ofRows .brk looseRows).result = .ok ⟨.brk, 4096,
      [⟨.brk, .page .base, 2097152, 4096⟩, ⟨.brk, .page .large, 2097152, 4194304⟩]⟩ := by cbv
  obtain ⟨accepted, kept⟩ := LegacyRegion.acceptedExactly .brk looseRows
  obtain ⟨readable, _⟩ := accepted.mp ⟨_, loaded⟩
  refine ⟨⟨_, loaded⟩, fun given => ?_, readable, (kept _ loaded).1.symm⟩
  obtain ⟨_, marker, _, arranged⟩ := (LegacyRegion.acceptedExactly .mmap strayRows).1.mp given
  have steps := arranged.crossed ⟨.mmap, .page .large, 8192, 2105344⟩
    (List.mem_mergeSort.mpr (by decide)) rfl ⟨.mmap, .page .huge, 2147483648, 3221225472⟩
    (List.mem_mergeSort.mpr (by decide)) rfl
  exact absurd steps (by decide)

end HugePools
