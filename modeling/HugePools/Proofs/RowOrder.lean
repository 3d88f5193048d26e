import HugePools.Proofs.Acceptance
import HugePools.Proofs.Counting

/-! Legacy rows in another order. The reader sorts them by their starts alone, so their order shows
only where several of them start together, and of those only the last may hold any byte. -/
namespace HugePools

namespace LegacyRow

def pages (pool : PoolKind) (rows : List LegacyRow) : List LegacyRow :=
  (own pool rows).filter fun r => !r.isMarker

/-- Of the rows that start together, those that hold no byte come before the others. -/
def EmptyFirst (pool : PoolKind) (rows : List LegacyRow) : Prop :=
  (pages pool rows).Pairwise fun r s => r.startOffset = s.startOffset →
    s.endOffset.toInt ≤ s.startOffset.toInt → r.endOffset.toInt ≤ r.startOffset.toInt

instance (pool : PoolKind) (rows : List LegacyRow) : Decidable (EmptyFirst pool rows) :=
  inferInstanceAs (Decidable (List.Pairwise _ _))

end LegacyRow

namespace LegacyRegion

def TiesOrdered (intervals : List Interval) : Prop :=
  intervals.Pairwise fun i j =>
    i.start = j.start → j.range.isEmpty = true → i.range.isEmpty = true

variable {pool : PoolKind} {rows others : List LegacyRow} {xs ys : List Interval} {r s : LegacyRegion}

theorem emptyIff {i : Interval} : i.range.isEmpty = true ↔ i.stop ≤ i.start := by
  unfold ByteRange.isEmpty ByteRange.length Interval.range
  rw [decide_eq_true_iff, Nat.sub_eq_zero_iff_le]

theorem tiesPairwise {R : Interval → Interval → Prop} :
    xs.Pairwise (fun i j => i.start = j.start → R i j) ↔
      ∀ start, (xs.filter fun i => i.start = start).Pairwise R := by
  simp only [List.pairwise_filter, decide_eq_true_iff]
  simp only [List.pairwise_iff_forall_sublist]
  constructor
  · intro ties start i j within first second
    exact ties within (first.trans second.symm)
  · intro ties i j within same
    exact ties j.start within same rfl

theorem tiesKept (start : Nat) :
    (xs.mergeSort fun i j => i.start ≤ j.start).filter (fun i => i.start = start) =
      xs.filter fun i => i.start = start := by
  rw [filterMergeSort startTrans startTotal]
  refine List.mergeSort_of_pairwise (List.pairwise_of_forall_mem_list fun i first j second => ?_)
  have lower : i.start = start := by simpa using (List.mem_filter.mp first).2
  have upper : j.start = start := by simpa using (List.mem_filter.mp second).2
  simp [lower, upper]

theorem tiesSorted :
    TiesOrdered (xs.mergeSort fun i j => i.start ≤ j.start) ↔ TiesOrdered xs := by
  unfold TiesOrdered
  rw [tiesPairwise, tiesPairwise]
  simp only [tiesKept]

theorem tiesOfClear (clear : xs.Pairwise fun i j => i.stop ≤ j.start) : TiesOrdered xs := by
  refine clear.imp fun {i j} before same _ => emptyIff.mpr ?_
  exact Nat.le_trans before (Nat.le_of_eq same.symm)

def Placeable (i j : Interval) : Prop :=
  (i.start ≤ j.start ∧ i.stop ≤ j.start) ∨ (j.start ≤ i.start ∧ j.stop ≤ i.start)

theorem clearReordered (perm : xs.Perm ys) (sorted : xs.Pairwise fun i j => i.start ≤ j.start)
    (clear : xs.Pairwise fun i j => i.stop ≤ j.start)
    (ordered : ys.Pairwise fun i j => i.start ≤ j.start) (first : TiesOrdered ys) :
    ys.Pairwise fun i j => i.stop ≤ j.start := by
  have placeable : ys.Pairwise Placeable :=
    (perm.pairwise_iff fun {_ _} => Or.symm).mp ((sorted.and clear).imp .inl)
  refine ((placeable.and ordered).and first).imp ?_
  intro i j all
  obtain ⟨⟨either, order⟩, empty⟩ := all
  rcases either with before | after
  · exact before.2
  · have same : i.start = j.start := Nat.le_antisymm order after.1
    have none := emptyIff.mp (empty same (emptyIff.mpr (by omega)))
    omega

theorem groupReordered (perm : xs.Perm ys) (clear : xs.Pairwise fun i j => i.stop ≤ j.start)
    (also : ys.Pairwise fun i j => i.stop ≤ j.start)
    (own : ∀ i ∈ xs, i.pool = pool) {page : PageSize} {size : Nat}
    (shaped : ∀ i ∈ group ⟨pool, size, xs⟩ page, i.start ≤ i.stop) :
    group ⟨pool, size, xs⟩ page = group ⟨pool, size, ys⟩ page := by
  have same : (group ⟨pool, size, xs⟩ page).Perm (group ⟨pool, size, ys⟩ page) := perm.filter _
  refine same.eq_of_pairwise ?_ (clear.filter _) (also.filter _)
  intro i j first second before after
  have held := same.mem_iff.mpr second
  have lower := shaped i first
  have upper := shaped j held
  obtain ⟨member, kind⟩ := List.mem_filter.mp first
  obtain ⟨another, type⟩ := List.mem_filter.mp held
  have pools := (own i member).trans (own j another).symm
  have kinds : i.kind = j.kind := (of_decide_eq_true kind).trans (of_decide_eq_true type).symm
  have starts : i.start = j.start := by omega
  have stops : i.stop = j.stop := by omega
  cases i
  cases j
  simp_all

theorem Arranged.reordered {size : Nat} (arranged : Arranged ⟨pool, size, xs⟩) (perm : xs.Perm ys)
    (own : ∀ i ∈ xs, i.pool = pool) (clear : ys.Pairwise fun i j => i.stop ≤ j.start) :
    Arranged ⟨pool, size, ys⟩ := by
  have same (page : PageSize) (large : page ≠ .base) :
      group ⟨pool, size, xs⟩ page = group ⟨pool, size, ys⟩ page := by
    refine groupReordered perm arranged.clear clear own fun i mem => ?_
    obtain ⟨held, kind⟩ := memGroup.mp mem
    exact (arranged.shaped page large i held kind).1
  obtain ⟨bounded, shaped, stepped, crossed, _⟩ := arranged
  simp only [perm.mem_iff] at shaped stepped crossed
  refine ⟨fun k i j first second => bounded k i j ?_ ?_, shaped, stepped, crossed, clear⟩
  · exact (congrArg (·[k]?) (same .large (by decide))).trans first
  · exact (congrArg (·[k]?) (same .huge (by decide))).trans second

theorem sortedPagesPerm (pool : PoolKind) (perm : rows.Perm others) :
    (sortedPages pool rows).Perm (sortedPages pool others) := by
  have pages : ((LegacyRow.pages pool rows).map (LegacyRow.interval pool)).Perm
      ((LegacyRow.pages pool others).map (LegacyRow.interval pool)) :=
    ((perm.filter _).filter _).map _
  exact (List.mergeSort_perm _ _).trans (pages.trans (List.mergeSort_perm _ _).symm)

theorem sortedPagesPool {i : Interval} (mem : i ∈ sortedPages pool rows) : i.pool = pool := by
  obtain ⟨row, _, rfl⟩ := List.mem_map.mp ((List.mergeSort_perm _ _).mem_iff.mp mem)
  rfl

theorem markerReordered (perm : rows.Perm others) {marker : LegacyRow}
    (single : (LegacyRow.own pool rows).filter LegacyRow.isMarker = [marker]) :
    (LegacyRow.own pool others).filter LegacyRow.isMarker = [marker] :=
  List.perm_singleton.mp (single ▸ ((perm.filter _).filter _).symm)

theorem tiesOfRows (readable : ∀ row ∈ LegacyRow.own pool rows, row.Readable) :
    TiesOrdered (sortedPages pool rows) ↔ LegacyRow.EmptyFirst pool rows := by
  refine tiesSorted.trans (List.pairwise_map.trans (List.Pairwise.iff_of_mem ?_))
  intro a b first second
  have lower := readable a (List.mem_of_mem_filter first)
  have upper := readable b (List.mem_of_mem_filter second)
  have startA := Int.toNat_of_nonneg lower.start
  have startB := Int.toNat_of_nonneg upper.start
  have stopA := Int.toNat_of_nonneg lower.stop
  have stopB := Int.toNat_of_nonneg upper.stop
  rw [emptyIff, emptyIff, ← Int64.toInt_inj]
  simp only [LegacyRow.interval]
  omega

theorem loadedEmptyFirst (loaded : ofRows? pool rows = .ok r) :
    LegacyRow.EmptyFirst pool rows := by
  obtain ⟨readable, marker, _, rfl, arranged⟩ := ofRowsExact.mp loaded
  exact (tiesOfRows readable).mp (tiesOfClear arranged.clear)

theorem loadedReordered (perm : rows.Perm others) (loaded : ofRows? pool rows = .ok r)
    (first : LegacyRow.EmptyFirst pool others) : ∃ s, ofRows? pool others = .ok s := by
  obtain ⟨readable, marker, single, rfl, arranged⟩ := ofRowsExact.mp loaded
  have also : ∀ row ∈ LegacyRow.own pool others, row.Readable := fun row mem =>
    readable row ((perm.filter _).mem_iff.mpr mem)
  have pages := sortedPagesPerm pool perm
  have clear : (sortedPages pool others).Pairwise fun i j => i.stop ≤ j.start :=
    clearReordered pages (sortedByStart _) arranged.clear (sortedByStart _)
      ((tiesOfRows also).mpr first)
  refine ⟨_, ofRowsExact.mpr ⟨also, marker, markerReordered perm single, rfl, ?_⟩⟩
  exact arranged.reordered pages (fun _ => sortedPagesPool) clear

theorem regionsAgree (perm : rows.Perm others) (loaded : ofRows? pool rows = .ok r)
    (also : ofRows? pool others = .ok s) :
    r.size = s.size ∧ r.intervals.Perm s.intervals ∧ ∀ page, r.pageCount page = s.pageCount page := by
  obtain ⟨_, marker, single, rfl, _⟩ := ofRowsExact.mp loaded
  obtain ⟨_, stated, one, rfl, _⟩ := ofRowsExact.mp also
  obtain rfl : marker = stated :=
    List.singleton_inj.mp ((markerReordered perm single).symm.trans one)
  have pages := sortedPagesPerm pool perm
  refine ⟨rfl, pages, fun page => ?_⟩
  rw [pageCountSum, pageCountSum]
  exact ((pages.filter _).map _).sum_eq

/-- Rows that load have their empty intervals first wherever some start together. Any two orders
of the same rows that do so both load or both fail, and two that load hold the same intervals. -/
theorem orderSettled (pool : PoolKind) (perm : rows.Perm others) :
    ((∃ r, (ofRows pool rows).result = .ok r) → LegacyRow.EmptyFirst pool rows) ∧
    (LegacyRow.EmptyFirst pool rows → LegacyRow.EmptyFirst pool others →
      ((∃ r, (ofRows pool rows).result = .ok r) ↔ ∃ s, (ofRows pool others).result = .ok s)) ∧
    ∀ r s, (ofRows pool rows).result = .ok r → (ofRows pool others).result = .ok s →
      r.size = s.size ∧ r.intervals.Perm s.intervals ∧
        ∀ page, r.pageCount page = s.pageCount page := by
  simp only [ofRowsResult]
  refine ⟨fun given => ?_, fun first also => ⟨fun given => ?_, fun given => ?_⟩, ?_⟩
  · obtain ⟨r, loaded⟩ := given
    exact loadedEmptyFirst loaded
  · obtain ⟨r, loaded⟩ := given
    exact loadedReordered perm loaded also
  · obtain ⟨s, loaded⟩ := given
    exact loadedReordered perm.symm loaded first
  · exact fun r s => regionsAgree perm

end LegacyRegion

def tiedRows : List LegacyRow := [
  ⟨"brk", -1, 0, 4194304⟩, ⟨"brk", 2097152, 0, 0⟩, ⟨"brk", 2097152, 0, 2097152⟩,
  ⟨"brk", 2097152, 2097152, 4194304⟩]

def tiedRegion : LegacyRegion := ⟨.brk, 4194304, [⟨.brk, .page .large, 0, 0⟩,
  ⟨.brk, .page .large, 0, 2097152⟩, ⟨.brk, .page .large, 2097152, 4194304⟩]⟩

theorem tiedLoaded : (LegacyRegion.ofRows .brk tiedRows).result = .ok tiedRegion := by cbv

/-- With the rows in reverse the range of no bytes stands inside of the page. -/
theorem tiedReversed : ¬ ∀ (rows others : List LegacyRow) (pool : PoolKind), rows.Perm others →
    ((∃ r, (LegacyRegion.ofRows pool rows).result = .ok r) ↔
      ∃ s, (LegacyRegion.ofRows pool others).result = .ok s) := by
  intro settled
  have refused : (LegacyRegion.ofRows .brk tiedRows.reverse).result =
      .error (.overlap .brk ⟨0, 2097152⟩ ⟨0, 0⟩) := by cbv
  obtain ⟨s, loaded⟩ := (settled tiedRows tiedRows.reverse .brk (List.reverse_perm _).symm).mp
    ⟨_, tiedLoaded⟩
  rw [refused] at loaded
  cases loaded

theorem tiedRotated : ∃ s, (LegacyRegion.ofRows .brk (tiedRows.rotate 3)).result = .ok s ∧
    s.size = 4194304 ∧ tiedRegion.intervals.Perm s.intervals ∧ s.pageCount .large = 2 := by
  obtain ⟨first, settled, agreed⟩ :=
    LegacyRegion.orderSettled .brk (List.rotate_perm tiedRows 3).symm
  have rotated : LegacyRow.EmptyFirst .brk (tiedRows.rotate 3) := by decide
  obtain ⟨s, loaded⟩ := (settled (first ⟨_, tiedLoaded⟩) rotated).mp ⟨_, tiedLoaded⟩
  obtain ⟨size, same, counts⟩ := agreed _ s tiedLoaded loaded
  exact ⟨s, loaded, size.symm, same, (counts .large).symm⟩

end HugePools
