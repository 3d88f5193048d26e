import HugePools.Proofs.RowOrder

/-! What a region keeps of the rows that it was read from. Each row under the exact name of the pool
is the marker or one interval. A row that spells the name in another way counts as one of another
pool, also where a table of pools would take it. The shape of an interval is checked for the two
huge page sizes; base page intervals only have to stand clear of their neighbours. -/
namespace HugePools

namespace Interval

structure Shaped (i : Interval) : Prop where
  ordered : i.start ≤ i.stop
  aligned : 4096 ∣ i.start
  whole : ∀ page, i.kind = .page page → page.bytes ∣ i.stop - i.start

theorem recordRead {i : Interval} (fits : i.Storable) :
    i.record.Readable ∧ i = i.record.interval i.pool :=
  LegacyRow.denotesIff.mp (ofRowOk.mp (ofRowRecord fits))

theorem recordMarker {i : Interval} (fits : i.Storable) : i.record.isMarker = i.isMarker := by
  rw [← LegacyRow.intervalMarker i.pool, ← (recordRead fits).2]

end Interval

namespace LegacyRow

variable {pool : PoolKind}

theorem readAll {rows : List LegacyRow} {read : List Interval} :
    rows.mapM (Interval.ofRow pool) = .ok read ↔
      (∀ row ∈ rows, row.Readable) ∧ read = rows.map (interval pool) :=
  Results.mapMOk fun _ _ => Interval.ofRowOk.trans denotesIff

theorem ownCons {row : LegacyRow} (named : row.poolType = pool.name) (rows : List LegacyRow) :
    own pool (row :: rows) = row :: own pool rows :=
  List.filter_cons_of_pos (by simpa using named)

def pool? (row : LegacyRow) : Option PoolKind := PoolKind.ofText? row.poolType

def Respells (pool : PoolKind) (row : LegacyRow) : Prop :=
  row.pool? = some pool ∧ row.poolType ≠ pool.name

instance (row : LegacyRow) : Decidable (row.Respells pool) := inferInstanceAs (Decidable (_ ∧ _))

theorem namedPool {row : LegacyRow} (named : row.poolType = pool.name) : row.pool? = some pool := by
  unfold pool?
  rw [named]
  cases pool <;> decide

theorem spellings (pool : PoolKind) (rows : List LegacyRow) :
    (rows.filter fun row => row.pool? = some pool).length =
      (own pool rows).length + (rows.filter (Respells pool ·)).length := by
  rw [List.length_eq_length_filter_add fun row => row.poolType = pool.name, List.filter_filter,
    List.filter_filter]
  have exact : ∀ row ∈ rows, (decide (row.poolType = pool.name) &&
      decide (row.pool? = some pool)) = decide (row.poolType = pool.name) := by
    intro row _
    rw [Bool.and_eq_left_iff_imp]
    exact fun named => decide_eq_true (namedPool (of_decide_eq_true named))
  have other : ∀ row ∈ rows, (!decide (row.poolType = pool.name) &&
      decide (row.pool? = some pool)) = decide (row.Respells pool) := by
    intro row _
    rw [Bool.and_comm, ← decide_not, ← Bool.decide_and]
    rfl
  rw [List.filter_congr exact, List.filter_congr other]
  rfl

theorem ownWithout (pool : PoolKind) (rows : List LegacyRow) :
    own pool (rows.filter fun row => ¬ row.Respells pool) = own pool rows := by
  unfold own
  rw [List.filter_filter]
  refine List.filter_congr fun row _ => ?_
  rw [Bool.and_eq_left_iff_imp]
  intro named
  exact decide_eq_true fun other => other.2 (of_decide_eq_true named)

end LegacyRow

namespace LegacyRegion

variable {r : LegacyRegion} {pool : PoolKind} {rows others : List LegacyRow} {i : Interval}

theorem keptPaged (mem : i ∈ sortedPages pool rows) : ∃ page, i.kind = .page page := by
  obtain ⟨row, held, rfl⟩ := List.mem_map.mp (List.mem_mergeSort.mp mem)
  have other : row.isMarker = false := by simpa using (List.mem_filter.mp held).2
  rw [← row.intervalMarker pool] at other
  cases kind : (row.interval pool).kind with
  | poolSize => simp [Interval.isMarker, kind] at other
  | page size => exact ⟨size, rfl⟩

theorem hugeShaped (loaded : ofRows? pool rows = .ok r) (mem : i ∈ r.intervals)
    (other : i.kind ≠ .page .base) : i.Shaped := by
  obtain ⟨_, _, _, rfl, arranged⟩ := ofRowsExact.mp loaded
  obtain ⟨page, kind⟩ := keptPaged mem
  have large : page ≠ .base := fun base => other (base ▸ kind)
  obtain ⟨ordered, aligned, whole⟩ := arranged.shaped page large i mem kind
  refine ⟨ordered, aligned, fun own same => ?_⟩
  cases kind.symm.trans same
  exact whole

theorem sortedLast {xs : List Interval} (before : ∀ j ∈ xs, j.start < i.start) :
    ((i :: xs).mergeSort fun a b => a.start ≤ b.start) =
      (xs.mergeSort fun a b => a.start ≤ b.start) ++ [i] := by
  obtain ⟨low, high, whole, rest, _⟩ := List.mergeSort_cons startTrans startTotal i xs
  have sorted := sortedByStart (i :: xs)
  rw [whole] at sorted
  have above := (List.pairwise_cons.mp (List.pairwise_append.mp sorted).2.1).1
  have none : high = [] := by
    refine List.eq_nil_iff_forall_not_mem.mpr fun j mem => ?_
    have held : j ∈ xs := List.mem_mergeSort.mp (rest ▸ List.mem_append_right low mem)
    exact Nat.not_le_of_lt (before j held) (above j mem)
  rw [whole, rest, none, List.append_nil]

theorem Arranged.extended (arranged : r.Arranged) (base : i.kind = .page .base)
    (clear : ∀ j ∈ r.intervals, j.stop ≤ i.start) :
    Arranged { r with intervals := r.intervals ++ [i] } := by
  have other {page : PageSize} (large : page ≠ .base) : i.kind ≠ .page page := fun same =>
    large (IntervalKind.page.inj (same.symm.trans base))
  have same {page : PageSize} (large : page ≠ .base) :
      (r.intervals ++ [i]).filter (fun j => j.kind = .page page) =
        r.intervals.filter (fun j => j.kind = .page page) := by
    rw [List.filter_append, List.filter_cons_of_neg (by simpa using other large), List.filter_nil,
      List.append_nil]
  have older {page : PageSize} (large : page ≠ .base) {j : Interval}
      (mem : j ∈ r.intervals ++ [i]) (kind : j.kind = .page page) : j ∈ r.intervals :=
    List.mem_of_mem_filter (same large ▸ List.mem_filter.mpr ⟨mem, decide_eq_true kind⟩)
  obtain ⟨bounded, shaped, stepped, crossed, apart⟩ := arranged
  refine ⟨?_, fun page large j mem kind => ?_, fun page large j mem kind k also type => ?_,
    fun j mem kind k also type => ?_, ?_⟩
  · rw [same (by decide), same (by decide)]
    exact bounded
  · exact shaped page large j (older large mem kind) kind
  · exact stepped page large j (older large mem kind) kind k (older large also type) type
  · exact crossed j (older (by decide) mem kind) kind k (older (by decide) also type) type
  · refine List.pairwise_append.mpr ⟨apart, List.pairwise_singleton _ _, fun j mem k last => ?_⟩
    exact List.mem_singleton.mp last ▸ clear j mem

theorem baseAdded (loaded : ofRows? pool rows = .ok r) (own : i.pool = pool) (fits : i.Storable)
    (base : i.kind = .page .base)
    (before : ∀ j ∈ r.intervals, j.start < i.start ∧ j.stop ≤ i.start) :
    ofRows? pool (i.record :: rows) = .ok { r with intervals := r.intervals ++ [i] } := by
  subst own
  obtain ⟨readable, marker, single, rfl, arranged⟩ := ofRowsExact.mp loaded
  obtain ⟨read, denoted⟩ := Interval.recordRead fits
  have page : i.record.isMarker = false := by
    rw [Interval.recordMarker fits]
    simp [Interval.isMarker, base]
  have own : LegacyRow.own i.pool (i.record :: rows) = i.record :: LegacyRow.own i.pool rows :=
    LegacyRow.ownCons rfl rows
  have pages : sortedPages i.pool (i.record :: rows) = sortedPages i.pool rows ++ [i] := by
    unfold sortedPages
    rw [own, List.filter_cons_of_pos (by simp [page]), List.map_cons, ← denoted]
    exact sortedLast fun j mem => (before j (List.mem_mergeSort.mpr mem)).1
  refine ofRowsExact.mpr ⟨?_, marker, ?_, ?_, ?_⟩
  · rw [own]
    exact List.forall_mem_cons.mpr ⟨read, readable⟩
  · rw [own, List.filter_cons_of_neg (by simp [page])]
    exact single
  · rw [pages]
  · exact arranged.extended base fun j mem => (before j mem).2

/-- Intervals of the two huge page sizes are made of whole pages. A base page interval that starts
after all others is kept wherever it starts and ends. -/
theorem shapedUnlessBase (loaded : (ofRows pool rows).result = .ok r) :
    (∀ i ∈ r.intervals, i.kind ≠ .page .base → i.Shaped) ∧
    ∀ start stop, start < 2 ^ 63 → stop < 2 ^ 63 →
      (∀ j ∈ r.intervals, j.start < start ∧ j.stop ≤ start) →
      (ofRows pool (Interval.record ⟨pool, .page .base, start, stop⟩ :: rows)).result =
        .ok { r with intervals := r.intervals ++ [⟨pool, .page .base, start, stop⟩] } := by
  simp only [ofRowsResult] at loaded ⊢
  refine ⟨fun i mem other => hugeShaped loaded mem other, fun start stop first last before => ?_⟩
  exact baseAdded loaded rfl ⟨first, last⟩ rfl before

theorem ofRowsOwn (same : LegacyRow.own pool rows = LegacyRow.own pool others) :
    ofRows pool rows = ofRows pool others := by
  have read : sorted pool rows = sorted pool others := by
    unfold sorted
    unfold LegacyRow.own at same
    rw [same]
  unfold ofRows ofRows?
  rw [read]

theorem rowsHeld (loaded : ofRows? pool rows = .ok r) :
    ∃ read marker, (LegacyRow.own pool rows).mapM (Interval.ofRow pool) = .ok read ∧
      marker.isMarker = true ∧ marker.stop = r.size ∧ read.Perm (marker :: r.intervals) := by
  obtain ⟨readable, marker, single, rfl, _⟩ := ofRowsExact.mp loaded
  have states : marker.isMarker = true :=
    (List.mem_filter.mp (single ▸ List.mem_singleton_self marker)).2
  refine ⟨_, marker.interval pool, LegacyRow.readAll.mpr ⟨readable, rfl⟩,
    (marker.intervalMarker pool).trans states, rfl, ?_⟩
  have split := (List.filter_append_perm LegacyRow.isMarker (LegacyRow.own pool rows)).symm.map
    (LegacyRow.interval pool)
  rw [single] at split
  exact split.trans ((List.mergeSort_perm _ _).symm.cons _)

/-- The rows under the name of the pool are the marker and the intervals. Rows that spell the name in
another way are on top of these, and nothing tells them from rows that are not there. -/
theorem rowsAccounted (loaded : (ofRows pool rows).result = .ok r) :
    (∃ read marker, (LegacyRow.own pool rows).mapM (Interval.ofRow pool) = .ok read ∧
      marker.isMarker = true ∧ marker.stop = r.size ∧ read.Perm (marker :: r.intervals)) ∧
    (LegacyRow.own pool rows).length = 1 + r.intervals.length ∧
    (rows.filter fun row => row.pool? = some pool).length =
      1 + r.intervals.length + (rows.filter (LegacyRow.Respells pool ·)).length ∧
    ofRows pool (rows.filter fun row => ¬ row.Respells pool) = ofRows pool rows := by
  rw [ofRowsResult] at loaded
  obtain ⟨read, marker, own, states, size, perm⟩ := rowsHeld loaded
  have count : (LegacyRow.own pool rows).length = 1 + r.intervals.length := calc
    _ = ((LegacyRow.own pool rows).map (Interval.ofRow pool)).length := (List.length_map _).symm
    _ = (read.map .ok).length := congrArg List.length (Results.mapMMap.mp own)
    _ = (marker :: r.intervals).length := (List.length_map _).trans perm.length_eq
    _ = 1 + r.intervals.length := Nat.add_comm _ _
  refine ⟨⟨read, marker, own, states, size, perm⟩, count, ?_, ?_⟩
  · rw [LegacyRow.spellings, count]
  · exact ofRowsOwn (LegacyRow.ownWithout pool rows)

end LegacyRegion

theorem looseShaped : (⟨.brk, .page .large, 2097152, 4194304⟩ : Interval).Shaped ∧
    (LegacyRegion.ofRows .brk (⟨"brk", 4096, 4194305, 7⟩ :: looseRows)).result = .ok ⟨.brk, 4096,
      [⟨.brk, .page .base, 2097152, 4096⟩, ⟨.brk, .page .large, 2097152, 4194304⟩,
        ⟨.brk, .page .base, 4194305, 7⟩]⟩ := by
  have loaded : (LegacyRegion.ofRows .brk looseRows).result = .ok ⟨.brk, 4096,
      [⟨.brk, .page .base, 2097152, 4096⟩, ⟨.brk, .page .large, 2097152, 4194304⟩]⟩ := by cbv
  obtain ⟨shaped, extended⟩ := LegacyRegion.shapedUnlessBase loaded
  refine ⟨shaped _ (by decide) (by decide), ?_⟩
  exact extended 4194305 7 (by decide) (by decide) (by decide)

def unshapedRows : List LegacyRow := [
  ⟨"mmap", -1, 0, 16384⟩, ⟨"mmap", 4096, 100, 4196⟩, ⟨"mmap", 4096, 8192, 8292⟩,
  ⟨"mmap", 4096, 12288, 4096⟩]

theorem unshapedKept : ∃ r, (LegacyRegion.ofRows .mmap unshapedRows).result = .ok r ∧
    ¬ (∀ i ∈ r.intervals, 4096 ∣ i.start) ∧ ¬ (∀ i ∈ r.intervals, 4096 ∣ i.stop - i.start) ∧
    ¬ (∀ i ∈ r.intervals, i.start ≤ i.stop) ∧ ¬ ∀ i ∈ r.intervals, i.Shaped := by
  have loaded : (LegacyRegion.ofRows .mmap unshapedRows).result = .ok ⟨.mmap, 16384, [
    ⟨.mmap, .page .base, 100, 4196⟩, ⟨.mmap, .page .base, 8192, 8292⟩,
    ⟨.mmap, .page .base, 12288, 4096⟩]⟩ := by cbv
  refine ⟨_, loaded, by decide, by decide, by decide, fun shaped => ?_⟩
  exact absurd (shaped ⟨.mmap, .page .base, 12288, 4096⟩ (by decide)).ordered (by decide)

def spelledRows : List LegacyRow := [
  ⟨"mmap", -1, 0, 4194304⟩, ⟨"MMAP", 2097152, 0, 2097152⟩, ⟨"mmap", 2097152, 2097152, 4194304⟩]

theorem spelledLoaded : (LegacyRegion.ofRows .mmap spelledRows).result =
    .ok ⟨.mmap, 4194304, [⟨.mmap, .page .large, 2097152, 4194304⟩]⟩ := by cbv

theorem capitalsDropped : ¬ ∀ (pool : PoolKind) (rows : List LegacyRow) (r : LegacyRegion),
    (LegacyRegion.ofRows pool rows).result = .ok r →
      (rows.filter fun row => row.pool? = some pool).length = 1 + r.intervals.length := by
  intro accounted
  exact absurd (accounted .mmap spelledRows _ spelledLoaded) (by decide +kernel)

theorem spelledAccounted :
    (spelledRows.filter fun row => row.pool? = some .mmap).length = 1 + 1 + 1 ∧
    (LegacyRegion.ofRows .mmap (spelledRows.eraseIdx 1)).result =
      .ok ⟨.mmap, 4194304, [⟨.mmap, .page .large, 2097152, 4194304⟩]⟩ := by
  obtain ⟨_, _, count, without⟩ := LegacyRegion.rowsAccounted spelledLoaded
  have one : (spelledRows.filter (LegacyRow.Respells .mmap ·)).length = 1 := by decide +kernel
  have rest : (spelledRows.filter fun row => ¬ row.Respells .mmap) = spelledRows.eraseIdx 1 := by
    decide +kernel
  rw [one] at count
  rw [rest] at without
  exact ⟨count, without ▸ spelledLoaded⟩

end HugePools
