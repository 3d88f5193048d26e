import HugePools.Proofs.Acceptance
import HugePools.Proofs.Reservations

/-! The pages of a region that was read from rows. No two of its intervals share a byte, also where
base page rows end before they begin, so the pages of one size take no more than the space up to the
farthest end. That end came from a signed column, which leaves no room for an overflow. -/
namespace HugePools

namespace ByteRange

variable (ranges : List ByteRange) (page : PageSize)

def pages : Nat := (ranges.map fun r => r.length / page.bytes).sum

theorem pagesWithin : pages ranges page * page.bytes ≤ (ranges.map length).sum := by
  unfold pages
  rw [← List.sum_map_mul_right]
  exact List.sum_le_sum fun r _ => Nat.div_mul_le_self r.length page.bytes

theorem pagesWhole {ranges : List ByteRange} {page : PageSize}
    (whole : ∀ r ∈ ranges, page.bytes ∣ r.length) :
    pages ranges page * page.bytes = (ranges.map length).sum := by
  unfold pages
  rw [← List.sum_map_mul_right]
  exact congrArg List.sum (List.map_congr_left fun r mem => Nat.div_mul_cancel (whole r mem))

end ByteRange

namespace LegacyRegion

def furthest (r : LegacyRegion) : Nat := (r.intervals.map Interval.stop).max?.getD 0

variable {r : LegacyRegion} {pool : PoolKind} {rows : List LegacyRow}

theorem stopLe {i : Interval} (mem : i ∈ r.intervals) : i.stop ≤ r.furthest :=
  List.le_max?_getD_of_mem (List.mem_map_of_mem mem)

theorem furthestLt {limit : Nat} (positive : 0 < limit)
    (below : ∀ i ∈ r.intervals, i.stop < limit) : r.furthest < limit := by
  unfold furthest
  cases top : (r.intervals.map Interval.stop).max? with
  | none => exact positive
  | some stop =>
    obtain ⟨i, mem, rfl⟩ := List.mem_map.mp (List.max?_mem top)
    exact below i mem

theorem arrangedOf (loaded : (ofRows pool rows).result = .ok r) : r.Arranged := by
  rw [ofRowsResult] at loaded
  obtain ⟨_, _, _, _, arranged⟩ := ofRowsExact.mp loaded
  exact arranged

theorem signedEnds (loaded : (ofRows pool rows).result = .ok r) : r.furthest < 2 ^ 63 := by
  rw [ofRowsResult] at loaded
  obtain ⟨_, _, _, rfl, _⟩ := ofRowsExact.mp loaded
  refine furthestLt (Nat.two_pow_pos 63) fun i mem => ?_
  obtain ⟨row, _, rfl⟩ := List.mem_map.mp (List.mem_mergeSort.mp mem)
  have signed := row.endOffset.toInt_lt
  change row.endOffset.toInt.toNat < 2 ^ 63
  omega

theorem pageCountRanges (page : PageSize) :
    r.pageCount page = ByteRange.pages (r.ranges page) page := by
  rw [pageCountSum]
  unfold ByteRange.pages ranges
  rw [List.map_map]
  rfl

theorem rangesWithin (page : PageSize) : ∀ b ∈ r.ranges page, b.stop ≤ r.furthest := by
  intro b mem
  obtain ⟨i, held, rfl⟩ := List.mem_map.mp mem
  exact stopLe (List.mem_of_mem_filter held)

namespace Arranged

variable (arranged : r.Arranged) (page : PageSize)

include arranged

theorem rangesApart : (r.ranges page).Pairwise ByteRange.Apart := by
  refine List.pairwise_map.mpr ((arranged.clear.sublist List.filter_sublist).imp ?_)
  exact fun clear => .inl clear

theorem pagesWithin : r.pageCount page * page.bytes ≤ r.furthest := by
  rw [pageCountRanges]
  exact Nat.le_trans (ByteRange.pagesWithin _ page)
    (ByteRange.lengthsWithin (rangesWithin page) (arranged.rangesApart page))

theorem pagesCovered {page : PageSize} (large : page ≠ .base) :
    r.pageCount page * page.bytes = (ByteRange.covered (r.ranges page)).card := by
  have whole : ∀ b ∈ r.ranges page, page.bytes ∣ b.length := by
    intro b mem
    obtain ⟨i, held, rfl⟩ := List.mem_map.mp mem
    obtain ⟨own, kind⟩ := memGroup.mp held
    exact (arranged.shaped page large i own kind).2.2
  rw [pageCountRanges, ByteRange.pagesWhole whole,
    ByteRange.coveredCard (arranged.rangesApart page)]

end Arranged

theorem pageCountLt (loaded : (ofRows pool rows).result = .ok r) (page : PageSize) :
    r.pageCount page < 2 ^ 63 := calc
  r.pageCount page ≤ r.pageCount page * page.bytes := Nat.le_mul_of_pos_right _ page.bytesPos
  _ ≤ r.furthest := (arrangedOf loaded).pagesWithin page
  _ < 2 ^ 63 := signedEnds loaded

theorem partLe {page : PageSize} {earlier later : List Interval}
    (split : r.group page = earlier ++ later) :
    (earlier.map fun i => i.range.length / page.bytes).sum ≤ r.pageCount page := by
  rw [pageCountSum, split, List.map_append, List.sum_append]
  exact Nat.le_add_right _ _

theorem reservedPair {s : LegacyRegion} {other : PoolKind} {others : List LegacyRow}
    (first : (ofRows pool rows).result = .ok r) (second : (ofRows other others).result = .ok s) :
    Reservation.ofRegions [r, s] = ⟨r.pageCount .large + s.pageCount .large,
      r.pageCount .huge + s.pageCount .huge⟩ := by
  have small (page : PageSize) : r.pageCount page + s.pageCount page < wordLimit := by
    have low := pageCountLt first page
    have high := pageCountLt second page
    unfold wordLimit
    omega
  rw [Reservation.ofRegionsSaturate]
  simp only [List.map_cons, List.map_nil, List.sum_cons, List.sum_nil, Nat.add_zero]
  rw [saturateOfLt (small .large), saturateOfLt (small .huge)]

/-- No sum on the way to a page count reaches the sign bit. The pages lie before the farthest end,
and those of the two huge sizes take each address of their ranges once. Two regions reserve all of
their pages. -/
theorem pageCountsExact (loaded : (ofRows pool rows).result = .ok r) :
    (∀ page, r.pageCount page * page.bytes ≤ r.furthest ∧
      (∀ earlier later, r.group page = earlier ++ later →
        (earlier.map fun i => i.range.length / page.bytes).sum < 2 ^ 63) ∧
      (page ≠ .base →
        r.pageCount page * page.bytes = (ByteRange.covered (r.ranges page)).card)) ∧
    ∀ other others s, (ofRows other others).result = .ok s →
      Reservation.ofRegions [r, s] = ⟨r.pageCount .large + s.pageCount .large,
        r.pageCount .huge + s.pageCount .huge⟩ := by
  have arranged := arrangedOf loaded
  refine ⟨fun page => ⟨arranged.pagesWithin page, fun earlier later split => ?_,
    arranged.pagesCovered⟩, fun other others s also => reservedPair loaded also⟩
  exact Nat.lt_of_le_of_lt (partLe split) (pageCountLt loaded page)

end LegacyRegion

def raggedRows : List LegacyRow := [
  ⟨"mmap", 4096, 6295552, 4096⟩, ⟨"mmap", 2097152, 4294967296, 4297064448⟩,
  ⟨"mmap", 2097152, 2097152, 6291456⟩, ⟨"mmap", 1073741824, 1073741824, 2147483648⟩,
  ⟨"mmap", 4096, 6295553, 6307840⟩, ⟨"mmap", -1, 0, 2147483648⟩]

def raggedRegion : LegacyRegion := ⟨.mmap, 2147483648, [
  ⟨.mmap, .page .large, 2097152, 6291456⟩, ⟨.mmap, .page .base, 6295552, 4096⟩,
  ⟨.mmap, .page .base, 6295553, 6307840⟩, ⟨.mmap, .page .huge, 1073741824, 2147483648⟩,
  ⟨.mmap, .page .large, 4294967296, 4297064448⟩]⟩

theorem raggedReserved : (LegacyRegion.ofRows .mmap raggedRows).result = .ok raggedRegion ∧
    2 * 2 ^ 12 ≤ raggedRegion.furthest ∧
    3 * 2 ^ 21 = (ByteRange.covered (raggedRegion.ranges .large)).card ∧
    1 * 2 ^ 30 = (ByteRange.covered (raggedRegion.ranges .huge)).card ∧
    ∃ brk, (LegacyRegion.ofRows .brk looseRows).result = .ok brk ∧
      Reservation.ofRegions [raggedRegion, brk] = ⟨4, 1⟩ := by
  have loaded : (LegacyRegion.ofRows .mmap raggedRows).result = .ok raggedRegion := by cbv
  have other : (LegacyRegion.ofRows .brk looseRows).result = .ok ⟨.brk, 4096,
      [⟨.brk, .page .base, 2097152, 4096⟩, ⟨.brk, .page .large, 2097152, 4194304⟩]⟩ := by cbv
  obtain ⟨counts, reserved⟩ := LegacyRegion.pageCountsExact loaded
  exact ⟨loaded, (counts .base).1, (counts .large).2.2 (by decide), (counts .huge).2.2 (by decide), _, other,
    reserved .brk looseRows _ other⟩

end HugePools
