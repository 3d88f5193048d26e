import HugePools.Proofs.Restoration
import HugePools.Reservation

/-! The pages that an accepted layout reserves: counted from its sets, from its rows, and from
the regions that its table is read back as. The three agree, and the pages fit the pools. -/
namespace HugePools

namespace LegacyTable

def pageTotal (page : PageSize) (rows : List Interval) : Nat :=
  ((rows.filter fun i => (i.pool = .brk ∨ i.pool = .mmap) ∧ i.kind = .page page).map
    fun i => (i.stop - i.start) / page.bytes).sum

theorem pageTotalAppend (page : PageSize) (rows others : List Interval) :
    pageTotal page (rows ++ others) = pageTotal page rows + pageTotal page others := by
  simp [pageTotal]

theorem pageTotalMarkers (page : PageSize) (l : Layout) : pageTotal page (markers l) = 0 := by
  simp [pageTotal, markers, PoolKind.all, Interval.marker]

end LegacyTable

theorem Pool.pageTotalRows {p : Pool} (kept : p.kind = .brk ∨ p.kind = .mmap) {page : PageSize}
    {place : Placement} (found : p.placement page = .ok place) :
    LegacyTable.pageTotal page p.pageRows = place.pages.total := by
  have own : p.pageRows.filter (fun i => (i.pool = .brk ∨ i.pool = .mmap) ∧ i.kind = .page page) =
      p.pageRows.filter (fun i => i.kind = .page page) := by
    refine List.filter_congr fun i mem => ?_
    rw [pageRowsPool mem]
    simp [kept]
  unfold LegacyTable.pageTotal
  rw [own, pageRowsOf found, List.map_map]
  exact place.spansPages page

namespace Reservation

variable {l : Layout}

theorem pagesSaturate {page : PageSize} {brk mmap : Placement}
    (first : l.brk.placement page = .ok brk) (second : l.mmap.placement page = .ok mmap) :
    (ofLayout l).pages page = saturate (brk.pages.count + mmap.pages.count) := by
  cases page with
  | base => cases first
  | large => cases first; cases second; rfl
  | huge => cases first; cases second; rfl

theorem pagesExact (brk : l.brk.Sound) (mmap : l.mmap.Sound) {page : PageSize}
    {low high : Placement} (first : l.brk.placement page = .ok low)
    (second : l.mmap.placement page = .ok high) :
    (ofLayout l).pages page = low.pages.total + high.pages.total ∧
      low.pages.total + high.pages.total < wordLimit := by
  have few := brk.pagesFew first
  have also := mmap.pagesFew second
  have small : low.pages.total + high.pages.total < wordLimit := by
    unfold wordLimit
    omega
  rw [pagesSaturate first second, brk.countTotal first, mmap.countTotal second]
  exact ⟨saturateOfLt small, small⟩

theorem foldRegions (regions : List LegacyRegion) (large huge : Nat) :
    regions.foldl add ⟨saturate large, saturate huge⟩ =
      ⟨saturate (large + (regions.map fun r => r.pageCount .large).sum),
        saturate (huge + (regions.map fun r => r.pageCount .huge).sum)⟩ := by
  induction regions generalizing large huge with
  | nil => rfl
  | cons r rest ih =>
    have next : add ⟨saturate large, saturate huge⟩ r =
        ⟨saturate (large + r.pageCount .large), saturate (huge + r.pageCount .huge)⟩ := by
      unfold add
      rw [saturateAddLeft, saturateAddLeft]
    rw [List.foldl_cons, next, ih]
    simp only [List.map_cons, List.sum_cons, Nat.add_assoc]

theorem ofRegionsSaturate (regions : List LegacyRegion) : ofRegions regions =
    ⟨saturate ((regions.map fun r => r.pageCount .large).sum),
      saturate ((regions.map fun r => r.pageCount .huge).sum)⟩ := by
  have folded := foldRegions regions 0 0
  rw [Nat.zero_add, Nat.zero_add] at folded
  exact folded

theorem ofRegionsRestored {brk mmap : LegacyRegion} (low : l.brk.Restored brk)
    (high : l.mmap.Restored mmap) : ofRegions [brk, mmap] = ofLayout l := by
  have first : l.brk.large.pages.count = brk.pageCount .large := Except.ok.inj low.largeCount
  have second : l.mmap.large.pages.count = mmap.pageCount .large := Except.ok.inj high.largeCount
  have third : l.brk.huge.pages.count = brk.pageCount .huge := Except.ok.inj low.hugeCount
  have fourth : l.mmap.huge.pages.count = mmap.pageCount .huge := Except.ok.inj high.hugeCount
  rw [ofRegionsSaturate]
  simp only [ofLayout, Layout.total2MB, Layout.total1GB, first, second, third, fourth,
    List.map_cons, List.map_nil, List.sum_cons, List.sum_nil, Nat.add_zero]

end Reservation

/-- An accepted layout reserves each page of brk and mmap once: as many as its rows have, and as
the regions have that these rows are read back as. No count is capped, and what is reserved is
no more than the two pools. -/
theorem Layout.reservationExact {rows : List PoolRow} {l : Layout} {v : ValidLayout}
    (built : (Layout.ofRows rows).result = .ok l) (valid : l.validate.result = .ok v) :
    ∃ intervals, v.intervals = .ok intervals ∧
      (∀ page brk mmap, l.brk.placement page = .ok brk → l.mmap.placement page = .ok mmap →
        brk.pages.Counted ∧ mmap.pages.Counted ∧
        brk.pages.indices.length + mmap.pages.indices.length < wordLimit ∧
        (Reservation.ofLayout l).pages page =
          brk.pages.indices.length + mmap.pages.indices.length ∧
        (Reservation.ofLayout l).pages page = LegacyTable.pageTotal page intervals) ∧
      (∀ table brk mmap, LegacyTable.rows intervals = .ok table →
        (LegacyRegion.ofRows .brk table).result = .ok brk →
        (LegacyRegion.ofRows .mmap table).result = .ok mmap →
        Reservation.ofRegions [brk, mmap] = Reservation.ofLayout l) ∧
      (Reservation.ofLayout l).pages2MB * 2 ^ 21 + (Reservation.ofLayout l).pages1GB * 2 ^ 30 ≤
        l.brk.size.bytes + l.mmap.size.bytes := by
  obtain rfl := validateOk valid
  have slotted := ofRowsSlotted built
  have low : v.brk.kind = .brk := slotted .brk
  have high : v.mmap.kind = .mmap := slotted .mmap
  have emitted := v.intervalsOk
  refine ⟨_, emitted, ?_, ?_, ?_⟩
  · intro page brk mmap first second
    obtain ⟨pages, small⟩ := Reservation.pagesExact v.brkSound v.mmapSound first second
    have emittedPages : LegacyTable.pageTotal page
        (LegacyTable.markers v.toLayout ++ v.brk.pageRows ++ v.mmap.pageRows) =
          brk.pages.total + mmap.pages.total := by
      rw [LegacyTable.pageTotalAppend, LegacyTable.pageTotalAppend, LegacyTable.pageTotalMarkers,
        Pool.pageTotalRows (.inl low) first,
        Pool.pageTotalRows (.inr high) second, Nat.zero_add]
    rw [PageSet.indicesLength, PageSet.indicesLength]
    exact ⟨v.brkSound.counted first, v.mmapSound.counted second, small, pages,
      pages.trans emittedPages.symm⟩
  · intro table brk mmap stored first second
    have fits := ValidLayout.fitsOfRows emitted stored
    obtain ⟨_, rfl⟩ := LegacyTable.rowsOk.mp stored
    exact Reservation.ofRegionsRestored
      (ValidLayout.reloadRestored slotted fits emitted (.refl _) first)
      (ValidLayout.reloadRestored slotted fits emitted (.refl _) second)
  · have brk := v.brkSound.pagesWithin
    have mmap := v.mmapSound.pagesWithin
    have large : (Reservation.ofLayout v.toLayout).pages2MB =
        v.brk.large.pages.total + v.mmap.large.pages.total :=
      (Reservation.pagesExact v.brkSound v.mmapSound
        (rfl : v.brk.placement .large = .ok _) (rfl : v.mmap.placement .large = .ok _)).1
    have huge : (Reservation.ofLayout v.toLayout).pages1GB =
        v.brk.huge.pages.total + v.mmap.huge.pages.total :=
      (Reservation.pagesExact v.brkSound v.mmapSound
        (rfl : v.brk.placement .huge = .ok _) (rfl : v.mmap.placement .huge = .ok _)).1
    calc (Reservation.ofLayout v.toLayout).pages2MB * 2 ^ 21 +
          (Reservation.ofLayout v.toLayout).pages1GB * 2 ^ 30
      _ = (v.brk.large.pages.total * 2 ^ 21 + v.brk.huge.pages.total * 2 ^ 30) +
          (v.mmap.large.pages.total * 2 ^ 21 + v.mmap.huge.pages.total * 2 ^ 30) := by
        rw [large, huge]
        ring
      _ ≤ v.brk.size.bytes + v.mmap.size.bytes := Nat.add_le_add brk mmap

theorem offsetReserved : ∃ intervals, offsetValid.intervals = .ok intervals ∧
    (Reservation.ofLayout offsetLayout).pages .large = LegacyTable.pageTotal .large intervals ∧
    (Reservation.ofLayout offsetLayout).pages .huge = LegacyTable.pageTotal .huge intervals ∧
    (∃ table brk mmap, LegacyTable.rows intervals = .ok table ∧
      (LegacyRegion.ofRows .brk table).result = .ok brk ∧
      (LegacyRegion.ofRows .mmap table).result = .ok mmap ∧
      Reservation.ofRegions [brk, mmap] = ⟨2, 2⟩) ∧
    2 * 2 ^ 21 + 2 * 2 ^ 30 ≤ offsetLayout.brk.size.bytes + offsetLayout.mmap.size.bytes := by
  obtain ⟨intervals, emitted, counts, reloaded, within⟩ :=
    Layout.reservationExact offsetBuilt offsetPassed
  obtain ⟨_, _, _, _, large⟩ := counts .large _ _ rfl rfl
  obtain ⟨_, _, _, _, huge⟩ := counts .huge _ _ rfl rfl
  have value : Reservation.ofLayout offsetLayout = ⟨2, 2⟩ := by decide
  rw [value] at reloaded within
  refine ⟨intervals, emitted, large, huge, ?_, within⟩
  have slotted := Layout.ofRowsSlotted offsetBuilt
  have reload := ValidLayout.reloadOk slotted offsetFits emitted (.refl _)
  obtain ⟨brk, first⟩ := (reload .brk).mpr (.inr (.inr (by decide)))
  obtain ⟨mmap, second⟩ := (reload .mmap).mpr (.inr (.inr (by decide)))
  have stored : LegacyTable.rows intervals = .ok (intervals.map Interval.record) := by
    cases offsetValid.intervalsOk.symm.trans emitted
    exact LegacyTable.rowsOk.mpr ⟨offsetValid.storable offsetFits, rfl⟩
  exact ⟨_, brk, mmap, stored, first, second, reloaded _ brk mmap stored first second⟩

end HugePools
