import HugePools.LegacyTable
import HugePools.Proofs.Geometry

/-! The intervals of an accepted layout. They cover the bytes of its pages once and nothing
else, and no two of one pool share a byte. -/
namespace HugePools

theorem PageSize.baseDivides (page : PageSize) : 4096 ∣ page.bytes := by
  cases page <;> decide

namespace Pool

def pageRows (p : Pool) : List Interval :=
  (p.large.spans .large).map (Interval.ofRange p.kind .large) ++
    (p.huge.spans .huge).map (Interval.ofRange p.kind .huge)

/-- What the rows of a table say of the pages of one pool. -/
structure Emitted (kind : PoolKind) (p : Pool) (rows : List Interval) : Prop where
  largeExact : ∀ x,
    (rows.filter fun i => i.pool = kind ∧ i.kind = .page .large).countP (fun i => i.range.Has x) =
      if p.large.offset.bytes ≤ x ∧ p.large.pages.Has ((x - p.large.offset.bytes) / 2 ^ 21)
      then 1 else 0
  hugeExact : ∀ x,
    (rows.filter fun i => i.pool = kind ∧ i.kind = .page .huge).countP (fun i => i.range.Has x) =
      if p.huge.offset.bytes ≤ x ∧ p.huge.pages.Has ((x - p.huge.offset.bytes) / 2 ^ 30)
      then 1 else 0
  shaped : ∀ i ∈ rows, i.pool = kind → ∀ page, i.kind = .page page →
    i.start < i.stop ∧ 4096 ∣ i.start ∧ page.bytes ∣ i.stop - i.start ∧ i.stop ≤ p.size.bytes
  apart : (rows.filter fun i => i.pool = kind).Pairwise fun i j => i.range.Apart j.range
  ascending : ∀ page, (rows.filter fun i => i.pool = kind ∧ i.kind = .page page).Pairwise
    fun i j => i.stop < j.start

variable {p : Pool}

theorem Sound.within (sound : p.Sound) {page : PageSize} {place : Placement}
    (found : p.placement page = .ok place) : ∀ r ∈ place.spans page, r.stop ≤ p.size.bytes := by
  cases page with
  | base => cases found
  | large => cases found; exact (p.large.spansWithin .large _).mpr sound.largeWithin
  | huge => cases found; exact (p.huge.spansWithin .huge _).mpr sound.hugeWithin

theorem Sound.aligned (sound : p.Sound) {page : PageSize} {place : Placement}
    (found : p.placement page = .ok place) : 4096 ∣ place.offset.bytes := by
  cases page with
  | base => cases found
  | large => cases found; exact sound.largeAligned
  | huge => cases found; exact sound.hugeAligned

theorem Sound.rangesOk (sound : p.Sound) {page : PageSize} {place : Placement}
    (found : p.placement page = .ok place) : p.ranges page = .ok (place.spans page) :=
  (Pool.rangesOk found _).mpr
    ⟨fun r mem => Nat.lt_of_le_of_lt (sound.within found r mem) p.size.bounded, rfl⟩

theorem Sound.poolIntervals (sound : p.Sound) :
    LegacyTable.poolIntervals p = .ok p.pageRows := by
  unfold LegacyTable.poolIntervals LegacyTable.pageIntervals
  rw [sound.rangesOk (rfl : p.placement .large = .ok p.large),
    sound.rangesOk (rfl : p.placement .huge = .ok p.huge)]
  rfl

theorem pageRowsPool {i : Interval} (mem : i ∈ p.pageRows) : i.pool = p.kind := by
  rcases List.mem_append.mp mem with large | huge
  · obtain ⟨r, _, rfl⟩ := List.mem_map.mp large
    rfl
  · obtain ⟨r, _, rfl⟩ := List.mem_map.mp huge
    rfl

theorem pageRowsKind {i : Interval} (mem : i ∈ p.pageRows) :
    ∃ page place, p.placement page = .ok place ∧ i.kind = .page page ∧
      i.range ∈ place.spans page := by
  rcases List.mem_append.mp mem with large | huge
  · obtain ⟨r, held, rfl⟩ := List.mem_map.mp large
    exact ⟨.large, p.large, rfl, rfl, held⟩
  · obtain ⟨r, held, rfl⟩ := List.mem_map.mp huge
    exact ⟨.huge, p.huge, rfl, rfl, held⟩

theorem pageRowsOf {page : PageSize} {place : Placement}
    (found : p.placement page = .ok place) :
    p.pageRows.filter (fun i => i.kind = .page page) =
      (place.spans page).map (Interval.ofRange p.kind page) := by
  have kept (size : PageSize) (ranges : List ByteRange) :
      (ranges.map (Interval.ofRange p.kind size)).filter (fun i => i.kind = .page page) =
        if size = page then ranges.map (Interval.ofRange p.kind size) else [] := by
    rw [List.filter_map]
    split
    · rename_i same
      rw [List.filter_eq_self.mpr (by simp [Interval.ofRange, same])]
    · rename_i other
      rw [List.filter_eq_nil_iff.mpr (by simp [Interval.ofRange, other]), List.map_nil]
  unfold pageRows
  rw [List.filter_append, kept, kept]
  cases page with
  | base => cases found
  | large => cases found; simp
  | huge => cases found; simp

theorem Sound.shape (sound : p.Sound) {page : PageSize} {place : Placement}
    (found : p.placement page = .ok place) {r : ByteRange} (mem : r ∈ place.spans page) :
    r.Nonempty ∧ 4096 ∣ r.start ∧ page.bytes ∣ r.length ∧ r.stop ≤ p.size.bytes := by
  refine ⟨place.spansNonempty page r mem, ?_, ?_, sound.within found r mem⟩
  · obtain ⟨run, _, rfl⟩ := List.mem_map.mp mem
    exact Nat.dvd_add (Nat.dvd_mul_left_of_dvd page.baseDivides _) (sound.aligned found)
  · obtain ⟨run, _, rfl⟩ := List.mem_map.mp mem
    rw [Run.spanLength]
    exact Nat.dvd_mul_left _ _

theorem Sound.pageRowsApart (sound : p.Sound) :
    p.pageRows.Pairwise fun i j => i.range.Apart j.range := by
  refine List.pairwise_append.mpr ⟨?_, ?_, ?_⟩
  · exact List.pairwise_map.mpr (p.large.spansApart .large)
  · exact List.pairwise_map.mpr (p.huge.spansApart .huge)
  · intro i first j second
    obtain ⟨r, mem, rfl⟩ := List.mem_map.mp first
    obtain ⟨s, held, rfl⟩ := List.mem_map.mp second
    exact (p.large.spansApartIff p.huge .large .huge).mpr sound.apart r mem s held

theorem Sound.emitted (sound : p.Sound) {rows : List Interval}
    (own : rows.filter (fun i => i.pool = p.kind) = p.pageRows) : Emitted p.kind p rows := by
  have sized (page : PageSize) : rows.filter (fun i => i.pool = p.kind ∧ i.kind = .page page) =
      p.pageRows.filter (fun i => i.kind = .page page) := by
    rw [← own, List.filter_filter]
    congr 1
    funext i
    simp [Bool.and_comm]
  refine ⟨?_, ?_, ?_, own ▸ sound.pageRowsApart, ?_⟩
  · intro x
    rw [sized, pageRowsOf (rfl : p.placement .large = .ok p.large), List.countP_map]
    exact p.large.spansCount .large x
  · intro x
    rw [sized, pageRowsOf (rfl : p.placement .huge = .ok p.huge), List.countP_map]
    exact p.huge.spansCount .huge x
  · intro i mem same page kind
    have held : i ∈ p.pageRows := own ▸ List.mem_filter.mpr ⟨mem, by simpa using same⟩
    obtain ⟨size, place, found, other, span⟩ := pageRowsKind held
    cases kind.symm.trans other
    exact sound.shape found span
  · intro page
    rw [sized]
    cases found : p.placement page with
    | error fault =>
      have none : p.pageRows.filter (fun i => i.kind = .page page) = [] := by
        refine List.filter_eq_nil_iff.mpr ?_
        intro i mem same
        obtain ⟨size, place, known, other, _⟩ := pageRowsKind mem
        cases (of_decide_eq_true same).symm.trans other
        rw [found] at known
        cases known
      rw [none]
      exact .nil
    | ok place =>
      rw [pageRowsOf found]
      exact List.pairwise_map.mpr (place.spansBefore page)

end Pool

namespace ValidLayout

variable (v : ValidLayout)

theorem brkSound : v.brk.Sound := v.brk.checkIffSound.mp v.brkPassed

theorem mmapSound : v.mmap.Sound := v.mmap.checkIffSound.mp v.mmapPassed

theorem intervalsOk : v.intervals =
    .ok (LegacyTable.markers v.toLayout ++ v.brk.pageRows ++ v.mmap.pageRows) := by
  unfold intervals
  rw [v.brkSound.poolIntervals, v.mmapSound.poolIntervals]
  rfl

variable {v}

theorem ownRows (slotted : v.Slotted) :
    (v.brk.pageRows ++ v.mmap.pageRows).filter (fun i => i.pool = v.brk.kind) =
        v.brk.pageRows ∧
      (v.brk.pageRows ++ v.mmap.pageRows).filter (fun i => i.pool = v.mmap.kind) =
        v.mmap.pageRows := by
  have brk : v.brk.kind = .brk := slotted .brk
  have mmap : v.mmap.kind = .mmap := slotted .mmap
  have keep (p : Pool) : p.pageRows.filter (fun i => i.pool = p.kind) = p.pageRows :=
    List.filter_eq_self.mpr fun i mem => by simpa using Pool.pageRowsPool mem
  have drop (p q : Pool) (different : p.kind ≠ q.kind) :
      q.pageRows.filter (fun i => i.pool = p.kind) = [] := by
    refine List.filter_eq_nil_iff.mpr fun i mem => ?_
    simpa [Pool.pageRowsPool mem] using different.symm
  rw [List.filter_append, List.filter_append, keep, keep, drop v.brk v.mmap (by simp [brk, mmap]),
    drop v.mmap v.brk (by simp [brk, mmap])]
  exact ⟨List.append_nil _, rfl⟩

end ValidLayout

/-- The rows of an accepted layout: the size of each pool, and then the pages of brk and mmap,
each byte of them once. -/
theorem Layout.emissionExact {rows : List PoolRow} {l : Layout} {v : ValidLayout}
    (built : (Layout.ofRows rows).result = .ok l) (valid : l.validate.result = .ok v) :
    ∃ pageRows, v.intervals = .ok
        ([⟨.brk, .poolSize, 0, l.brk.size.bytes⟩, ⟨.mmap, .poolSize, 0, l.mmap.size.bytes⟩,
          ⟨.file, .poolSize, 0, l.file.size.bytes⟩] ++ pageRows) ∧
      (∀ i ∈ pageRows, (i.pool = .brk ∨ i.pool = .mmap) ∧
        (i.kind = .page .large ∨ i.kind = .page .huge)) ∧
      l.brk.Emitted .brk pageRows ∧ l.mmap.Emitted .mmap pageRows := by
  obtain rfl := validateOk valid
  have slotted := ofRowsSlotted built
  have brk : v.brk.kind = .brk := slotted .brk
  have mmap : v.mmap.kind = .mmap := slotted .mmap
  obtain ⟨first, second⟩ := ValidLayout.ownRows slotted
  refine ⟨v.brk.pageRows ++ v.mmap.pageRows, ?_, ?_, ?_, ?_⟩
  · rw [v.intervalsOk, List.append_assoc]
    rfl
  · intro i mem
    have sized {p : Pool} (held : i ∈ p.pageRows) :
        i.kind = .page .large ∨ i.kind = .page .huge := by
      obtain ⟨page, place, found, kind, _⟩ := Pool.pageRowsKind held
      cases page with
      | base => cases found
      | large => exact .inl kind
      | huge => exact .inr kind
    rcases List.mem_append.mp mem with held | held
    · exact ⟨.inl ((Pool.pageRowsPool held).trans brk), sized held⟩
    · exact ⟨.inr ((Pool.pageRowsPool held).trans mmap), sized held⟩
  · exact brk ▸ v.brkSound.emitted first
  · exact mmap ▸ v.mmapSound.emitted second

def offsetRows : List PoolRow := [
  ⟨"brk", "8GB", "7", "4096", "2", "1073745920"⟩, ⟨"file", "1GB", "", "0", "", "0"⟩,
  ⟨"MMAP", "4GB", "5", "0", "2", "0"⟩]

def offsetLayout : Layout where
  brk := ⟨.brk, { bytes := 2 ^ 33 },
    ⟨⟨[⟨7, 7, by decide, by decide⟩], false, by decide⟩, { bytes := 2 ^ 12 }⟩,
    ⟨⟨[⟨2, 2, by decide, by decide⟩], false, by decide⟩, { bytes := 2 ^ 30 + 2 ^ 12 }⟩⟩
  mmap := ⟨.mmap, { bytes := 2 ^ 32 },
    ⟨⟨[⟨5, 5, by decide, by decide⟩], false, by decide⟩, .zero⟩,
    ⟨⟨[⟨2, 2, by decide, by decide⟩], false, by decide⟩, .zero⟩⟩
  file := .ofSize .file { bytes := 2 ^ 30 }

def offsetValid : ValidLayout := ⟨offsetLayout, by rfl, by rfl⟩

theorem offsetBuilt : (Layout.ofRows offsetRows).result = .ok offsetLayout := by cbv

theorem offsetPassed : offsetLayout.validate.result = .ok offsetValid := by rfl

theorem offsetFits : ∀ kind, (offsetLayout.pool kind).size.bytes < 2 ^ 63 := by
  intro kind
  cases kind <;> decide

def offsetPageRows : List Interval := [
  ⟨.brk, .page .large, 14684160, 16781312⟩, ⟨.brk, .page .huge, 3221229568, 4294971392⟩,
  ⟨.mmap, .page .large, 10485760, 12582912⟩, ⟨.mmap, .page .huge, 2147483648, 3221225472⟩]

theorem offsetEmission : offsetValid.intervals = .ok
      ([⟨.brk, .poolSize, 0, 2 ^ 33⟩, ⟨.mmap, .poolSize, 0, 2 ^ 32⟩,
        ⟨.file, .poolSize, 0, 2 ^ 30⟩] ++ offsetPageRows) ∧
    (∀ i ∈ offsetPageRows, (i.pool = .brk ∨ i.pool = .mmap) ∧
      (i.kind = .page .large ∨ i.kind = .page .huge)) ∧
    offsetLayout.brk.Emitted .brk offsetPageRows ∧
    offsetLayout.mmap.Emitted .mmap offsetPageRows := by
  obtain ⟨pageRows, emitted, own, brk, mmap⟩ := Layout.emissionExact offsetBuilt offsetPassed
  have listed : offsetValid.intervals = .ok
      ([⟨.brk, .poolSize, 0, 2 ^ 33⟩, ⟨.mmap, .poolSize, 0, 2 ^ 32⟩,
        ⟨.file, .poolSize, 0, 2 ^ 30⟩] ++ offsetPageRows) := by rfl
  obtain rfl : offsetPageRows = pageRows :=
    List.append_cancel_left (Except.ok.inj (listed.symm.trans emitted))
  exact ⟨listed, own, brk, mmap⟩

end HugePools
