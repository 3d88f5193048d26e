import HugePools.Proofs.Expansion
import HugePools.Proofs.Selection

/-! The check of a pool against the geometry of its pages in exact arithmetic. The check
looks at runs, at the outer two of each size for their bounds, and in 64 bits; the geometry
speaks of every page. They agree on every pool. -/
namespace HugePools

namespace Pool

structure Sound (p : Pool) : Prop where
  largeWithin : ∀ i, p.large.pages.Has i →
    (i + 1) * 2 ^ 21 + p.large.offset.bytes ≤ p.size.bytes
  hugeWithin : ∀ j, p.huge.pages.Has j → (j + 1) * 2 ^ 30 + p.huge.offset.bytes ≤ p.size.bytes
  largeAligned : 4096 ∣ p.large.offset.bytes
  hugeAligned : 4096 ∣ p.huge.offset.bytes
  distanceAligned : 0 < p.large.offset.bytes → 0 < p.huge.offset.bytes →
    2 ^ 30 ∣ Nat.dist p.huge.offset.bytes p.large.offset.bytes
  apart : ∀ i j x, p.large.pages.Has i → p.huge.pages.Has j →
    ¬ ((p.large.pageAt .large i).Has x ∧ (p.huge.pageAt .huge j).Has x)

variable {p : Pool} {page : PageSize}

theorem outerMem {ranges : List ByteRange} {r : ByteRange}
    (mem : r ∈ ranges.head?.toList ++ ranges.getLast?.toList) : r ∈ ranges := by
  rcases List.mem_append.mp mem with head | last
  · exact List.mem_of_head? (by simpa using head)
  · exact List.mem_of_getLast? (by simpa using last)

theorem checkBoundsOk {ranges : List ByteRange} (before : ranges.Pairwise ByteRange.Before)
    (nonempty : ∀ r ∈ ranges, r.Nonempty) :
    p.checkBounds page ranges = .ok () ↔ ∀ r ∈ ranges, r.stop ≤ p.size.bytes := by
  have outer : p.checkBounds page ranges = .ok () ↔
      ∀ r ∈ ranges.head?.toList ++ ranges.getLast?.toList, r.fitsWithin p.size.bytes = true := by
    unfold checkBounds
    split
    · rename_i none
      simp only [true_iff]
      intro r mem
      simpa using List.find?_eq_none.mp none r mem
    · rename_i r found
      have bad := List.find?_some found
      simp only [reduceCtorEq, false_iff]
      intro all
      simp [all r (List.mem_of_find?_eq_some found)] at bad
  rw [outer]
  constructor
  · intro ends r mem
    rcases List.eq_nil_or_concat ranges with rfl | ⟨init, last, rfl⟩
    · contradiction
    · rw [List.concat_eq_append] at *
      have fits := (ByteRange.fitsIff (nonempty last (by simp))).mp (ends last (by simp))
      rcases List.mem_append.mp mem with earlier | final
      · have first := (List.pairwise_append.mp before).2.2 r earlier last (by simp)
        have some := nonempty last (by simp)
        simp only [ByteRange.Before, ByteRange.Nonempty] at first some
        omega
      · rw [List.mem_singleton.mp final]
        exact fits
  · intro all r mem
    have held := outerMem mem
    exact (ByteRange.fitsIff (nonempty r held)).mpr (all r held)

theorem checkOffsetOk {offset : Nat} :
    p.checkOffset page offset = .ok () ↔ 4096 ∣ offset := by
  have multiple : isAligned offset PageSize.base.bytes = true ↔ 4096 ∣ offset :=
    PageSize.base.alignedIff
  unfold checkOffset
  split
  · rename_i aligned
    simpa using multiple.mp aligned
  · rename_i other
    simpa using mt multiple.mpr other

theorem checkDeltaOk {offset2MB offset1GB : Nat} :
    p.checkDelta offset2MB offset1GB = .ok () ↔
      (0 < offset2MB → 0 < offset1GB → 2 ^ 30 ∣ Nat.dist offset1GB offset2MB) := by
  have multiple : isAligned (distance offset1GB offset2MB) PageSize.huge.bytes = true ↔
      2 ^ 30 ∣ Nat.dist offset1GB offset2MB := PageSize.huge.alignedIff
  rw [← multiple]
  unfold checkDelta
  split
  · rename_i bad
    simp [bad]
  · rename_i good
    simp only [true_iff]
    intro first second
    cases value : isAligned (distance offset1GB offset2MB) PageSize.huge.bytes with
    | true => rfl
    | false => exact absurd ⟨first, second, value⟩ good

theorem checkInterleaveOk {large huge : List ByteRange} :
    p.checkInterleave large huge = .ok () ↔ ∀ r ∈ large, ∀ s ∈ huge, r.Apart s := by
  have meeting : firstMeeting large huge = none ↔ ∀ r ∈ large, ∀ s ∈ huge, r.Apart s := by
    simp only [firstMeeting, List.findSome?_eq_none_iff, Option.map_eq_none_iff,
      List.find?_eq_none, Bool.not_eq_true, ByteRange.interleavesIff]
  unfold checkInterleave
  split
  · rename_i none
    simpa using meeting.mp none
  · rename_i r s found
    simp only [reduceCtorEq, false_iff]
    intro apart
    rw [meeting.mpr apart] at found
    contradiction

end Pool

theorem Placement.spansApartIff (place other : Placement) (page size : PageSize) :
    (∀ r ∈ place.spans page, ∀ s ∈ other.spans size, r.Apart s) ↔
      ∀ i j x, place.pages.Has i → other.pages.Has j →
        ¬ ((place.pageAt page i).Has x ∧ (other.pageAt size j).Has x) := by
  constructor
  · intro apart i j x first second shared
    obtain ⟨inside, also⟩ := shared
    obtain ⟨r, mem, here⟩ := (place.spansHasPage page x).mpr ⟨i, first, inside⟩
    obtain ⟨s, held, there⟩ := (other.spansHasPage size x).mpr ⟨j, second, also⟩
    exact (apart r mem s held).noneShared x ⟨here, there⟩
  · intro none r mem s held
    refine (ByteRange.apartIff (place.spansNonempty page r mem)
      (other.spansNonempty size s held)).mpr ?_
    intro x given
    obtain ⟨here, there⟩ := given
    obtain ⟨i, first, inside⟩ := (place.spansHasPage page x).mp ⟨r, mem, here⟩
    obtain ⟨j, second, also⟩ := (other.spansHasPage size x).mp ⟨s, held, there⟩
    exact none i j x first second ⟨inside, also⟩

namespace Pool

theorem checkOk (p : Pool) : p.check = .ok () ↔
    ((∀ r ∈ p.large.spans .large, r.stop < wordLimit) ∧
      ∀ r ∈ p.huge.spans .huge, r.stop < wordLimit) ∧
    (∀ r ∈ p.large.spans .large, r.stop ≤ p.size.bytes) ∧
    (∀ r ∈ p.huge.spans .huge, r.stop ≤ p.size.bytes) ∧
    4096 ∣ p.large.offset.bytes ∧ 4096 ∣ p.huge.offset.bytes ∧
    (0 < p.large.offset.bytes → 0 < p.huge.offset.bytes →
      2 ^ 30 ∣ Nat.dist p.huge.offset.bytes p.large.offset.bytes) ∧
    ∀ r ∈ p.large.spans .large, ∀ s ∈ p.huge.spans .huge, r.Apart s := by
  have large := rangesOk (rfl : p.placement .large = .ok p.large)
  have huge := rangesOk (rfl : p.placement .huge = .ok p.huge)
  have ascending := p.large.spansBefore .large
  have nonempty := p.large.spansNonempty .large
  have hugeAscending := p.huge.spansBefore .huge
  have hugeNonempty := p.huge.spansNonempty .huge
  constructor
  · intro passed
    obtain ⟨_, first, passed⟩ := Results.bindOk.mp passed
    obtain ⟨_, second, passed⟩ := Results.bindOk.mp passed
    obtain ⟨small, rfl⟩ := (large _).mp first
    obtain ⟨big, rfl⟩ := (huge _).mp second
    obtain ⟨low, passed⟩ := Results.thenOk.mp passed
    obtain ⟨high, passed⟩ := Results.thenOk.mp passed
    obtain ⟨aligned, passed⟩ := Results.thenOk.mp passed
    obtain ⟨also, passed⟩ := Results.thenOk.mp passed
    obtain ⟨delta, apart⟩ := Results.thenOk.mp passed
    exact ⟨⟨small, big⟩, (checkBoundsOk ascending nonempty).mp low,
      (checkBoundsOk hugeAscending hugeNonempty).mp high, checkOffsetOk.mp aligned,
      checkOffsetOk.mp also, checkDeltaOk.mp delta, checkInterleaveOk.mp apart⟩
  · intro given
    obtain ⟨⟨small, big⟩, low, high, aligned, also, delta, apart⟩ := given
    refine Results.bindOk.mpr ⟨_, (large _).mpr ⟨small, rfl⟩, ?_⟩
    refine Results.bindOk.mpr ⟨_, (huge _).mpr ⟨big, rfl⟩, ?_⟩
    refine Results.thenOk.mpr ⟨(checkBoundsOk ascending nonempty).mpr low, ?_⟩
    refine Results.thenOk.mpr ⟨(checkBoundsOk hugeAscending hugeNonempty).mpr high, ?_⟩
    refine Results.thenOk.mpr ⟨checkOffsetOk.mpr aligned, ?_⟩
    refine Results.thenOk.mpr ⟨checkOffsetOk.mpr also, ?_⟩
    exact Results.thenOk.mpr ⟨checkDeltaOk.mpr delta, checkInterleaveOk.mpr apart⟩

theorem checkIffSound (p : Pool) : p.check = .ok () ↔ p.Sound := by
  have large := p.large.spansWithin .large p.size.bytes
  have huge := p.huge.spansWithin .huge p.size.bytes
  have apart := p.large.spansApartIff p.huge .large .huge
  rw [checkOk]
  constructor
  · intro given
    obtain ⟨_, first, second, aligned, also, delta, disjoint⟩ := given
    exact ⟨large.mp first, huge.mp second, aligned, also, delta, apart.mp disjoint⟩
  · intro sound
    have first := large.mpr sound.largeWithin
    have second := huge.mpr sound.hugeWithin
    have bounded := p.size.bounded
    exact ⟨⟨fun r mem => Nat.lt_of_le_of_lt (first r mem) bounded,
        fun r mem => Nat.lt_of_le_of_lt (second r mem) bounded⟩,
      first, second, sound.largeAligned, sound.hugeAligned, sound.distanceAligned,
      apart.mpr sound.apart⟩

end Pool

namespace Layout

theorem validateIffChecked (l : Layout) : (∃ v, l.validate.result = .ok v) ↔
    l.brk.check = .ok () ∧ l.mmap.check = .ok () := by
  rw [← Results.thenOk, ← validateResult]
  simp [Results.mapOk]

/-- A layout is accepted exactly where brk and mmap are sound, and stays as it was; the file
pool changes neither the verdict nor the error. -/
theorem validateIffSound (l : Layout) :
    ((∃ v, l.validate.result = .ok v) ↔ l.brk.Sound ∧ l.mmap.Sound) ∧
      (∀ v, l.validate.result = .ok v → v.toLayout = l) ∧
      ∀ file, ({ l with file } : Layout).validate.result.map (fun _ => ()) =
        l.validate.result.map (fun _ => ()) := by
  refine ⟨?_, fun v valid => validateOk valid, fun file => ?_⟩
  · rw [validateIffChecked, Pool.checkIffSound, Pool.checkIffSound]
  · rw [validateResult, validateResult]

end Layout
end HugePools
