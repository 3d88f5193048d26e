import HugePools.Proofs.Results
import HugePools.Pool

/-! The bytes of pages. In exact arithmetic every page and every run has a range; the
64-bit expansion gives these ranges wherever the last of them ends below the limit. -/
namespace HugePools

namespace ByteRange

def Has (r : ByteRange) (address : Nat) : Prop := r.start ≤ address ∧ address < r.stop

instance (r : ByteRange) (address : Nat) : Decidable (r.Has address) :=
  inferInstanceAs (Decidable (_ ∧ _))

def Nonempty (r : ByteRange) : Prop := r.start < r.stop

def Before (r s : ByteRange) : Prop := r.stop < s.start

def Apart (r s : ByteRange) : Prop := r.stop ≤ s.start ∨ s.stop ≤ r.start

theorem Apart.symm {r s : ByteRange} (apart : r.Apart s) : s.Apart r := Or.symm apart

theorem Before.apart {r s : ByteRange} (before : r.Before s) : r.Apart s :=
  .inl (Nat.le_of_lt before)

theorem Apart.noneShared {r s : ByteRange} (apart : r.Apart s) (x : Nat) :
    ¬ (r.Has x ∧ s.Has x) := by
  simp only [Apart, Has] at *
  omega

theorem apartIff {r s : ByteRange} (some : r.Nonempty) (other : s.Nonempty) :
    r.Apart s ↔ ∀ x, ¬ (r.Has x ∧ s.Has x) := by
  constructor
  · exact Apart.noneShared
  · intro none
    have absent := none (max r.start s.start)
    simp only [Apart, Has, Nonempty] at *
    omega

theorem interleavesIff (r s : ByteRange) : r.interleaves s = false ↔ r.Apart s := by
  simp only [interleaves, Bool.and_eq_false_iff, decide_eq_false_iff_not, Apart]
  omega

theorem sharedIff {r s : ByteRange} (some : r.Nonempty) (other : s.Nonempty) :
    r.interleaves s = true ↔ ∃ x, r.Has x ∧ s.Has x := by
  have none := (interleavesIff r s).trans (apartIff some other)
  rw [← not_iff_not, Bool.not_eq_true, none, not_exists]

theorem startsBefore {earlier later : List ByteRange} {r s : ByteRange}
    (ascending : (earlier ++ r :: later).Pairwise Before) (some : r.Nonempty)
    (mem : s ∈ earlier ++ r :: later) (lower : s.start < r.start) : s ∈ earlier := by
  rcases List.mem_append.mp mem with before | rest
  · exact before
  · rcases List.mem_cons.mp rest with rfl | after
    · exact absurd lower (Nat.lt_irrefl _)
    · have above := (List.pairwise_cons.mp (List.pairwise_append.mp ascending).2.1).1 s after
      simp only [Before, Nonempty] at above some
      omega

theorem fitsIff {r : ByteRange} (some : r.Nonempty) {limit : Nat} :
    r.fitsWithin limit = true ↔ r.stop ≤ limit := by
  simp only [Nonempty, fitsWithin, Bool.and_eq_true, decide_eq_true_eq] at *
  omega

theorem countHas {ranges : List ByteRange} (apart : ranges.Pairwise Apart) (x : Nat) :
    ranges.countP (fun r => r.Has x) = if ∃ r ∈ ranges, r.Has x then 1 else 0 := by
  induction ranges with
  | nil => simp
  | cons r rest ih =>
    obtain ⟨first, others⟩ := List.pairwise_cons.mp apart
    rw [List.countP_cons, ih others]
    by_cases inside : r.Has x
    · have none : ¬ ∃ s ∈ rest, s.Has x := fun ⟨s, mem, also⟩ =>
        (first s mem).noneShared x ⟨inside, also⟩
      simp [inside, none]
    · simp [inside]

def covered (ranges : List ByteRange) : Finset Nat :=
  ranges.toFinset.biUnion fun r => Finset.Ico r.start r.stop

theorem memCovered {ranges : List ByteRange} {x : Nat} :
    x ∈ covered ranges ↔ ∃ r ∈ ranges, r.Has x := by
  simp [covered, Has]

theorem coveredCard {ranges : List ByteRange} (apart : ranges.Pairwise Apart) :
    (covered ranges).card = (ranges.map length).sum := by
  induction ranges with
  | nil => rfl
  | cons r rest ih =>
    obtain ⟨first, others⟩ := List.pairwise_cons.mp apart
    have more : covered (r :: rest) = Finset.Ico r.start r.stop ∪ covered rest := by
      unfold covered
      rw [List.toFinset_cons, Finset.biUnion_insert]
    have disjoint : Disjoint (Finset.Ico r.start r.stop) (covered rest) := by
      refine Finset.disjoint_left.mpr fun x own other => ?_
      obtain ⟨s, mem, also⟩ := memCovered.mp other
      exact (first s mem).noneShared x ⟨Finset.mem_Ico.mp own, also⟩
    rw [more, Finset.card_union_of_disjoint disjoint, Nat.card_Ico, ih others]
    rfl

theorem lengthsWithin {ranges : List ByteRange} {limit : Nat}
    (within : ∀ r ∈ ranges, r.stop ≤ limit) (apart : ranges.Pairwise Apart) :
    (ranges.map length).sum ≤ limit := by
  have inside : covered ranges ⊆ Finset.range limit := by
    intro x mem
    obtain ⟨r, held, has⟩ := memCovered.mp mem
    exact Finset.mem_range.mpr (Nat.lt_of_lt_of_le has.2 (within r held))
  have fewer := Finset.card_le_card inside
  rwa [coveredCard apart, Finset.card_range] at fewer

end ByteRange

namespace Run

def span (pageSize offset : Nat) (r : Run) : ByteRange :=
  ⟨r.first * pageSize + offset, (r.last + 1) * pageSize + offset⟩

variable {pageSize offset : Nat}

theorem spanNonempty (positive : 0 < pageSize) (r : Run) : (r.span pageSize offset).Nonempty := by
  have longer : r.first * pageSize < (r.last + 1) * pageSize :=
    Nat.mul_lt_mul_of_pos_right (Nat.lt_succ_of_le r.ordered) positive
  simp only [ByteRange.Nonempty, span]
  omega

theorem spanHas (positive : 0 < pageSize) (r : Run) (x : Nat) :
    (r.span pageSize offset).Has x ↔ offset ≤ x ∧ r.Has ((x - offset) / pageSize) := by
  have low := Nat.le_div_iff_mul_le positive (x := r.first) (y := x - offset)
  have high := Nat.div_lt_iff_lt_mul positive (x := x - offset) (y := r.last + 1)
  simp only [ByteRange.Has, span, Has]
  omega

theorem spanBefore {r s : Run} (apart : r.Apart s) (positive : 0 < pageSize) :
    (r.span pageSize offset).Before (s.span pageSize offset) := by
  have farther := Nat.mul_lt_mul_of_pos_right apart positive
  simp only [ByteRange.Before, span]
  omega

theorem spanLength (r : Run) : (r.span pageSize offset).length = r.count * pageSize := by
  have ordered := r.ordered
  have same : r.last + 1 = r.first + r.count := by simp only [count]; omega
  simp only [ByteRange.length, span, same, Nat.add_mul]
  omega

theorem addressOk {index a : Nat} : address pageSize offset index = .ok a ↔
    index * pageSize + offset < wordLimit ∧ a = index * pageSize + offset := by
  unfold address
  split
  · rename_i fits
    simp [fits, eq_comm]
  · rename_i beyond
    exact iff_of_false (fun same => by cases same) fun both => beyond both.1

theorem addressFails {index : Nat} {fault : QuantityError} :
    address pageSize offset index = .error fault ↔
      wordLimit ≤ index * pageSize + offset ∧ fault = .addressOverflow index pageSize offset := by
  unfold address
  split
  · rename_i fits
    exact iff_of_false (fun same => by cases same) fun both => Nat.not_le_of_lt fits both.1
  · rename_i beyond
    simp [Nat.le_of_not_lt beyond, eq_comm]

theorem byteRangeOk (positive : 0 < pageSize) (r : Run) (b : ByteRange) :
    byteRange pageSize offset r = .ok b ↔
      (r.span pageSize offset).stop < wordLimit ∧ b = r.span pageSize offset := by
  have nonempty : (r.span pageSize offset).Nonempty := spanNonempty positive r
  have larger : r.last + 1 ≤ (r.last + 1) * pageSize := Nat.le_mul_of_pos_right _ positive
  simp only [ByteRange.Nonempty, span] at nonempty
  unfold byteRange
  rw [Results.bindOk]
  constructor
  · intro given
    obtain ⟨start, first, more⟩ := given
    split at more
    · obtain ⟨stop, second, last⟩ := Results.bindOk.mp more
      obtain ⟨_, rfl⟩ := addressOk.mp first
      obtain ⟨fits, rfl⟩ := addressOk.mp second
      exact ⟨fits, (Results.pureOk.mp last).symm⟩
    · cases more
  · intro given
    obtain ⟨fits, rfl⟩ := given
    simp only [span] at fits
    refine ⟨_, addressOk.mpr ⟨by omega, rfl⟩, ?_⟩
    rw [if_pos (by omega)]
    exact Results.bindOk.mpr ⟨_, addressOk.mpr ⟨fits, rfl⟩, rfl⟩

theorem byteRangeFails {r : Run} {fault : QuantityError}
    (failed : byteRange pageSize offset r = .error fault) :
    ∃ index, fault = .addressOverflow index pageSize offset ∧
      (index = r.first ∧ wordLimit ≤ r.first * pageSize + offset ∨ index = r.last ∨
        index = r.last + 1) := by
  rcases Results.bindFails.mp failed with start | ⟨_, _, more⟩
  · obtain ⟨beyond, rfl⟩ := addressFails.mp start
    exact ⟨_, rfl, .inl ⟨rfl, beyond⟩⟩
  · split at more
    · rcases Results.bindFails.mp more with stop | ⟨_, _, last⟩
      · exact ⟨_, (addressFails.mp stop).2, .inr (.inr rfl)⟩
      · cases last
    · cases more
      exact ⟨_, rfl, .inr (.inl rfl)⟩

theorem byteRangeOverflow (positive : 0 < pageSize) {r : Run} {fault : QuantityError}
    (failed : byteRange pageSize offset r = .error fault) :
    ∃ index page, fault = .addressOverflow index pageSize offset ∧
      (index = page ∨ index = page + 1) ∧ r.Has page ∧
      wordLimit ≤ (page + 1) * pageSize + offset := by
  obtain ⟨index, rfl, place⟩ := byteRangeFails failed
  have beyond : wordLimit ≤ (r.last + 1) * pageSize + offset := by
    refine Nat.le_of_not_lt fun fits => ?_
    cases failed.symm.trans ((byteRangeOk positive r _).mpr ⟨fits, rfl⟩)
  rcases place with ⟨rfl, early⟩ | last | next
  · have later : r.first * pageSize ≤ (r.first + 1) * pageSize :=
      Nat.mul_le_mul_right _ (Nat.le_succ _)
    exact ⟨_, r.first, rfl, .inl rfl, ⟨Nat.le_refl _, r.ordered⟩, by omega⟩
  · exact ⟨_, r.last, rfl, .inl last, ⟨r.ordered, Nat.le_refl _⟩, beyond⟩
  · exact ⟨_, r.last, rfl, .inr next, ⟨r.ordered, Nat.le_refl _⟩, beyond⟩

end Run

namespace PageSet

instance (s : PageSet) (index : Nat) : Decidable (s.Has index) :=
  decidable_of_iff (s.runs.any (fun r => r.Has index) = true) (by simp [Has])

variable (s : PageSet) {pageSize offset : Nat}

def spans (pageSize offset : Nat) : List ByteRange := s.runs.map (Run.span pageSize offset)

theorem spansBefore (positive : 0 < pageSize) :
    (s.spans pageSize offset).Pairwise ByteRange.Before := by
  refine List.pairwise_map.mpr (s.canonical.imp ?_)
  intro r t apart
  exact Run.spanBefore apart positive

theorem spansNonempty (positive : 0 < pageSize) :
    ∀ r ∈ s.spans pageSize offset, r.Nonempty := by
  intro r mem
  obtain ⟨run, _, rfl⟩ := List.mem_map.mp mem
  exact Run.spanNonempty positive run

theorem spansHas (positive : 0 < pageSize) (x : Nat) :
    (∃ r ∈ s.spans pageSize offset, r.Has x) ↔
      offset ≤ x ∧ s.Has ((x - offset) / pageSize) := by
  constructor
  · intro given
    obtain ⟨r, mem, inside⟩ := given
    obtain ⟨run, held, rfl⟩ := List.mem_map.mp mem
    obtain ⟨above, slot⟩ := (Run.spanHas positive run x).mp inside
    exact ⟨above, run, held, slot⟩
  · intro given
    obtain ⟨above, run, held, slot⟩ := given
    have inside := (Run.spanHas positive run x).mpr ⟨above, slot⟩
    exact ⟨_, List.mem_map.mpr ⟨run, held, rfl⟩, inside⟩

theorem spansWithin (limit : Nat) : (∀ r ∈ s.spans pageSize offset, r.stop ≤ limit) ↔
    ∀ index, s.Has index → (index + 1) * pageSize + offset ≤ limit := by
  constructor
  · intro all index given
    obtain ⟨run, held, slot⟩ := given
    have top := all _ (List.mem_map.mpr ⟨run, held, rfl⟩)
    have below : (index + 1) * pageSize ≤ (run.last + 1) * pageSize :=
      Nat.mul_le_mul_right _ (Nat.succ_le_succ slot.2)
    simp only [Run.span] at *
    omega
  · intro all r mem
    obtain ⟨run, held, rfl⟩ := List.mem_map.mp mem
    exact all run.last ⟨run, held, run.ordered, Nat.le_refl _⟩

theorem byteRangesOk (positive : 0 < pageSize) {ranges : List ByteRange} :
    s.byteRanges pageSize offset = .ok ranges ↔
      (∀ r ∈ s.spans pageSize offset, r.stop < wordLimit) ∧ ranges = s.spans pageSize offset := by
  unfold byteRanges spans
  rw [Results.mapMOk (Run.byteRangeOk positive), List.forall_mem_map]

theorem byteRangesDone (positive : 0 < pageSize) :
    (∃ ranges, s.byteRanges pageSize offset = .ok ranges) ↔
      ∀ index, s.Has index → (index + 1) * pageSize + offset ≤ 2 ^ 64 - 1 := by
  simp only [s.byteRangesOk positive, exists_and_left, exists_eq, and_true]
  rw [← s.spansWithin]
  exact forall₂_congr fun r _ => Nat.lt_iff_le_pred (by decide)

theorem byteRangesFails {fault : QuantityError}
    (failed : s.byteRanges pageSize offset = .error fault) :
    ∃ index, fault = .addressOverflow index pageSize offset := by
  obtain ⟨_, _, _, _, _, refused⟩ := Results.mapMFails.mp failed
  obtain ⟨index, same, _⟩ := Run.byteRangeFails refused
  exact ⟨index, same⟩

theorem byteRangesOverflow (positive : 0 < pageSize) {fault : QuantityError}
    (failed : s.byteRanges pageSize offset = .error fault) :
    ∃ index page, fault = .addressOverflow index pageSize offset ∧
      (index = page ∨ index = page + 1) ∧ s.Has page ∧
      wordLimit ≤ (page + 1) * pageSize + offset := by
  obtain ⟨earlier, run, later, split, _, refused⟩ := Results.mapMFails.mp failed
  obtain ⟨index, page, same, next, held, beyond⟩ := Run.byteRangeOverflow positive refused
  exact ⟨index, page, same, next, ⟨run, by simp [split], held⟩, beyond⟩

end PageSet

namespace Placement

variable (place : Placement) (page : PageSize)

def pageAt (index : Nat) : ByteRange :=
  ⟨index * page.bytes + place.offset.bytes, (index + 1) * page.bytes + place.offset.bytes⟩

def spans : List ByteRange := place.pages.runs.map (Run.span page.bytes place.offset.bytes)

theorem pageAtHas (index x : Nat) : (place.pageAt page index).Has x ↔
    place.offset.bytes ≤ x ∧ (x - place.offset.bytes) / page.bytes = index := by
  have positive := page.bytesPos
  have low := Nat.le_div_iff_mul_le positive (x := index) (y := x - place.offset.bytes)
  have high := Nat.div_lt_iff_lt_mul positive (x := x - place.offset.bytes) (y := index + 1)
  simp only [ByteRange.Has, pageAt]
  omega

theorem spansNone : place.spans page = [] ↔ place.pages.isEmpty = true :=
  List.map_eq_nil_iff.trans List.isEmpty_iff.symm

theorem spansBefore : (place.spans page).Pairwise ByteRange.Before :=
  place.pages.spansBefore page.bytesPos

theorem spansApart : (place.spans page).Pairwise ByteRange.Apart :=
  (place.spansBefore page).imp ByteRange.Before.apart

theorem spansNonempty : ∀ r ∈ place.spans page, r.Nonempty :=
  place.pages.spansNonempty page.bytesPos

theorem spansHas (x : Nat) : (∃ r ∈ place.spans page, r.Has x) ↔
    place.offset.bytes ≤ x ∧ place.pages.Has ((x - place.offset.bytes) / page.bytes) :=
  place.pages.spansHas page.bytesPos x

theorem spansHasPage (x : Nat) : (∃ r ∈ place.spans page, r.Has x) ↔
    ∃ index, place.pages.Has index ∧ (place.pageAt page index).Has x := by
  rw [spansHas]
  constructor
  · intro given
    obtain ⟨above, held⟩ := given
    exact ⟨_, held, (place.pageAtHas page _ x).mpr ⟨above, rfl⟩⟩
  · intro given
    obtain ⟨index, held, inside⟩ := given
    obtain ⟨above, rfl⟩ := (place.pageAtHas page index x).mp inside
    exact ⟨above, held⟩

theorem spansCount (x : Nat) : (place.spans page).countP (fun r => r.Has x) =
    if place.offset.bytes ≤ x ∧ place.pages.Has ((x - place.offset.bytes) / page.bytes)
    then 1 else 0 := by
  rw [ByteRange.countHas (place.spansApart page)]
  simp only [place.spansHas page x]

theorem spansWithin (limit : Nat) : (∀ r ∈ place.spans page, r.stop ≤ limit) ↔
    ∀ index, place.pages.Has index → (place.pageAt page index).stop ≤ limit :=
  place.pages.spansWithin limit

theorem byteRangesOk {ranges : List ByteRange} :
    place.pages.byteRanges page.bytes place.offset.bytes = .ok ranges ↔
      (∀ r ∈ place.spans page, r.stop < wordLimit) ∧ ranges = place.spans page :=
  place.pages.byteRangesOk page.bytesPos

end Placement

theorem Pool.rangesOk {p : Pool} {page : PageSize} {place : Placement}
    (found : p.placement page = .ok place) (ranges : List ByteRange) :
    p.ranges page = .ok ranges ↔
      (∀ r ∈ place.spans page, r.stop < wordLimit) ∧ ranges = place.spans page := by
  unfold Pool.ranges
  rw [found, ← place.byteRangesOk page]
  exact Results.mapErrorOk

end HugePools
