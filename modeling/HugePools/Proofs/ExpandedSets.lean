import HugePools.Proofs.CanonicalForm
import HugePools.Proofs.Counting

/-! Sets of pages expanded to ranges of bytes. One bound on the largest index decides whether there
is an expansion, and then the ranges are the pages of the set and no other bytes. -/
namespace HugePools

namespace PageSet

variable (s : PageSet) {pageSize offset : Nat}

def Fits (pageSize offset : Nat) : Prop :=
  s.isEmpty = true ∨ ∃ top, IsGreatest {index | s.Has index} top ∧
    (top + 1) * pageSize + offset ≤ 2 ^ 64 - 1

theorem emptyNone : s.isEmpty = true ↔ ∀ index, ¬ s.Has index := by
  constructor
  · intro none index held
    obtain ⟨r, mem, _⟩ := held
    rw [List.isEmpty_iff.mp none] at mem
    cases mem
  · intro none
    refine List.isEmpty_iff.mpr (List.eq_nil_iff_forall_not_mem.mpr fun r mem => ?_)
    exact none r.first ⟨r, mem, Nat.le_refl _, r.ordered⟩

theorem largest (some : s.isEmpty = false) : ∃ top, IsGreatest {index | s.Has index} top := by
  have bounded : BddAbove {index | s.Has index} :=
    ⟨wordLimit, fun index ⟨r, _, _, below⟩ => Nat.le_of_lt (Nat.lt_of_le_of_lt below r.bounded)⟩
  have held : {index | s.Has index}.Nonempty := by
    refine Set.nonempty_iff_ne_empty.mpr fun none => ?_
    refine Bool.false_ne_true (some.symm.trans (s.emptyNone.mpr fun index held => ?_))
    exact Set.eq_empty_iff_forall_notMem.mp none index held
  exact ⟨_, Nat.sSup_mem held bounded, fun _ mem => le_csSup bounded mem⟩

theorem fitsIff : s.Fits pageSize offset ↔
    ∀ index, s.Has index → (index + 1) * pageSize + offset ≤ 2 ^ 64 - 1 := by
  constructor
  · intro fits index held
    rcases fits with none | ⟨top, greatest, within⟩
    · exact absurd held (s.emptyNone.mp none index)
    · have below : (index + 1) * pageSize ≤ (top + 1) * pageSize :=
        Nat.mul_le_mul_right _ (Nat.succ_le_succ (greatest.2 held))
      omega
  · intro all
    cases none : s.isEmpty with
    | true => exact .inl none
    | false =>
      obtain ⟨top, greatest⟩ := s.largest none
      exact .inr ⟨top, greatest, all top greatest.1⟩

theorem spansGap {k : Nat} {r t : ByteRange} (first : (s.spans pageSize offset)[k]? = some r)
    (second : (s.spans pageSize offset)[k + 1]? = some t) : r.stop + pageSize ≤ t.start := by
  unfold spans at first second
  rw [List.getElem?_map] at first second
  obtain ⟨run, here, rfl⟩ := Option.map_eq_some_iff.mp first
  obtain ⟨next, there, rfl⟩ := Option.map_eq_some_iff.mp second
  have farther : (run.last + 2) * pageSize ≤ next.first * pageSize :=
    Nat.mul_le_mul_right _ (s.gaps here there)
  simp only [Run.span, Nat.add_mul] at *
  omega

theorem fewPages (positive : 0 < pageSize) (fits : s.Fits pageSize offset) :
    s.total * pageSize < wordLimit := by
  have within := (s.spansWithin _).mpr (s.fitsIff.mp fits)
  have before : (s.spans pageSize offset).Pairwise ByteRange.Before := s.spansBefore positive
  have bytes := ByteRange.lengthsWithin within (before.imp ByteRange.Before.apart)
  rw [s.spansLength] at bytes
  unfold wordLimit
  omega

/-- The expansion of a set, exactly: where there is one, what its ranges are and what they count. -/
theorem expandsExactly (pageSize offset : Nat) (positive : 0 < pageSize) :
    ((∃ ranges, s.byteRanges pageSize offset = .ok ranges) ↔ s.Fits pageSize offset) ∧
    (∀ fault, s.byteRanges pageSize offset = .error fault →
      ∃ index, fault = .addressOverflow index pageSize offset) ∧
    ∀ ranges, s.byteRanges pageSize offset = .ok ranges →
      ranges = s.runs.map (Run.span pageSize offset) ∧
      (∀ r ∈ ranges, r.start < r.stop) ∧
      (∀ k r t, ranges[k]? = some r → ranges[k + 1]? = some t → r.stop + pageSize ≤ t.start) ∧
      (∀ x, (∃ r ∈ ranges, r.Has x) ↔ offset ≤ x ∧ s.Has ((x - offset) / pageSize)) ∧
      (ranges.map ByteRange.length).sum = pageSize * s.count ∧
      pageSize * s.count < wordLimit ∧ s.Counted := by
  have bound : (∃ ranges, s.byteRanges pageSize offset = .ok ranges) ↔ s.Fits pageSize offset :=
    (s.byteRangesDone positive).trans s.fitsIff.symm
  refine ⟨bound, fun fault => s.byteRangesFails, fun ranges expanded => ?_⟩
  have few := s.fewPages positive (bound.mp ⟨ranges, expanded⟩)
  have counted := counted (Nat.lt_of_le_of_lt (Nat.le_mul_of_pos_right s.total positive) few)
  have number : s.count = s.total := counted.exact.trans s.indicesLength
  obtain ⟨_, rfl⟩ := (s.byteRangesOk positive).mp expanded
  refine ⟨rfl, s.spansNonempty positive, fun k r t => s.spansGap, s.spansHas positive, ?_, ?_,
    counted⟩
  · rw [s.spansLength, number, Nat.mul_comm]
  · rwa [number, Nat.mul_comm]

end PageSet

def farSet : PageSet where
  runs := [⟨11, 13, by decide, by decide⟩, ⟨15, 8796093022206, by decide, by decide⟩]
  duplicates := false
  canonical := by decide

theorem farExpanded :
    (∃ ranges, farSet.byteRanges 2097152 2097151 = .ok ranges ∧
      (ranges.map ByteRange.length).sum = 2097152 * 8796093022195) ∧
    ∃ index, farSet.byteRanges 2097152 2097152 = .error (.addressOverflow index 2097152 2097152) := by
  have top : IsGreatest {index | farSet.Has index} 8796093022206 := by
    refine ⟨⟨_, .tail _ (.head _), by decide⟩, fun index held => ?_⟩
    obtain ⟨r, mem, inside⟩ := held
    simp [farSet] at mem
    rcases mem with rfl | rfl <;> exact Nat.le_trans inside.2 (by decide)
  have some : farSet.isEmpty ≠ true := by decide
  have within : farSet.Fits 2097152 2097151 := .inr ⟨_, top, by decide⟩
  have beyond : ¬ farSet.Fits 2097152 2097152 := by
    rintro (none | ⟨other, greatest, fits⟩)
    · exact some none
    · cases greatest.unique top
      exact absurd fits (by decide)
  obtain ⟨expands, _, ranges⟩ := farSet.expandsExactly 2097152 2097151 (by decide)
  obtain ⟨refused, fails, _⟩ := farSet.expandsExactly 2097152 2097152 (by decide)
  obtain ⟨list, expanded⟩ := expands.mpr within
  obtain ⟨_, _, _, _, bytes, _⟩ := ranges list expanded
  refine ⟨⟨list, expanded, bytes.trans (by decide)⟩, ?_⟩
  cases other : farSet.byteRanges 2097152 2097152 with
  | error fault =>
    obtain ⟨index, same⟩ := fails fault other
    exact ⟨index, congrArg Except.error same⟩
  | ok more => exact absurd (refused.mp ⟨more, other⟩) beyond

end HugePools
