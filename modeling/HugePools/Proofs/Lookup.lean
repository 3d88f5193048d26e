import HugePools.Proofs.ExpandedSets

/-! Looking up an index, listing the indices and counting them. The three agree on every set, and
the count falls short of the list only where a set holds every index that a word can state. -/
namespace HugePools

namespace Run

def whole : Run := ⟨0, wordLimit - 1, by decide, by decide⟩

section Split

variable {runs front above : List Run} {mid : Run} {index : Nat}

theorem amongFront (parts : runs = front ++ mid :: above) (apart : runs.Pairwise Apart)
    (below : index < mid.first) : Among runs index ↔ Among front index := by
  subst parts
  have later := (List.pairwise_append.mp apart).2.1
  rw [amongAppend]
  exact or_iff_left fun named => Nat.not_le_of_lt below (firstLe later named)

theorem amongAbove (parts : runs = front ++ mid :: above) (apart : runs.Pairwise Apart)
    (beyond : mid.last < index) : Among runs index ↔ Among above index := by
  subst parts
  have gaps := (List.pairwise_append.mp apart).2.2
  have ordered := mid.ordered
  rw [amongAppend, amongCons]
  constructor
  · intro named
    rcases named with ⟨r, mem, inside⟩ | own | later
    · have gap := gaps r mem mid List.mem_cons_self
      simp only [Apart, Has] at gap inside
      omega
    · exact absurd own.2 (Nat.not_le_of_lt beyond)
    · exact later
  · exact fun named => .inr (.inr named)

end Split
end Run

/-- Different numbers below a limit are no more than it, and as many only if they are all of
them. -/
theorem fillsLimit {list : List Nat} {limit : Nat} (distinct : list.Nodup)
    (below : ∀ i ∈ list, i < limit) :
    list.length ≤ limit ∧ (list.length = limit → ∀ i < limit, i ∈ list) := by
  have within : list.Subperm (List.range limit) :=
    distinct.subperm fun i mem => List.mem_range.mpr (below i mem)
  refine ⟨by simpa using within.length_le, fun full i small => ?_⟩
  have same := within.perm_of_length_le (by simp [full])
  exact same.mem_iff.mpr (List.mem_range.mpr small)

namespace PageSet

theorem searchFinds {index : Nat} {runs : List Run} (apart : runs.Pairwise Run.Apart) :
    search index runs = true ↔ Run.Among runs index := by
  have cut {mid : Run} {above runs : List Run} {n : Nat} (found : runs.drop n = mid :: above) :
      runs = runs.take n ++ mid :: above := found ▸ (List.take_append_drop n runs).symm
  fun_induction search index runs with
  | case1 runs none =>
    have short := List.drop_eq_nil_iff.mp none
    have empty : runs = [] := List.eq_nil_of_length_eq_zero (by omega)
    exact iff_of_false Bool.false_ne_true (empty ▸ Run.amongNil)
  | case2 runs mid above found below ih =>
    have front := ih (apart.sublist (List.take_sublist _ _))
    exact front.trans (Run.amongFront (cut found) apart below).symm
  | case3 runs mid above found _ beyond ih =>
    have rest : above.Sublist runs := by
      rw [cut found]
      exact (List.sublist_cons_self mid above).trans (List.sublist_append_right _ _)
    exact (ih (apart.sublist rest)).trans (Run.amongAbove (cut found) apart beyond).symm
  | case4 runs mid above found reached within =>
    have mem : mid ∈ runs := cut found ▸ List.mem_append_right _ List.mem_cons_self
    exact iff_of_true rfl ⟨mid, mem, Nat.le_of_not_lt reached, Nat.le_of_not_lt within⟩

variable (s : PageSet)

theorem memIndices (index : Nat) : index ∈ s.indices ↔ s.Has index := by
  simp only [indices, List.mem_flatMap, Run.memIndices, Has]

theorem containsListed (index : Nat) : s.contains index = true ↔ index ∈ s.indices :=
  (searchFinds s.canonical).trans (s.memIndices index).symm

theorem emptyListed : s.isEmpty = true ↔ s.indices = [] := by
  simp only [s.emptyNone, List.eq_nil_iff_forall_not_mem, memIndices]

theorem hasBelow {index : Nat} (held : s.Has index) : index < wordLimit := by
  obtain ⟨r, _, inside⟩ := held
  exact Nat.lt_of_le_of_lt inside.2 r.bounded

theorem indicesFill : s.indices.length ≤ wordLimit ∧
    (s.indices.length = wordLimit ↔ s.runs = [Run.whole]) := by
  have distinct : s.indices.Nodup := s.indicesAscending.imp Nat.ne_of_lt
  obtain ⟨few, full⟩ := fillsLimit distinct fun i mem => s.hasBelow ((s.memIndices i).mp mem)
  refine ⟨few, fun all => ?_, fun one => ?_⟩
  · refine Run.apartUnique s.canonical (List.pairwise_singleton _ _) fun index => ?_
    have small : Run.Among [Run.whole] index ↔ index < wordLimit := by
      simp only [Run.Among, List.mem_singleton, exists_eq_left, Run.Has, Run.whole, wordLimit]
      omega
    rw [small]
    exact ⟨s.hasBelow, fun below => (s.memIndices index).mp (full all index below)⟩
  · rw [indicesLength, total, one]
    rfl

theorem countListed : s.count = if s.runs = [Run.whole] then 2 ^ 64 - 1 else s.indices.length := by
  obtain ⟨few, full⟩ := s.indicesFill
  rw [countSaturates, ← indicesLength, saturate]
  split
  · rename_i whole
    rw [full.mpr whole]
    rfl
  · rename_i part
    have fewer := Nat.lt_of_le_of_ne few (full.not.mpr part)
    exact Nat.min_eq_left (Nat.le_pred_of_lt fewer)

/-- The binary search finds the indices that are listed; they are listed in ascending order; they
are as many as the count says, where a word can state it; and no set but the empty one lists
none. -/
theorem lookupExact : (∀ index, s.contains index = true ↔ index ∈ s.indices) ∧
    s.indices.Pairwise (· < ·) ∧
    (s.count = if s.runs = [Run.whole] then 2 ^ 64 - 1 else s.indices.length) ∧
    (s.runs = [Run.whole] ↔ s.indices.length = 2 ^ 64) ∧
    (s.isEmpty = true ↔ s.indices = []) :=
  ⟨s.containsListed, s.indicesAscending, s.countListed, s.indicesFill.2.symm, s.emptyListed⟩

end PageSet

end HugePools
