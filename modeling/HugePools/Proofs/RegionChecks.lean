import HugePools.LegacyRegion
import HugePools.Proofs.Results

/-! The checks of a legacy region one by one, and the order in which its rows are kept. The checks
compare neighbours; here they speak of all members. -/
namespace HugePools

theorem distDivides {n a b : Nat} : n ∣ Nat.dist a b ↔ a % n = b % n := by
  rcases Nat.le_total a b with below | above
  · have apart : Nat.dist a b = b - a := Nat.dist_eq_sub_of_le below
    rw [apart, ← Nat.modEq_iff_dvd' below]
    exact Iff.rfl
  · have apart : Nat.dist a b = a - b := Nat.dist_eq_sub_of_le_right above
    rw [apart, ← Nat.modEq_iff_dvd' above]
    exact eq_comm

section

variable {α : Type} {le : α → α → Bool}

theorem cutUnique {a : α} {low high front back : List α} (same : low ++ high = front ++ back)
    (below : ∀ b ∈ low, (!le a b) = true) (above : ∀ b ∈ high, le a b = true)
    (first : ∀ b ∈ front, (!le a b) = true) (last : ∀ b ∈ back, le a b = true) :
    low = front ∧ high = back := by
  have cut {xs ys : List α} (under : ∀ b ∈ xs, (!le a b) = true) (upper : ∀ b ∈ ys, le a b = true) :
      (xs ++ ys).takeWhile (fun b => !le a b) = xs := by
    rw [List.takeWhile_append_of_pos under]
    cases ys with
    | nil => simp
    | cons y more => simp [upper y List.mem_cons_self]
  have start : low = front := by rw [← cut below above, same, cut first last]
  subst start
  exact ⟨rfl, List.append_cancel_left same⟩

/-- Sorting keeps the order of equal members, so it does not matter whether others are dropped
before or after it. -/
theorem filterMergeSort (trans : ∀ a b c, le a b = true → le b c = true → le a c = true)
    (total : ∀ a b, (le a b || le b a) = true) (keep : α → Bool) (xs : List α) :
    (xs.mergeSort le).filter keep = (xs.filter keep).mergeSort le := by
  induction xs with
  | nil => simp
  | cons a xs ih =>
    have split (ys : List α) : ∃ low high, (a :: ys).mergeSort le = low ++ a :: high ∧
        ys.mergeSort le = low ++ high ∧ (∀ b ∈ low, (!le a b) = true) ∧
        ∀ b ∈ high, le a b = true := by
      obtain ⟨low, high, whole, rest, below⟩ := List.mergeSort_cons trans total a ys
      have sorted := List.pairwise_mergeSort trans total (a :: ys)
      rw [whole] at sorted
      have above := (List.pairwise_cons.mp (List.pairwise_append.mp sorted).2.1).1
      exact ⟨low, high, whole, rest, below, above⟩
    obtain ⟨low, high, whole, rest, below, above⟩ := split xs
    rw [rest, List.filter_append] at ih
    rw [whole, List.filter_append]
    cases kept : keep a with
    | false =>
      have dropped : ¬ keep a = true := by simp [kept]
      rw [List.filter_cons_of_neg dropped, List.filter_cons_of_neg dropped, ih]
    | true =>
      obtain ⟨front, back, joined, others, first, last⟩ := split (xs.filter keep)
      rw [others] at ih
      obtain ⟨start, stop⟩ := cutUnique ih
        (fun b mem => below b (List.mem_of_mem_filter mem))
        (fun b mem => above b (List.mem_of_mem_filter mem)) first last
      rw [List.filter_cons_of_pos kept, List.filter_cons_of_pos kept, joined, start, stop]

end
namespace LegacyRegion

variable {r : LegacyRegion}

theorem pageCountSum (r : LegacyRegion) (page : PageSize) : r.pageCount page =
    ((r.group page).map fun i => i.range.length / page.bytes).sum := by
  unfold pageCount
  rw [List.sum_eq_foldl, List.foldl_map]

theorem ofRowsResult (pool : PoolKind) (rows : List LegacyRow) :
    (ofRows pool rows).result = ofRows? pool rows := by
  unfold ofRows
  split
  · rename_i fault bad
    exact bad.symm
  · rename_i region good
    exact good.symm

theorem checkEndOk {page : PageSize} {i : Interval} :
    r.checkEnd page i = .ok () ↔ i.stop ≤ r.size := by
  unfold checkEnd
  split
  · rename_i beyond
    exact iff_of_false (fun same => by cases same) (Nat.not_le_of_lt beyond)
  · rename_i within
    exact iff_of_true rfl (Nat.le_of_not_lt within)

theorem checkEndsOk {huge large : List Interval} : r.checkEnds huge large = .ok () ↔
    ∀ (k : Nat) (i j : Interval), huge[k]? = some i → large[k]? = some j →
      i.stop ≤ r.size ∧ j.stop ≤ r.size := by
  induction huge generalizing large with
  | nil => exact iff_of_true rfl fun k i j none => by simp at none
  | cons i more ih =>
    cases large with
    | nil => exact iff_of_true rfl fun k i j _ none => by simp at none
    | cons j others =>
      unfold checkEnds
      rw [Results.thenOk, Results.thenOk, checkEndOk, checkEndOk, ih]
      constructor
      · intro all k a b first second
        cases k with
        | zero =>
          cases first
          cases second
          exact ⟨all.1, all.2.1⟩
        | succ k => exact all.2.2 k a b (by simpa using first) (by simpa using second)
      · intro all
        obtain ⟨first, second⟩ := all 0 i j rfl rfl
        exact ⟨first, second, fun k a b held also => all (k + 1) a b (by simpa) (by simpa)⟩

theorem checkShapeOk {page : PageSize} {i : Interval} : r.checkShape page i = .ok () ↔
    i.start ≤ i.stop ∧ 4096 ∣ i.start ∧ page.bytes ∣ i.stop - i.start := by
  have start : isAligned i.start PageSize.base.bytes = true ↔ 4096 ∣ i.start :=
    PageSize.base.alignedIff
  rw [← start, ← page.alignedIff]
  unfold checkShape
  split
  · rename_i negative
    simp [Nat.not_le_of_lt negative]
  · rename_i order
    split
    · rename_i aligned
      simp [Nat.le_of_not_lt order, aligned]
    · rename_i other
      simp only [reduceCtorEq, false_iff]
      exact fun all => other all.2

theorem checkStepOk {between : String} {alignment : PageSize} {base other : Nat} :
    r.checkStep between alignment base other = .ok () ↔
      other % alignment.bytes = base % alignment.bytes := by
  have multiple : isAligned (distance other base) alignment.bytes = true ↔
      other % alignment.bytes = base % alignment.bytes :=
    alignment.alignedIff.trans distDivides
  rw [← multiple]
  unfold checkStep
  split
  · rename_i aligned
    simp [aligned]
  · rename_i other
    simp [other]

def SameStep (page : PageSize) (i j : Interval) : Prop :=
  i.start % page.bytes = j.start % page.bytes

instance (page : PageSize) : Trans (SameStep page) (SameStep page) (SameStep page) :=
  ⟨fun first second => first.trans second⟩

instance (page : PageSize) : Std.Symm (SameStep page) := ⟨fun _ _ same => same.symm⟩

theorem sameStepAll {page : PageSize} {group : List Interval} :
    group.Pairwise (SameStep page) ↔ ∀ i ∈ group, ∀ j ∈ group, SameStep page i j :=
  ⟨fun steps _ first _ second =>
      steps.forall_of_forall (fun i _ => (rfl : SameStep page i i)) first second,
    fun all => List.pairwise_of_forall_mem_list all⟩

theorem checkGroupOk {page : PageSize} {between : String} {previous : Option Interval}
    {group : List Interval} : r.checkGroup page between previous group = .ok () ↔
      (∀ i ∈ group, r.checkShape page i = .ok ()) ∧
        (previous.toList ++ group).Pairwise (SameStep page) := by
  rw [← List.isChain_iff_pairwise]
  -- By induction on the group, with the one before it as the head of the chain.
  induction group generalizing previous with
  | nil => cases previous <;> simp [checkGroup]
  | cons i rest ih =>
    unfold checkGroup
    rw [Results.thenOk, List.forall_mem_cons]
    cases previous with
    | none =>
      change _ ∧ r.checkGroup page between (some i) rest = _ ↔ _
      rw [ih]
      exact and_assoc.symm
    | some p =>
      change _ ∧ (r.checkStep between page p.start i.start >>= _) = _ ↔
        _ ∧ (p :: i :: rest).IsChain (SameStep page)
      rw [Results.thenOk, checkStepOk, ih, List.isChain_cons_cons]
      constructor
      · intro all
        obtain ⟨shape, step, others, chain⟩ := all
        exact ⟨⟨shape, others⟩, step.symm, chain⟩
      · intro all
        obtain ⟨⟨shape, others⟩, step, chain⟩ := all
        exact ⟨shape, step.symm, others, chain⟩

theorem checkHeadsNone (huge : List Interval) : r.checkHeads huge [] = .ok () := by
  cases huge <;> rfl

theorem checkHeadsOk {huge large : List Interval} (hugeSteps : huge.Pairwise (SameStep .huge))
    (largeSteps : large.Pairwise (SameStep .large)) : r.checkHeads huge large = .ok () ↔
      ∀ i ∈ large, ∀ j ∈ huge, SameStep .large i j := by
  cases large with
  | nil => exact iff_of_true (checkHeadsNone huge) (List.forall_mem_nil _)
  | cons first moreLarge =>
    cases huge with
    | nil => exact iff_of_true rfl fun i _ => List.forall_mem_nil _
    | cons second moreHuge =>
      unfold checkHeads
      rw [checkStepOk]
      constructor
      · intro heads i low j high
        have lower : SameStep .large i first :=
          sameStepAll.mp largeSteps i low first List.mem_cons_self
        have upper : SameStep .huge second j :=
          sameStepAll.mp hugeSteps second List.mem_cons_self j high
        have whole : PageSize.large.bytes ∣ PageSize.huge.bytes := ⟨512, rfl⟩
        have finer : SameStep .large second j := Nat.ModEq.of_dvd whole upper
        exact lower.trans (heads.symm.trans finer)
      · intro all
        exact (all first List.mem_cons_self second List.mem_cons_self).symm

theorem checkOverlapsOk {intervals : List Interval}
    (sorted : intervals.Pairwise fun i j => i.start ≤ j.start) :
    r.checkOverlaps intervals = .ok () ↔ intervals.Pairwise fun i j => i.stop ≤ j.start := by
  induction intervals with
  | nil => exact iff_of_true rfl .nil
  | cons i rest ih =>
    obtain ⟨first, others⟩ := List.pairwise_cons.mp sorted
    cases rest with
    | nil => exact iff_of_true rfl (List.pairwise_singleton _ _)
    | cons j more =>
      have later := (List.pairwise_cons.mp others).1
      have next : (∀ k ∈ j :: more, i.stop ≤ k.start) ↔ i.stop ≤ j.start := by
        rw [List.forall_mem_cons]
        exact and_iff_left_of_imp fun before k mem => Nat.le_trans before (later k mem)
      rw [List.pairwise_cons, next, ← ih others]
      rw [checkOverlaps]
      split
      · rename_i overlap
        exact iff_of_false (fun same => by cases same) fun both => Nat.not_le_of_lt overlap both.1
      · rename_i clear
        exact (and_iff_right (Nat.le_of_not_lt clear)).symm

theorem startTrans (i j k : Interval) (first : decide (i.start ≤ j.start) = true)
    (second : decide (j.start ≤ k.start) = true) : decide (i.start ≤ k.start) = true := by
  simp only [decide_eq_true_eq] at *
  exact Nat.le_trans first second

theorem startTotal (i j : Interval) :
    (decide (i.start ≤ j.start) || decide (j.start ≤ i.start)) = true := by
  simp only [Bool.or_eq_true, decide_eq_true_eq]
  exact Nat.le_total i.start j.start

theorem sortedByStart (intervals : List Interval) :
    (intervals.mergeSort fun i j => i.start ≤ j.start).Pairwise
      fun i j => i.start ≤ j.start :=
  (List.pairwise_mergeSort startTrans startTotal intervals).imp of_decide_eq_true

theorem ofRowsOk {pool : PoolKind} {rows : List LegacyRow} {own : List Interval} {size : Nat}
    (read : sorted pool rows = .ok own) (stated : statedSize pool own = .ok size) :
    ofRows? pool rows =
      (check ⟨pool, size, own.filter fun i => !i.isMarker⟩).map
        fun _ => ⟨pool, size, own.filter fun i => !i.isMarker⟩ := by
  unfold ofRows?
  rw [read]
  change (statedSize pool own >>= _) = _
  rw [stated]
  change (check _ >>= _) = _
  cases check ⟨pool, size, own.filter fun i => !i.isMarker⟩ <;> rfl

end LegacyRegion
end HugePools
