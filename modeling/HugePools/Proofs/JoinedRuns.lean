import HugePools.PageSet
import Mathlib

/-! Joining runs. The joined runs name the indices that the given ones name, and no other runs with
gaps between them do. -/
namespace HugePools

namespace Run

def Among (runs : List Run) (index : Nat) : Prop := ∃ r ∈ runs, r.Has index

theorem sameEnds {r s : Run} (first : r.first = s.first) (last : r.last = s.last) : r = s := by
  cases r
  cases s
  cases first
  cases last
  rfl

theorem amongNil {index : Nat} : ¬ Among [] index := by simp [Among]

theorem amongCons {r : Run} {rest : List Run} {index : Nat} :
    Among (r :: rest) index ↔ r.Has index ∨ Among rest index := by
  simp [Among]

theorem amongAppend {runs more : List Run} {index : Nat} :
    Among (runs ++ more) index ↔ Among runs index ∨ Among more index := by
  simp only [Among, List.mem_append, or_and_right, exists_or]

theorem amongPerm {runs others : List Run} (perm : runs.Perm others) (index : Nat) :
    Among runs index ↔ Among others index := by
  simp only [Among, perm.mem_iff]

theorem extendHas {r s : Run} (later : r.first ≤ s.first) (near : s.first ≤ r.last + 1)
    (index : Nat) : (r.extend s).Has index ↔ r.Has index ∨ s.Has index := by
  have ordered := r.ordered
  simp only [Has, extend]
  omega

theorem beforeTrans (r s t : Run) (first : r.before s = true) (second : s.before t = true) :
    r.before t = true := by
  simp only [before, Bool.or_eq_true, Bool.and_eq_true, decide_eq_true_eq] at *
  omega

theorem beforeTotal (r s : Run) : (r.before s || s.before r) = true := by
  simp only [before, Bool.or_eq_true, Bool.and_eq_true, decide_eq_true_eq]
  omega

theorem sortedFirsts (runs : List Run) :
    (runs.mergeSort before).Pairwise fun r s => r.first ≤ s.first := by
  refine (List.pairwise_mergeSort beforeTrans beforeTotal runs).imp fun order => ?_
  simp only [before, Bool.or_eq_true, Bool.and_eq_true, decide_eq_true_eq] at order
  omega

section Unique

variable {r s : Run} {rest more : List Run} {index : Nat}

theorem amongAfter (apart : (r :: rest).Pairwise Apart) (named : Among rest index) :
    r.last + 1 < index := by
  obtain ⟨t, mem, inside⟩ := named
  exact Nat.lt_of_lt_of_le ((List.pairwise_cons.mp apart).1 t mem) inside.1

theorem amongRest (apart : (r :: rest).Pairwise Apart) :
    Among rest index ↔ r.last < index ∧ Among (r :: rest) index := by
  rw [amongCons]
  constructor
  · intro named
    have after := amongAfter apart named
    exact ⟨by omega, .inr named⟩
  · intro given
    obtain ⟨after, own | named⟩ := given
    · exact absurd own.2 (Nat.not_le_of_lt after)
    · exact named

theorem firstLe (apart : (r :: rest).Pairwise Apart) (named : Among (r :: rest) index) :
    r.first ≤ index := by
  rcases amongCons.mp named with own | later
  · exact own.1
  · have after := amongAfter apart later
    have ordered := r.ordered
    omega

/-- The first gap of a list of runs is a gap of a list with the same first index and no other
indices. -/
theorem lastLe (apart : (r :: rest).Pairwise Apart) (same : s.first = r.first)
    (within : ∀ i, Among (s :: more) i → Among (r :: rest) i) : s.last ≤ r.last := by
  refine Nat.le_of_not_lt fun beyond => ?_
  have ordered := r.ordered
  have next : s.Has (r.last + 1) := ⟨by omega, beyond⟩
  rcases amongCons.mp (within _ (amongCons.mpr (.inl next))) with own | later
  · exact Nat.not_succ_le_self _ own.2
  · exact Nat.lt_irrefl _ (amongAfter apart later)

theorem headUnique (apart : (r :: rest).Pairwise Apart) (gaps : (s :: more).Pairwise Apart)
    (same : ∀ i, Among (r :: rest) i ↔ Among (s :: more) i) : r = s := by
  have starts (t : Run) (others : List Run) : Among (t :: others) t.first :=
    amongCons.mpr (.inl ⟨Nat.le_refl _, t.ordered⟩)
  have first : r.first = s.first := Nat.le_antisymm
    (firstLe apart ((same _).mpr (starts s more))) (firstLe gaps ((same _).mp (starts r rest)))
  have last : r.last = s.last := Nat.le_antisymm
    (lastLe gaps first fun i => (same i).mp) (lastLe apart first.symm fun i => (same i).mpr)
  exact sameEnds first last

end Unique

theorem apartUnique {runs others : List Run} (apart : runs.Pairwise Apart)
    (gaps : others.Pairwise Apart) (same : ∀ i, Among runs i ↔ Among others i) :
    runs = others := by
  induction runs generalizing others with
  | nil =>
    cases others with
    | nil => rfl
    | cons s more =>
      have named : Among (s :: more) s.first := amongCons.mpr (.inl ⟨Nat.le_refl _, s.ordered⟩)
      exact absurd ((same _).mpr named) amongNil
  | cons r rest ih =>
    cases others with
    | nil =>
      have named : Among (r :: rest) r.first := amongCons.mpr (.inl ⟨Nat.le_refl _, r.ordered⟩)
      exact absurd ((same _).mp named) amongNil
    | cons s more =>
      have head := headUnique apart gaps same
      subst head
      have tails (i : Nat) : Among rest i ↔ Among more i := by
        rw [amongRest apart, amongRest gaps, same]
      rw [ih (List.pairwise_cons.mp apart).2 (List.pairwise_cons.mp gaps).2 tails]

end Run

namespace PageSet

theorem joinFromHas {cur : Run} {rest : List Run}
    (sorted : (cur :: rest).Pairwise fun r s => r.first ≤ s.first) (index : Nat) :
    Run.Among (joinFrom cur rest) index ↔ Run.Among (cur :: rest) index := by
  -- By induction on the runs to come, with the run that is still open in view.
  induction rest generalizing cur with
  | nil => rfl
  | cons r rest ih =>
    obtain ⟨first, others⟩ := List.pairwise_cons.mp sorted
    obtain ⟨later, after⟩ := List.forall_mem_cons.mp first
    rw [joinFrom]
    split
    · rename_i near
      have extended : (cur.extend r :: rest).Pairwise fun r s => r.first ≤ s.first :=
        List.pairwise_cons.mpr ⟨after, (List.pairwise_cons.mp others).2⟩
      rw [ih extended, Run.amongCons, Run.extendHas later near, or_assoc, Run.amongCons,
        Run.amongCons]
    · rw [Run.amongCons, ih others]
      exact Run.amongCons.symm

theorem joinHas {runs : List Run} (sorted : runs.Pairwise fun r s => r.first ≤ s.first)
    (index : Nat) : Run.Among (join runs) index ↔ Run.Among runs index := by
  cases runs with
  | nil => rfl
  | cons r rest => exact joinFromHas sorted index

theorem ofRunsHas (runs : List Run) (index : Nat) :
    (ofRuns runs).Has index ↔ Run.Among runs index :=
  (joinHas (Run.sortedFirsts runs) index).trans
    (Run.amongPerm (List.mergeSort_perm runs Run.before) index)

theorem runsUnique {s t : PageSet} (same : ∀ index, s.Has index ↔ t.Has index) : s.runs = t.runs :=
  Run.apartUnique s.canonical t.canonical same

theorem ofRunsRuns (s : PageSet) : (ofRuns s.runs).runs = s.runs :=
  runsUnique fun index => ofRunsHas s.runs index

def plain (s : PageSet) : PageSet := { s with duplicates := false }

theorem plainRuns {s t : PageSet} (same : s.runs = t.runs) (clean : s.duplicates = false) :
    s = t.plain := by
  cases s
  cases t
  cases same
  cases clean
  rfl

theorem plainSelf {s : PageSet} : s.plain = s ↔ s.duplicates = false :=
  ⟨fun same => same ▸ rfl, fun clean => (plainRuns rfl clean).symm⟩

theorem sharesFromIff {reach : Nat} {rest : List Run} : sharesFrom reach rest = false ↔
    (∀ r ∈ rest, reach < r.first) ∧ rest.Pairwise fun r s => r.last < s.first := by
  induction rest generalizing reach with
  | nil => simp [sharesFrom]
  | cons r rest ih =>
    rw [sharesFrom, Bool.or_eq_false_iff, decide_eq_false_iff_not, Nat.not_le, ih,
      List.forall_mem_cons, List.pairwise_cons]
    simp only [Nat.max_lt, forall₂_and]
    exact ⟨fun ⟨own, ⟨ahead, first⟩, others⟩ => ⟨⟨own, ahead⟩, first, others⟩,
      fun ⟨⟨own, ahead⟩, first, others⟩ => ⟨own, ⟨ahead, first⟩, others⟩⟩

theorem sharesIff {runs : List Run} :
    shares runs = false ↔ runs.Pairwise fun r s => r.last < s.first := by
  cases runs with
  | nil => simp [shares]
  | cons r rest => rw [shares, sharesFromIff, List.pairwise_cons]

theorem ofRunsPlain (s : PageSet) : ofRuns s.runs = s.plain := by
  refine plainRuns s.ofRunsRuns ?_
  have sorted : s.runs.Pairwise fun r t => r.before t = true := by
    refine s.canonical.imp fun {r t} apart => ?_
    have ordered := r.ordered
    simp only [Run.Apart, Run.before, Bool.or_eq_true, decide_eq_true_eq] at *
    omega
  change shares (s.runs.mergeSort Run.before) = false
  rw [List.mergeSort_of_pairwise sorted]
  exact sharesIff.mpr (s.canonical.imp Nat.lt_of_succ_lt)

end PageSet
end HugePools
