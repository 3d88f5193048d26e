import HugePools.Proofs.CanonicalForm

/-! The note of repeated indices. It says of a source whether two of its places share an index,
however the runs at these places were joined with others. -/
namespace HugePools

namespace Run

def Meets (r s : Run) : Prop := ∃ index, r.Has index ∧ s.Has index

theorem Meets.symm {r s : Run} (meets : r.Meets s) : s.Meets r :=
  meets.imp fun _ => And.symm

theorem meetsIff {r s : Run} (order : r.first ≤ s.first) : r.Meets s ↔ s.first ≤ r.last := by
  constructor
  · intro meets
    obtain ⟨index, own, other⟩ := meets
    exact Nat.le_trans other.1 own.2
  · intro reached
    exact ⟨s.first, ⟨order, reached⟩, Nat.le_refl _, s.ordered⟩

end Run

namespace PageSource

def Repeats (source : PageSource) : Prop :=
  ∃ i j r t, i ≠ j ∧ source.At i r ∧ source.At j t ∧ ∃ index, r.Has index ∧ t.Has index

end PageSource

namespace PageSet

/-- Joining and the note in one pass. Each run is compared with the run still open, and with no
other. -/
def sweep (cur : Run) (noted : Bool) : List Run → List Run × Bool
  | [] => ([cur], noted)
  | r :: rest =>
    if r.first ≤ cur.last then sweep (cur.extend r) true rest
    else if r.first = cur.last + 1 then sweep (cur.extend r) noted rest
    else
      let (runs, repeated) := sweep r noted rest
      (cur :: runs, repeated)

def swept (runs : List Run) : List Run × Bool :=
  match runs.mergeSort Run.before with
  | [] => ([], false)
  | r :: rest => sweep r false rest

theorem sweepFrom (cur : Run) (noted : Bool) (rest : List Run) :
    sweep cur noted rest = (joinFrom cur rest, noted || sharesFrom cur.last rest) := by
  induction rest generalizing cur noted with
  | nil => simp [sweep, joinFrom, sharesFrom]
  | cons r rest ih =>
    have ordered := r.ordered
    rw [sweep, joinFrom, sharesFrom]
    by_cases shared : r.first ≤ cur.last
    · have near : r.first ≤ cur.last + 1 := Nat.le_succ_of_le shared
      rw [if_pos shared, if_pos near, ih]
      simp [shared]
    · rw [if_neg shared]
      by_cases next : r.first = cur.last + 1
      · rw [if_pos next, if_pos (Nat.le_of_eq next), ih]
        simp [shared, Run.extend]
      · have gap : ¬ r.first ≤ cur.last + 1 := by omega
        have further : max cur.last r.last = r.last := by omega
        rw [if_neg next, if_neg gap, ih]
        simp [shared, further]

theorem ofRunsSwept (runs : List Run) : ((ofRuns runs).runs, (ofRuns runs).duplicates) = swept runs := by
  unfold ofRuns swept join shares
  dsimp only
  cases runs.mergeSort Run.before with
  | nil => rfl
  | cons r rest => simp [sweepFrom]

theorem ofRunsRepeats (runs : List Run) :
    (ofRuns runs).duplicates = false ↔ runs.Pairwise fun r s => ¬ r.Meets s := by
  have firsts := Run.sortedFirsts runs
  have sorted := List.mergeSort_perm runs Run.before
  rw [← List.Perm.pairwise_iff (fun apart meets => apart meets.symm) sorted]
  refine sharesIff.trans ⟨fun apart => ?_, fun apart => ?_⟩
  · refine (firsts.and apart).imp fun both => ?_
    exact (Run.meetsIff both.1).not.mpr (Nat.not_le_of_lt both.2)
  · refine (firsts.and apart).imp fun both => ?_
    exact Nat.lt_of_not_le ((Run.meetsIff both.1).not.mp both.2)

theorem meetsPlaces {runs : List Run} : ¬ runs.Pairwise (fun r s : Run => ¬ r.Meets s) ↔
    ∃ (i j : Nat) (r t : Run), i ≠ j ∧ runs[i]? = some r ∧ runs[j]? = some t ∧ r.Meets t := by
  rw [List.pairwise_iff_getElem]
  push Not
  constructor
  · intro given
    obtain ⟨i, j, low, high, before, meets⟩ := given
    exact ⟨i, j, _, _, Nat.ne_of_lt before, List.getElem?_eq_getElem low,
      List.getElem?_eq_getElem high, meets⟩
  · intro given
    obtain ⟨i, j, r, t, apart, first, second, meets⟩ := given
    obtain ⟨low, rfl⟩ := List.getElem?_eq_some_iff.mp first
    obtain ⟨high, rfl⟩ := List.getElem?_eq_some_iff.mp second
    rcases Nat.lt_or_gt_of_ne apart with before | after
    · exact ⟨i, j, low, high, before, meets⟩
    · exact ⟨j, i, high, low, after, meets.symm⟩

theorem sourceRepeats {source : PageSource} {s : PageSet} (built : source.set = .ok s) :
    s.duplicates = true ↔ source.Repeats := by
  obtain ⟨runs, rfl, placed⟩ := PageSource.runsAt built
  simp only [PageSource.Repeats, placed]
  rw [← Bool.not_eq_false, ofRunsRepeats, meetsPlaces]
  rfl

/-- One pass over the sorted runs joins them and notes repeats, and it notes one exactly if two
places of the source share an index. -/
theorem repeatsExact : (∀ runs, ((ofRuns runs).runs, (ofRuns runs).duplicates) = swept runs) ∧
    ∀ (source : PageSource) (s : PageSet), source.set = .ok s →
      (s.duplicates = true ↔ ∃ i j r t, i ≠ j ∧ source.At i r ∧ source.At j t ∧
        ∃ index, r.Has index ∧ t.Has index) :=
  ⟨ofRunsSwept, fun _ _ => sourceRepeats⟩

end PageSet

def covering : PageSource := .tokens ["0-99", "12", "100-199", "201"]

def coveringSet : PageSet where
  runs := [⟨0, 199, by decide, by decide⟩, ⟨201, 201, by decide, by decide⟩]
  duplicates := true
  canonical := by decide

def touching : PageSource :=
  .tokens ["7", "9", "8", "18446744073709551615", "18446744073709551614"]

def repeating : PageSource := .text "[ 31-33,30 , 035-36,32]"

theorem coveringNoted :
    (covering.set = .ok coveringSet ∧ coveringSet.duplicates = true) ∧
    (∃ s, touching.set = .ok s ∧ s.runs.length = 2 ∧ ¬ ∃ i j r t, i ≠ j ∧ touching.At i r ∧
      touching.At j t ∧ ∃ index, r.Has index ∧ t.Has index) ∧
    ∃ s, repeating.set = .ok s ∧ s.duplicates = true ∧ repeating.Repeats := by
  have covered : covering.set = .ok coveringSet := by cbv
  have touched : touching.set = .ok ⟨[⟨7, 9, by decide, by decide⟩,
    ⟨2 ^ 64 - 2, 2 ^ 64 - 1, by decide, by decide⟩], false, by decide⟩ := by cbv
  have outer : covering.At 0 ⟨0, 99, by decide, by decide⟩ :=
    ⟨"0-99", rfl, Run.parseToken.mp (by rfl)⟩
  have inner : covering.At 1 ⟨12, 12, by decide, by decide⟩ :=
    ⟨"12", rfl, Run.parseToken.mp (by rfl)⟩
  have body : PageSet.interior (Text.trim "[ 31-33,30 , 035-36,32]".toList) =
      "31-33,30 , 035-36,32".toList := by rfl
  have repeated : repeating.set = .ok ⟨[⟨30, 33, by decide, by decide⟩,
      ⟨35, 36, by decide, by decide⟩], true, by decide⟩ := by
    change PageSet.parse "[ 31-33,30 , 035-36,32]" = _
    unfold PageSet.parse
    rw [body]
    cbv
  have both := PageSet.repeatsExact.2 covering _ covered
  have none := PageSet.repeatsExact.2 touching _ touched
  have again := PageSet.repeatsExact.2 repeating _ repeated
  refine ⟨⟨covered, both.mpr ⟨0, 1, _, _, by decide, outer, inner, 12, ?_⟩⟩, ⟨_, touched, rfl, ?_⟩,
    _, repeated, rfl, again.mp rfl⟩
  · exact ⟨⟨by decide, by decide⟩, by decide, by decide⟩
  · exact none.not.mp (by decide)

end HugePools
