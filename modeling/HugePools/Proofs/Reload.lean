import HugePools.Proofs.Counting
import HugePools.Proofs.Emission
import HugePools.Proofs.IntervalRows
import HugePools.Proofs.RegionChecks

/-! Reading the rows of an accepted layout back, in any order. Every check of the reader
holds of them, but for the distance of the first huge range from the first large one. -/
namespace HugePools

namespace Pool

/-- Whether the starts of the two page sizes agree up to whole large pages, as far as the
pool has both. -/
def Reloads (p : Pool) : Prop :=
  p.large.pages.isEmpty = true ∨ p.huge.pages.isEmpty = true ∨
    2 ^ 21 ∣ Nat.dist p.huge.offset.bytes p.large.offset.bytes

structure Reloaded (p : Pool) (r : LegacyRegion) : Prop where
  pool : r.pool = p.kind
  size : r.size = p.size.bytes
  group : ∀ page place, p.placement page = .ok place →
    r.group page = (place.spans page).map (Interval.ofRange p.kind page)
  base : r.group .base = []
  rows : r.intervals.Perm p.pageRows
  sorted : r.intervals.Pairwise fun i j => i.start ≤ j.start
  ordered : r.intervals.Pairwise fun i j => i.stop ≤ j.start

variable {p : Pool} {r : LegacyRegion}

theorem pageRowsNonempty {i : Interval} (mem : i ∈ p.pageRows) : i.start < i.stop := by
  obtain ⟨page, place, _, _, span⟩ := pageRowsKind mem
  exact place.spansNonempty page _ span

theorem pageRowsMarkers : p.pageRows.filter Interval.isMarker = [] := by
  refine List.filter_eq_nil_iff.mpr fun i mem => ?_
  obtain ⟨page, place, _, kind, _⟩ := pageRowsKind mem
  simp [Interval.isMarker, kind]

theorem Sound.sortedRows (sound : p.Sound) {own : List Interval} (perm : own.Perm p.pageRows)
    (sorted : own.Pairwise fun i j => i.start ≤ j.start) :
    own.Pairwise fun i j => i.stop ≤ j.start := by
  have apart : own.Pairwise fun i j => i.range.Apart j.range :=
    (perm.pairwise_iff ByteRange.Apart.symm).mpr sound.pageRowsApart
  refine (apart.and sorted).imp_of_mem ?_
  intro i j _ mem both
  have some := pageRowsNonempty (perm.mem_iff.mp mem)
  obtain ⟨clear, order⟩ := both
  rcases clear with before | after
  · exact before
  · have later : j.stop ≤ i.start := after
    omega

theorem sortedUnique {xs ys : List Interval} (some : ∀ i ∈ ys, i.start < i.stop)
    (first : xs.Pairwise fun i j => i.stop ≤ j.start)
    (second : ys.Pairwise fun i j => i.stop ≤ j.start) (perm : xs.Perm ys) : xs = ys := by
  refine perm.eq_of_pairwise ?_ first second
  intro i j held mem before after
  have length := some i (perm.mem_iff.mp held)
  have also := some j mem
  omega

theorem Sound.reloaded (sound : p.Sound) {own : List Interval} (perm : own.Perm p.pageRows)
    (sorted : own.Pairwise fun i j => i.start ≤ j.start) :
    p.Reloaded ⟨p.kind, p.size.bytes, own⟩ := by
  have ordered := sound.sortedRows perm sorted
  refine ⟨rfl, rfl, ?_, ?_, perm, sorted, ordered⟩
  · intro page place found
    have same := pageRowsOf found
    refine sortedUnique ?_ (ordered.filter _) ?_ (same ▸ perm.filter _)
    · intro i mem
      obtain ⟨s, held, rfl⟩ := List.mem_map.mp mem
      exact place.spansNonempty page s held
    · exact List.pairwise_map.mpr ((place.spansBefore page).imp Nat.le_of_lt)
  · refine List.filter_eq_nil_iff.mpr fun i mem => ?_
    obtain ⟨page, place, found, kind, _⟩ := pageRowsKind (perm.mem_iff.mp mem)
    cases page with
    | base => cases found
    | large => simp [kind]
    | huge => simp [kind]

theorem spanStart {place : Placement} {page : PageSize} {s : ByteRange}
    (mem : s ∈ place.spans page) : s.start % page.bytes = place.offset.bytes % page.bytes := by
  obtain ⟨run, _, rfl⟩ := List.mem_map.mp mem
  exact Nat.mul_add_mod_self_right _ _ _

theorem Reloaded.checkGroup (held : p.Reloaded r) (sound : p.Sound) {page : PageSize}
    {place : Placement} (found : p.placement page = .ok place) (between : String) :
    r.checkGroup page between none (r.group page) = .ok () := by
  rw [held.group page place found]
  have shapes : ∀ i ∈ (place.spans page).map (Interval.ofRange p.kind page),
      r.checkShape page i = .ok () := by
    intro i mem
    obtain ⟨s, span, rfl⟩ := List.mem_map.mp mem
    obtain ⟨some, start, length, _⟩ := sound.shape found span
    exact LegacyRegion.checkShapeOk.mpr ⟨Nat.le_of_lt some, start, length⟩
  have steps : ∀ i ∈ (place.spans page).map (Interval.ofRange p.kind page),
      i.start % page.bytes = place.offset.bytes % page.bytes := by
    intro i mem
    obtain ⟨s, span, rfl⟩ := List.mem_map.mp mem
    exact spanStart span
  refine LegacyRegion.checkGroupOk.mpr ⟨shapes, ?_⟩
  exact LegacyRegion.sameStepAll.mpr fun i first j second =>
    (steps i first).trans (steps j second).symm

theorem Reloaded.check (held : p.Reloaded r) (sound : p.Sound) :
    r.check = r.checkHeads (r.group .huge) (r.group .large) := by
  have ends {page : PageSize} {place : Placement} (found : p.placement page = .ok place) :
      ∀ i ∈ r.group page, i.stop ≤ r.size := by
    rw [held.group page place found, held.size]
    intro i mem
    obtain ⟨s, span, rfl⟩ := List.mem_map.mp mem
    exact sound.within found s span
  have large : p.placement .large = .ok p.large := rfl
  have huge : p.placement .huge = .ok p.huge := rfl
  have bounded : r.checkEnds (r.group .huge) (r.group .large) = .ok () :=
    LegacyRegion.checkEndsOk.mpr fun k i j first second =>
      ⟨ends huge i (List.mem_of_getElem? first), ends large j (List.mem_of_getElem? second)⟩
  have clear : r.checkOverlaps r.intervals = .ok () :=
    (LegacyRegion.checkOverlapsOk held.sorted).mpr held.ordered
  unfold LegacyRegion.check
  rw [bounded, held.checkGroup sound large, held.checkGroup sound huge, clear]
  cases r.checkHeads (r.group .huge) (r.group .large) <;> rfl

theorem headsIff {large huge : ByteRange} (first : large ∈ p.large.spans .large)
    (second : huge ∈ p.huge.spans .huge) :
    huge.start % PageSize.large.bytes = large.start % PageSize.large.bytes ↔
      2 ^ 21 ∣ Nat.dist p.huge.offset.bytes p.large.offset.bytes := by
  have lower := spanStart first
  have upper := spanStart second
  rw [distDivides]
  simp only [PageSize.bytes] at *
  omega

theorem Reloaded.headsOk (held : p.Reloaded r) :
    r.checkHeads (r.group .huge) (r.group .large) = .ok () ↔ p.Reloads := by
  rw [held.group .large _ rfl, held.group .huge _ rfl]
  unfold Reloads
  rw [← p.large.spansNone .large, ← p.huge.spansNone .huge]
  cases first : p.large.spans .large with
  | nil => exact iff_of_true (LegacyRegion.checkHeadsNone _) (.inl rfl)
  | cons large more =>
    cases second : p.huge.spans .huge with
    | nil => exact iff_of_true rfl (.inr (.inl rfl))
    | cons huge others =>
      have lower : large ∈ p.large.spans .large := first ▸ List.mem_cons_self
      have upper : huge ∈ p.huge.spans .huge := second ▸ List.mem_cons_self
      simp only [reduceCtorEq, false_or]
      exact LegacyRegion.checkStepOk.trans (headsIff lower upper)

theorem Reloaded.headsError (held : p.Reloaded r) {fault : LayoutError}
    (failed : r.checkHeads (r.group .huge) (r.group .large) = .error fault) :
    ∃ large moreLarge huge moreHuge, p.large.spans .large = large :: moreLarge ∧
      p.huge.spans .huge = huge :: moreHuge ∧
      fault = .misalignedDelta p.kind "1gb and 2mb" (distance huge.start large.start) .large := by
  rw [held.group .large _ rfl, held.group .huge _ rfl] at failed
  cases first : p.large.spans .large with
  | nil =>
    rw [first, List.map_nil, LegacyRegion.checkHeadsNone] at failed
    cases failed
  | cons large more =>
    cases second : p.huge.spans .huge with
    | nil =>
      rw [second] at failed
      cases failed
    | cons huge others =>
      rw [first, second] at failed
      refine ⟨large, more, huge, others, rfl, rfl, ?_⟩
      change r.checkStep _ _ large.start huge.start = _ at failed
      unfold LegacyRegion.checkStep at failed
      split at failed
      · cases failed
      · cases failed
        rw [held.pool]

theorem Sound.reload (sound : p.Sound) {intervals : List Interval}
    (fits : ∀ i ∈ intervals, i.Storable)
    (own : intervals.filter (fun i => i.pool = p.kind) =
      Interval.marker p.kind p.size.bytes :: p.pageRows)
    {shuffled : List LegacyRow} (perm : shuffled.Perm (intervals.map Interval.record)) :
    ∃ r, p.Reloaded r ∧ LegacyRegion.ofRows? p.kind shuffled =
      (r.checkHeads (r.group .huge) (r.group .large)).map fun _ => r := by
  -- The marker may tie with the first page at zero; without it the order of the rows is fixed.
  obtain ⟨read, first, same⟩ :=
    Results.mapMPerm (perm.filter _) (LegacyTable.ownRowsRead fits p.kind)
  have order := LegacyRegion.sortedByStart read
  have all := (List.mergeSort_perm read fun i j => i.start ≤ j.start).trans (own ▸ same)
  have sorted : LegacyRegion.sorted p.kind shuffled =
      .ok (read.mergeSort fun i j => i.start ≤ j.start) := Results.mapOk.mpr ⟨read, first, rfl⟩
  generalize (read.mergeSort fun i j => decide (i.start ≤ j.start)) = kept at order all sorted
  have marker : kept.filter Interval.isMarker = [Interval.marker p.kind p.size.bytes] := by
    have one := all.filter Interval.isMarker
    rw [List.filter_cons_of_pos rfl, pageRowsMarkers] at one
    exact List.perm_singleton.mp one
  have stated : LegacyRegion.statedSize p.kind kept = .ok p.size.bytes := by
    unfold LegacyRegion.statedSize
    rw [marker]
    rfl
  have rows : (kept.filter fun i => !i.isMarker).Perm p.pageRows := by
    have others := all.filter fun i => !i.isMarker
    have clean : p.pageRows.filter (fun i => !i.isMarker) = p.pageRows := by
      refine List.filter_eq_self.mpr fun i mem => ?_
      have none := List.filter_eq_nil_iff.mp pageRowsMarkers i mem
      simpa using none
    rwa [List.filter_cons_of_neg (by simp [Interval.isMarker, Interval.marker]), clean] at others
  have held := sound.reloaded rows (order.filter _)
  exact ⟨_, held, by rw [LegacyRegion.ofRowsOk sorted stated, held.check sound]⟩

end Pool
end HugePools
