import HugePools.Proofs.Emission

/-! The number of pages of a set. The count is capped once, at the end; the pages of a pool
that is sound are too few for the cap, since together they take no more than the pool. -/
namespace HugePools

namespace PageSet

def total (s : PageSet) : Nat := (s.runs.map Run.count).sum

structure Counted (s : PageSet) : Prop where
  distinct : s.indices.Nodup
  exact : s.count = s.indices.length
  uncapped : ∀ earlier r later, s.runs = earlier ++ r :: later →
    (earlier.map Run.count).sum + r.count < wordLimit

theorem foldCount (runs : List Run) (before : Nat) :
    runs.foldl (fun total r => saturate (total + saturate r.count)) (saturate before) =
      saturate (before + (runs.map Run.count).sum) := by
  induction runs generalizing before with
  | nil => rfl
  | cons r rest ih =>
    rw [List.foldl_cons, saturateAdd, ih, List.map_cons, List.sum_cons, Nat.add_assoc]

theorem countSaturates (s : PageSet) : s.count = saturate s.total := by
  have folded := foldCount s.runs 0
  rw [Nat.zero_add] at folded
  exact folded

theorem indicesLength (s : PageSet) : s.indices.length = s.total := by
  simp only [indices, total, List.length_flatMap, Run.lengthIndices]

theorem indicesAscending (s : PageSet) : s.indices.Pairwise (· < ·) := by
  refine List.pairwise_flatMap.mpr ⟨fun r _ => List.pairwise_lt_range', s.canonical.imp ?_⟩
  intro r t apart i first j second
  have upper := (r.memIndices i).mp first
  have lower := (t.memIndices j).mp second
  simp only [Run.Apart, Run.Has] at *
  omega

theorem counted {s : PageSet} (few : s.total < wordLimit) : s.Counted := by
  refine ⟨s.indicesAscending.imp Nat.ne_of_lt, ?_, fun earlier r later split => ?_⟩
  · rw [countSaturates, saturateOfLt few, indicesLength]
  · have whole : s.total = (earlier.map Run.count).sum +
        (r.count + (later.map Run.count).sum) := by
      unfold total
      rw [split, List.map_append, List.sum_append]
      rfl
    omega

theorem spansLength (s : PageSet) (pageSize offset : Nat) :
    ((s.spans pageSize offset).map ByteRange.length).sum = s.total * pageSize := by
  unfold spans total
  rw [List.map_map, ← List.sum_map_mul_right]
  exact congrArg List.sum (List.map_congr_left fun run _ => Run.spanLength run)

end PageSet

namespace Placement

variable (place : Placement) (page : PageSize)

theorem spansLength : ((place.spans page).map ByteRange.length).sum =
    place.pages.total * page.bytes := place.pages.spansLength page.bytes place.offset.bytes

theorem spansPages : ((place.spans page).map fun r => r.length / page.bytes).sum =
    place.pages.total := by
  have pages (run : Run) :
      (run.span page.bytes place.offset.bytes).length / page.bytes = run.count := by
    rw [Run.spanLength, Nat.mul_div_cancel _ page.bytesPos]
  unfold spans PageSet.total
  rw [List.map_map]
  exact congrArg List.sum (List.map_congr_left fun run _ => pages run)

end Placement

namespace Pool

variable {p : Pool}

theorem Sound.pagesWithin (sound : p.Sound) :
    p.large.pages.total * 2 ^ 21 + p.huge.pages.total * 2 ^ 30 ≤ p.size.bytes := by
  have within : ∀ r ∈ p.pageRows.map Interval.range, r.stop ≤ p.size.bytes := by
    intro r mem
    obtain ⟨i, row, rfl⟩ := List.mem_map.mp mem
    obtain ⟨page, place, found, _, span⟩ := pageRowsKind row
    exact sound.within found _ span
  have ranges : p.pageRows.map Interval.range = p.large.spans .large ++ p.huge.spans .huge := by
    unfold pageRows
    rw [List.map_append, List.map_map, List.map_map]
    exact congrArg₂ (· ++ ·) (List.map_id _) (List.map_id _)
  have bytes := ByteRange.lengthsWithin within (List.pairwise_map.mpr sound.pageRowsApart)
  rw [ranges, List.map_append, List.sum_append] at bytes
  have large := p.large.spansLength .large
  have huge := p.huge.spansLength .huge
  simp only [PageSize.bytes] at large huge
  omega

theorem Sound.pagesFew (sound : p.Sound) {page : PageSize} {place : Placement}
    (found : p.placement page = .ok place) : place.pages.total < 2 ^ 43 := by
  have within := sound.pagesWithin
  have bounded : p.size.bytes < 2 ^ 64 := p.size.bounded
  cases page with
  | base => cases found
  | large => cases found; omega
  | huge => cases found; omega

theorem Sound.counted (sound : p.Sound) {page : PageSize} {place : Placement}
    (found : p.placement page = .ok place) : place.pages.Counted :=
  PageSet.counted (Nat.lt_trans (sound.pagesFew found) (by decide))

end Pool
end HugePools
