import HugePools.Proofs.Lookup
import HugePools.Proofs.Reservations

/-! Counts that stop at the largest word. They are capped wherever they are added up: run by run,
pool by pool, region by region, and with the bytes of a page. What comes out is the exact number
with one cap, so that neither the steps on the way nor their order show. -/
namespace HugePools

theorem saturateMin (n : Nat) : saturate n = min (2 ^ 64 - 1) n := Nat.min_comm n _

namespace PageSet

variable (s : PageSet)

/-- How many indices a set has, whether a word can state that or not. -/
noncomputable def number : Nat := {index | s.Has index}.ncard

theorem indicesNumber : s.indices.length = s.number := by
  have listed : {index | s.Has index} = (s.indices.toFinset : Set Nat) := by
    ext index
    simp [s.memIndices]
  have distinct : s.indices.Nodup := s.indicesAscending.imp Nat.ne_of_lt
  unfold number
  rw [listed, Set.ncard_coe_finset, List.toFinset_card_of_nodup distinct]

theorem countNumber : s.count = saturate s.number := by
  rw [countSaturates, ← indicesLength, indicesNumber]

end PageSet

theorem Layout.totalCapped (s t : PageSet) :
    saturate (s.count + t.count) = min (2 ^ 64 - 1) (s.number + t.number) := by
  rw [s.countNumber, t.countNumber, saturateAdd, saturateMin]

namespace Reservation

theorem ofRegionsPerm {regions others : List LegacyRegion} (perm : regions.Perm others) :
    ofRegions regions = ofRegions others := by
  rw [ofRegionsSaturate, ofRegionsSaturate]
  simp only [(perm.map _).sum_eq]

theorem totalSaturates (r : Reservation) :
    r.totalBytes = saturate (r.pages2MB * 2 ^ 21 + r.pages1GB * 2 ^ 30) := saturateAdd _ _

theorem padCountLe (n : Nat) : saturate n ≤ padCount n := by
  unfold padCount saturate
  split <;> omega

theorem paddedLe (r : Reservation) : r.totalBytes ≤ r.padded.totalBytes := by
  have large := padCountLe r.pages2MB
  have huge := padCountLe r.pages1GB
  rw [totalSaturates, totalSaturates]
  simp only [padded, saturate, wordLimit] at *
  omega

end Reservation

/-- What is counted is the exact number with one cap at the largest word: the indices of a set, the
pages of a layout, accepted or not, the pages of regions in any order, and the bytes of a
reservation. These do not shrink when spare pages are added. -/
theorem countsCappedOnce :
    (∀ s : PageSet, s.count = min (2 ^ 64 - 1) s.number) ∧
    (∀ l : Layout,
      l.total2MB = min (2 ^ 64 - 1) (l.brk.large.pages.number + l.mmap.large.pages.number) ∧
      l.total1GB = min (2 ^ 64 - 1) (l.brk.huge.pages.number + l.mmap.huge.pages.number)) ∧
    (∀ regions : List LegacyRegion,
      (Reservation.ofRegions regions).pages2MB =
        min (2 ^ 64 - 1) (regions.map fun r => r.pageCount .large).sum ∧
      (Reservation.ofRegions regions).pages1GB =
        min (2 ^ 64 - 1) (regions.map fun r => r.pageCount .huge).sum ∧
      ∀ others, regions.Perm others →
        Reservation.ofRegions others = Reservation.ofRegions regions) ∧
    ∀ r : Reservation,
      r.totalBytes = min (2 ^ 64 - 1) (r.pages2MB * 2 ^ 21 + r.pages1GB * 2 ^ 30) ∧
      r.totalBytes ≤ r.padded.totalBytes := by
  refine ⟨fun s => ?_, fun l => ?_, fun regions => ?_, fun r => ?_⟩
  · rw [s.countNumber, saturateMin]
  · exact ⟨Layout.totalCapped _ _, Layout.totalCapped _ _⟩
  · have capped := Reservation.ofRegionsSaturate regions
    rw [capped]
    exact ⟨saturateMin _, saturateMin _,
      fun others perm => (Reservation.ofRegionsPerm perm).symm.trans capped⟩
  · exact ⟨r.totalSaturates.trans (saturateMin _), r.paddedLe⟩

def everyPage : PageSet := ⟨[Run.whole], false, by decide⟩

def onePage : PageSet := ⟨[⟨37, 37, by decide, by decide⟩], false, by decide⟩

def everyPageLayout : Layout where
  brk := ⟨.brk, .zero, ⟨onePage, .zero⟩, .none⟩
  mmap := ⟨.mmap, .zero, ⟨everyPage, .zero⟩, .none⟩
  file := .ofSize .file .zero

def smallRegion : LegacyRegion := ⟨.brk, 4194304, [⟨.brk, .page .large, 0, 4194304⟩]⟩

theorem everyPageCapped : everyPage.number = 2 ^ 64 ∧ everyPage.count = 2 ^ 64 - 1 ∧
    everyPageLayout.total2MB = 2 ^ 64 - 1 ∧
    Reservation.ofRegions [⟨.mmap, 0, []⟩, smallRegion] =
      Reservation.ofRegions [smallRegion, ⟨.mmap, 0, []⟩] ∧
    (⟨2 ^ 43 - 1, 1⟩ : Reservation).totalBytes = 2 ^ 64 - 1 := by
  obtain ⟨sets, layouts, regions, bytes⟩ := countsCappedOnce
  have every : everyPage.number = 2 ^ 64 :=
    everyPage.indicesNumber.symm.trans everyPage.indicesLength
  have one : onePage.number = 1 := onePage.indicesNumber.symm
  refine ⟨every, ?_, ?_, (regions _).2.2 _ (.swap _ _ _), (bytes _).1⟩
  · rw [sets everyPage, every]
    rfl
  · have total := (layouts everyPageLayout).1
    change _ = min (2 ^ 64 - 1) (onePage.number + everyPage.number) at total
    rw [total, one, every]
    rfl

end HugePools
