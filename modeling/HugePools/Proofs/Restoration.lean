import HugePools.Proofs.Reload

/-! The table of an accepted layout gives its pools back, whatever the order of its rows. -/
namespace HugePools

namespace Pool

structure Restored (p : Pool) (r : LegacyRegion) : Prop where
  pool : r.pool = p.kind
  size : r.size = p.size.bytes
  large : p.ranges .large = .ok (r.ranges .large)
  huge : p.ranges .huge = .ok (r.ranges .huge)
  base : r.ranges .base = []
  largeCount : p.pageCount .large = .ok (r.pageCount .large)
  hugeCount : p.pageCount .huge = .ok (r.pageCount .huge)

variable {p : Pool} {r : LegacyRegion}

theorem Reloaded.ranges (held : p.Reloaded r) {page : PageSize} {place : Placement}
    (found : p.placement page = .ok place) : r.ranges page = place.spans page := by
  unfold LegacyRegion.ranges
  rw [held.group page place found, List.map_map]
  exact List.map_id _

theorem Reloaded.pageCount (held : p.Reloaded r) {page : PageSize} {place : Placement}
    (found : p.placement page = .ok place) : r.pageCount page = place.pages.total := by
  rw [r.pageCountSum, held.group page place found, List.map_map]
  exact place.spansPages page

theorem Sound.countTotal (sound : p.Sound) {page : PageSize} {place : Placement}
    (found : p.placement page = .ok place) : place.pages.count = place.pages.total :=
  (sound.counted found).exact.trans place.pages.indicesLength

theorem Reloaded.restored (held : p.Reloaded r) (sound : p.Sound) : p.Restored r := by
  have ranges {page : PageSize} {place : Placement} (found : p.placement page = .ok place) :
      p.ranges page = .ok (r.ranges page) := by
    rw [held.ranges found, sound.rangesOk found]
  have counts {page : PageSize} {place : Placement} (found : p.placement page = .ok place) :
      p.pageCount page = .ok (r.pageCount page) := by
    unfold Pool.pageCount
    rw [held.pageCount found, found, ← sound.countTotal found]
    rfl
  refine ⟨held.pool, held.size, ranges rfl, ranges rfl, ?_, counts rfl, counts rfl⟩
  unfold LegacyRegion.ranges
  rw [held.base]
  rfl

theorem Sound.storable (sound : p.Sound) (small : p.size.bytes < 2 ^ 63) {i : Interval}
    (mem : i ∈ p.pageRows) : i.Storable := by
  obtain ⟨page, place, found, _, span⟩ := pageRowsKind mem
  have within : i.stop ≤ p.size.bytes := sound.within found _ span
  have some := pageRowsNonempty mem
  exact ⟨by omega, by omega⟩

theorem ofSizeSound (kind : PoolKind) (size : Size) : (ofSize kind size).Sound := by
  have none (index : Nat) : ¬ (ofSize kind size).large.pages.Has index := fun ⟨_, mem, _⟩ => by
    contradiction
  refine ⟨fun i held => absurd held (none i), fun i held => absurd held (none i), ?_, ?_, ?_, ?_⟩
  · exact Nat.dvd_zero _
  · exact Nat.dvd_zero _
  · intro positive
    contradiction
  · exact fun i _ _ held => absurd held (none i)

end Pool

/-- A pool as the table describes it: of the file pool the size alone. -/
def Layout.described (l : Layout) : PoolKind → Pool
  | .brk => l.brk
  | .mmap => l.mmap
  | .file => .ofSize .file l.file.size

namespace ValidLayout

variable {v : ValidLayout}

theorem describedSound (kind : PoolKind) : (v.described kind).Sound := by
  cases kind with
  | brk => exact v.brkSound
  | mmap => exact v.mmapSound
  | file => exact Pool.ofSizeSound _ _

theorem describedKind (slotted : v.Slotted) (kind : PoolKind) :
    (v.described kind).kind = kind := by
  cases kind with
  | brk => exact slotted .brk
  | mmap => exact slotted .mmap
  | file => rfl

theorem describedRows (slotted : v.Slotted) (kind : PoolKind) :
    (LegacyTable.markers v.toLayout ++ v.brk.pageRows ++ v.mmap.pageRows).filter
        (fun i => i.pool = (v.described kind).kind) =
      Interval.marker (v.described kind).kind (v.described kind).size.bytes ::
        (v.described kind).pageRows := by
  have brk : v.brk.kind = .brk := slotted .brk
  have mmap : v.mmap.kind = .mmap := slotted .mmap
  obtain ⟨first, second⟩ := ownRows slotted
  have pages : (v.brk.pageRows ++ v.mmap.pageRows).filter
      (fun i => i.pool = (v.described kind).kind) = (v.described kind).pageRows := by
    cases kind with
    | brk => exact first
    | mmap => exact second
    | file =>
      refine List.filter_eq_nil_iff.mpr fun i mem => ?_
      rcases List.mem_append.mp mem with held | held
      · simp [Pool.pageRowsPool held, brk, describedKind slotted]
      · simp [Pool.pageRowsPool held, mmap, describedKind slotted]
  have sizes : (LegacyTable.markers v.toLayout).filter
      (fun i => i.pool = (v.described kind).kind) =
        [Interval.marker (v.described kind).kind (v.described kind).size.bytes] := by
    rw [describedKind slotted]
    cases kind <;> rfl
  rw [List.append_assoc, List.filter_append, pages, sizes]
  rfl

theorem storable (fits : ∀ kind, (v.pool kind).size.bytes < 2 ^ 63) :
    ∀ i ∈ LegacyTable.markers v.toLayout ++ v.brk.pageRows ++ v.mmap.pageRows, i.Storable := by
  intro i mem
  rcases List.mem_append.mp mem with front | mmap
  · rcases List.mem_append.mp front with marker | brk
    · obtain ⟨kind, _, rfl⟩ := List.mem_map.mp marker
      exact ⟨Nat.two_pow_pos 63, fits kind⟩
    · exact v.brkSound.storable (fits .brk) brk
  · exact v.mmapSound.storable (fits .mmap) mmap

theorem fitsOfRows {intervals : List Interval} {table : List LegacyRow}
    (built : v.intervals = .ok intervals) (stored : LegacyTable.rows intervals = .ok table) :
    ∀ kind, (v.pool kind).size.bytes < 2 ^ 63 := by
  rw [v.intervalsOk] at built
  cases built
  intro kind
  have marker : Interval.marker kind (v.pool kind).size.bytes ∈
      LegacyTable.markers v.toLayout ++ v.brk.pageRows ++ v.mmap.pageRows :=
    List.mem_append_left _ (List.mem_append_left _ (List.mem_map.mpr ⟨kind, kind.memAll, rfl⟩))
  exact ((LegacyTable.rowsOk.mp stored).1 _ marker).2

section

variable {intervals : List Interval} {shuffled : List LegacyRow} (slotted : v.Slotted)
  (fits : ∀ kind, (v.pool kind).size.bytes < 2 ^ 63) (built : v.intervals = .ok intervals)
  (perm : shuffled.Perm (intervals.map Interval.record))

include slotted fits built perm

theorem reload (kind : PoolKind) : ∃ r, (v.described kind).Reloaded r ∧
    (LegacyRegion.ofRows kind shuffled).result =
      (r.checkHeads (r.group .huge) (r.group .large)).map fun _ => r := by
  rw [v.intervalsOk] at built
  cases built
  obtain ⟨r, held, read⟩ :=
    (describedSound kind).reload (storable fits) (describedRows slotted kind) perm
  rw [describedKind slotted] at read
  exact ⟨r, held, (LegacyRegion.ofRowsResult kind shuffled).trans read⟩

theorem reloadOk (kind : PoolKind) :
    (∃ r, (LegacyRegion.ofRows kind shuffled).result = .ok r) ↔ (v.described kind).Reloads := by
  obtain ⟨r, held, read⟩ := reload slotted fits built perm kind
  rw [read, ← held.headsOk]
  constructor
  · intro loaded
    obtain ⟨_, ok⟩ := loaded
    obtain ⟨_, passed, _⟩ := Results.mapOk.mp ok
    exact passed
  · intro passed
    exact ⟨r, Results.mapOk.mpr ⟨(), passed, rfl⟩⟩

theorem reloadError {kind : PoolKind} {fault : LayoutError}
    (failed : (LegacyRegion.ofRows kind shuffled).result = .error fault) :
    ∃ large moreLarge huge moreHuge,
      (v.described kind).ranges .large = .ok (large :: moreLarge) ∧
      (v.described kind).ranges .huge = .ok (huge :: moreHuge) ∧
      fault = .misalignedDelta kind "1gb and 2mb" (distance huge.start large.start) .large := by
  have sound := v.describedSound kind
  obtain ⟨r, held, read⟩ := reload slotted fits built perm kind
  rw [read] at failed
  obtain ⟨large, moreLarge, huge, moreHuge, first, second, rfl⟩ :=
    held.headsError (Results.mapFails.mp failed)
  refine ⟨large, moreLarge, huge, moreHuge, ?_, ?_, by rw [describedKind slotted]⟩
  · rw [← first]
    exact sound.rangesOk rfl
  · rw [← second]
    exact sound.rangesOk rfl

theorem reloadRestored {kind : PoolKind} {r : LegacyRegion}
    (loaded : (LegacyRegion.ofRows kind shuffled).result = .ok r) :
    (v.described kind).Restored r := by
  obtain ⟨s, held, read⟩ := reload slotted fits built perm kind
  rw [read] at loaded
  obtain ⟨_, _, rfl⟩ := Results.mapOk.mp loaded
  exact held.restored (v.describedSound kind)

theorem reloadFile :
    (LegacyRegion.ofRows .file shuffled).result = .ok ⟨.file, v.file.size.bytes, []⟩ := by
  obtain ⟨r, held, read⟩ := reload slotted fits built perm .file
  have none : r.intervals = [] := List.perm_nil.mp held.rows
  have passed : r.checkHeads (r.group .huge) (r.group .large) = .ok () :=
    held.headsOk.mpr (.inl rfl)
  have same : r = ⟨.file, v.file.size.bytes, []⟩ := by
    cases r
    cases held.pool
    cases held.size
    cases none
    rfl
  rw [read, passed, same]
  rfl

end

end ValidLayout

/-- Of the rows of an accepted layout in any order, the pages of a pool come back as they
were expanded, and the one check that can fail compares the first ranges of its two sizes. -/
theorem Layout.reloadExact {rows : List PoolRow} {l : Layout} {v : ValidLayout}
    (built : (Layout.ofRows rows).result = .ok l) (valid : l.validate.result = .ok v)
    (fits : ∀ kind, (l.pool kind).size.bytes < 2 ^ 63) :
    ∃ intervals table, v.intervals = .ok intervals ∧ LegacyTable.rows intervals = .ok table ∧
      ∀ shuffled : List LegacyRow, shuffled.Perm table →
        (∀ kind, kind ≠ .file →
          ((∃ r, (LegacyRegion.ofRows kind shuffled).result = .ok r) ↔
            (l.pool kind).Reloads) ∧
          (∀ fault, (LegacyRegion.ofRows kind shuffled).result = .error fault →
            ∃ large moreLarge huge moreHuge,
              (l.pool kind).ranges .large = .ok (large :: moreLarge) ∧
              (l.pool kind).ranges .huge = .ok (huge :: moreHuge) ∧
              fault = .misalignedDelta kind "1gb and 2mb" (Nat.dist huge.start large.start)
                .large) ∧
          ∀ r, (LegacyRegion.ofRows kind shuffled).result = .ok r → (l.pool kind).Restored r) ∧
        (LegacyRegion.ofRows .file shuffled).result = .ok ⟨.file, l.file.size.bytes, []⟩ := by
  obtain rfl := validateOk valid
  have slotted := ofRowsSlotted built
  have emitted := v.intervalsOk
  refine ⟨_, _, emitted, LegacyTable.rowsOk.mpr ⟨ValidLayout.storable fits, rfl⟩, ?_⟩
  intro shuffled perm
  refine ⟨fun kind other => ?_, ValidLayout.reloadFile slotted fits emitted perm⟩
  have own : v.described kind = v.pool kind := by
    cases kind with
    | brk => rfl
    | mmap => rfl
    | file => exact absurd rfl other
  rw [← own]
  exact ⟨ValidLayout.reloadOk slotted fits emitted perm kind,
    fun _ failed => ValidLayout.reloadError slotted fits emitted perm failed,
    fun _ loaded => ValidLayout.reloadRestored slotted fits emitted perm loaded⟩

theorem offsetRestored : ∃ intervals table, offsetValid.intervals = .ok intervals ∧
    LegacyTable.rows intervals = .ok table ∧ ∀ shuffled : List LegacyRow, shuffled.Perm table →
      ∃ r, (LegacyRegion.ofRows .brk shuffled).result = .ok r ∧ offsetLayout.brk.Restored r := by
  obtain ⟨intervals, table, emitted, stored, all⟩ :=
    Layout.reloadExact offsetBuilt offsetPassed offsetFits
  refine ⟨intervals, table, emitted, stored, fun shuffled perm => ?_⟩
  obtain ⟨pages, _⟩ := all shuffled perm
  obtain ⟨verdict, _, restored⟩ := pages .brk (by decide)
  obtain ⟨r, loaded⟩ := verdict.mpr (.inr (.inr (by decide)))
  exact ⟨r, loaded, restored r loaded⟩

end HugePools
