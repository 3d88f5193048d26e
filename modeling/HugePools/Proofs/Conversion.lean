import HugePools.Proofs.Commands
import HugePools.Proofs.DirectoryWrites

/-! From the rows of a pool table to a legacy table and back. A layout that is accepted need
not be accepted again from its own table: where one offset of a pool is zero the first check
leaves their distance open, and the second one does not. -/
namespace HugePools

theorem ValidLayout.fitsOfStored {v : ValidLayout} {intervals : List Interval} {chars : List Char}
    (built : v.intervals = .ok intervals) (written : LegacyTable.chars intervals = .ok chars) :
    ∀ kind, (v.pool kind).size.bytes < 2 ^ 63 := by
  obtain ⟨table, stored, _⟩ := Results.mapOk.mp written
  exact fitsOfRows built stored

theorem Command.writtenChecked {rows : List PoolRow} {l : Layout} {v : ValidLayout}
    {intervals : List Interval} {chars : List Char} (built : (Layout.ofRows rows).result = .ok l)
    (valid : l.validate.result = .ok v) (emitted : v.intervals = .ok intervals)
    (written : LegacyTable.chars intervals = .ok chars) {σ : Type} [FileSystem σ] {later : World σ}
    {s : Request} (found : FileSystem.find later.files s.input = .ok (.file (Utf8.encode chars))) :
    (check s later).1 = .ok () ↔ l.brk.Reloads ∧ l.mmap.Reloads := by
  obtain rfl := Layout.validateOk valid
  have slotted := Layout.ofRowsSlotted built
  have fits := ValidLayout.fitsOfStored emitted written
  have brk := ValidLayout.reloadOk slotted fits emitted (.refl _) .brk
  have mmap := ValidLayout.reloadOk slotted fits emitted (.refl _) .mmap
  have read := LegacyTable.charsRead s.input written
  rw [← Table.ofFileFound found] at read
  rw [checkOk]
  constructor
  · intro passed
    obtain ⟨c, loaded⟩ := passed
    obtain ⟨first, second, low, high, _⟩ := (readLegacy read).mp loaded
    exact ⟨brk.mp ⟨first, low⟩, mmap.mp ⟨second, high⟩⟩
  · intro both
    obtain ⟨first, low⟩ := brk.mpr both.1
    obtain ⟨second, high⟩ := mmap.mpr both.2
    exact ⟨_, (readLegacy read).mpr ⟨first, second, low, high, rfl⟩⟩

/-- Where the table of a layout loads, and so where a check of a converted file passes. -/
theorem Layout.convertedLoads (rows : List PoolRow) :
    (∀ (l : Layout) (v : ValidLayout), (Layout.ofRows rows).result = .ok l →
      l.validate.result = .ok v → (∀ kind, (l.pool kind).size.bytes < 2 ^ 63) →
      ∃ intervals table chars, v.intervals = .ok intervals ∧
        LegacyTable.rows intervals = .ok table ∧ LegacyTable.chars intervals = .ok chars ∧
        (∀ source, (Table.ofBytes source (Utf8.encode chars)).result = .ok (.legacy table)) ∧
        ((∃ r, (LegacyRegion.ofRows .brk table).result = .ok r) ↔ l.brk.Reloads) ∧
        ((∃ r, (LegacyRegion.ofRows .mmap table).result = .ok r) ↔ l.mmap.Reloads) ∧
        ∃ r, (LegacyRegion.ofRows .file table).result = .ok r) ∧
    (∀ (σ : Type) [FileSystem σ] (w after : World σ) (settings : Settings) (r : Request),
      (Table.ofFile w.files r.input).result = .ok (.pools rows) →
      Command.convert settings r w = (.ok (), after) →
      ∃ l v intervals chars made, (Layout.ofRows rows).result = .ok l ∧
        l.validate.result = .ok v ∧ v.intervals = .ok intervals ∧
        LegacyTable.chars intervals = .ok chars ∧
        FileSystem.create w.files (r.output.getD settings.outputPath) = .ok made ∧
        FileSystem.append made (r.output.getD settings.outputPath) (Utf8.encode chars) =
          (.ok (), after.files) ∧
        ∀ (τ : Type) [FileSystem τ] (later : World τ) (s : Request),
          FileSystem.find later.files s.input = .ok (.file (Utf8.encode chars)) →
          ((Command.check s later).1 = .ok () ↔ l.brk.Reloads ∧ l.mmap.Reloads)) ∧
    ∀ (w after : World Directory) (settings : Settings) (r s : Request) (names : List String),
      (Table.ofFile w.files r.input).result = .ok (.pools rows) →
      Command.convert settings r w = (.ok (), after) →
      w.files.target (r.output.getD settings.outputPath) = .ok (.file names) →
      s.input = r.output.getD settings.outputPath →
      ∃ l, (Layout.ofRows rows).result = .ok l ∧
        ((Command.check s after).1 = .ok () ↔ l.brk.Reloads ∧ l.mmap.Reloads) := by
  refine ⟨fun l v built valid fits => ?_, fun σ _ w after settings r input converted => ?_,
    fun w after settings r s names input converted found same => ?_⟩
  · obtain rfl := validateOk valid
    have slotted := ofRowsSlotted built
    have emitted := v.intervalsOk
    have storable := ValidLayout.storable fits
    have written := LegacyTable.charsOk.mpr ⟨storable, rfl⟩
    exact ⟨_, _, _, emitted, LegacyTable.rowsOk.mpr ⟨storable, rfl⟩, written,
      fun source => LegacyTable.charsRead source written,
      ValidLayout.reloadOk slotted fits emitted (.refl _) .brk,
      ValidLayout.reloadOk slotted fits emitted (.refl _) .mmap,
      _, ValidLayout.reloadFile slotted fits emitted (.refl _)⟩
  · obtain ⟨l, v, intervals, chars, made, built, valid, emitted, written, created, filled⟩ :=
      Command.convertPools input converted
    exact ⟨l, v, intervals, chars, made, built, valid, emitted, written, created, filled,
      fun τ _ later s held => Command.writtenChecked built valid emitted written held⟩
  · obtain ⟨l, v, intervals, chars, made, built, valid, emitted, written, created, filled⟩ :=
      Command.convertPools input converted
    refine ⟨l, built, Command.writtenChecked built valid emitted written ?_⟩
    rw [same, Directory.putOfFilled found created filled]
    exact Directory.findPut found

def offsetDirectory : Directory := .ofFiles [
  ("old.csv", Schema.pools.bytes (offsetRows.map PoolRow.texts)),
  ("new.csv", [0x23]), ("kept.csv", [0x24])]

def offsetRequest : Request := ⟨.convert, "old.csv", some "new.csv", false, false, none, 0⟩

theorem offsetLoaded :
    (Table.ofFile offsetDirectory "old.csv").result = .ok (.pools offsetRows) ∧
      (Command.load offsetDirectory "old.csv").result = .ok (.pools offsetValid) := by
  have found : offsetDirectory.find "old.csv" =
    .ok (.file (Schema.pools.bytes (offsetRows.map PoolRow.texts))) := by rfl
  exact Command.loadedPools found (by decide) offsetBuilt offsetPassed

theorem offsetTarget :
    offsetDirectory.target "new.csv" = .ok (.file ["tmp", "layouts", "new.csv"]) := by
  rfl

theorem offsetConverted : (∃ intervals chars table, offsetValid.intervals = .ok intervals ∧
      LegacyTable.chars intervals = .ok chars ∧
      (∀ source, (Table.ofBytes source (Utf8.encode chars)).result = .ok (.legacy table)) ∧
      ∀ kind, ∃ r, (LegacyRegion.ofRows kind table).result = .ok r) ∧
    ∃ after, Command.convert {} offsetRequest { files := offsetDirectory } = (.ok (), after) ∧
      (Command.check ⟨.check, "new.csv", none, false, false, none, 0⟩ after).1 = .ok () := by
  obtain ⟨loads, _, checks⟩ := Layout.convertedLoads offsetRows
  obtain ⟨intervals, table, chars, emitted, _, written, read, brk, mmap, file⟩ :=
    loads offsetLayout offsetValid offsetBuilt offsetPassed offsetFits
  have low : offsetLayout.brk.Reloads := .inr (.inr (by decide))
  have high : offsetLayout.mmap.Reloads := .inr (.inr (by decide))
  refine ⟨⟨intervals, chars, table, emitted, written, read, fun kind => ?_⟩, ?_⟩
  · cases kind with
    | brk => exact brk.mpr low
    | mmap => exact mmap.mpr high
    | file => exact file
  · obtain ⟨created, filled⟩ := Directory.fileFilled offsetTarget
    obtain ⟨input, loaded⟩ := offsetLoaded
    let start : World Directory := { files := offsetDirectory }
    obtain ⟨after, converted, _⟩ : ∃ after, Command.convert {} offsetRequest start =
        (.ok (), after) ∧ _ := Command.convertStores loaded emitted written created filled
    obtain ⟨l, built, passes⟩ := checks start after {} offsetRequest
      ⟨.check, "new.csv", none, false, false, none, 0⟩ _ input converted offsetTarget rfl
    cases offsetBuilt.symm.trans built
    exact ⟨after, converted, passes.mpr ⟨low, high⟩⟩

def shiftedRows : List PoolRow := [
  ⟨"brk", "16GB", "1", "8192", "3", "0"⟩, ⟨"mmap", "0", "", "0", "", "0"⟩,
  ⟨"file", "0", "", "0", "", "0"⟩]

def shiftedLayout : Layout where
  brk := ⟨.brk, { bytes := 2 ^ 34 },
    ⟨⟨[⟨1, 1, by decide, by decide⟩], false, by decide⟩, { bytes := 2 ^ 13 }⟩,
    ⟨⟨[⟨3, 3, by decide, by decide⟩], false, by decide⟩, .zero⟩⟩
  mmap := .ofSize .mmap .zero
  file := .ofSize .file .zero

def shiftedValid : ValidLayout := ⟨shiftedLayout, by rfl, by rfl⟩

theorem shiftedRefused : (Layout.ofRows shiftedRows).result = .ok shiftedLayout ∧
    shiftedLayout.validate.result = .ok shiftedValid ∧
    (∀ kind, (shiftedLayout.pool kind).size.bytes < 2 ^ 63) ∧
    ∃ intervals chars table, shiftedValid.intervals = .ok intervals ∧
      LegacyTable.chars intervals = .ok chars ∧
      (∀ source, (Table.ofBytes source (Utf8.encode chars)).result = .ok (.legacy table)) ∧
      (LegacyRegion.ofRows .brk table).result =
        .error (.misalignedDelta .brk "1gb and 2mb" 3219120128 .large) := by
  have built : (Layout.ofRows shiftedRows).result = .ok shiftedLayout := by cbv
  have fits : ∀ kind, (shiftedLayout.pool kind).size.bytes < 2 ^ 63 := by
    intro kind
    cases kind <;> decide
  have slotted : shiftedValid.Slotted := Layout.ofRowsSlotted built
  have written := LegacyTable.charsOk.mpr ⟨shiftedValid.storable fits, rfl⟩
  refine ⟨built, rfl, fits, _, _, _, shiftedValid.intervalsOk, written,
    fun source => LegacyTable.charsRead source written, ?_⟩
  obtain ⟨r, held, read⟩ :=
    ValidLayout.reload slotted fits shiftedValid.intervalsOk (.refl _) .brk
  have heads : r.checkHeads (r.group .huge) (r.group .large) =
      .error (.misalignedDelta .brk "1gb and 2mb" 3219120128 .large) := by
    have large : (shiftedValid.described .brk).large.spans .large = [⟨2105344, 4202496⟩] := by
      decide
    have huge : (shiftedValid.described .brk).huge.spans .huge = [⟨3221225472, 4294967296⟩] := by
      decide
    have odd : isAligned (distance 3221225472 2105344) PageSize.large.bytes = false := by decide
    rw [held.group .large _ rfl, held.group .huge _ rfl, large, huge]
    change r.checkStep "1gb and 2mb" .large 2105344 3221225472 = _
    unfold LegacyRegion.checkStep
    rw [odd, held.pool]
    rfl
  rw [read, heads]
  rfl

end HugePools
