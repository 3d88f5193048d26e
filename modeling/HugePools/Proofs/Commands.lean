import HugePools.Command
import HugePools.Proofs.LegacyText
import HugePools.Proofs.Restoration

/-! What the commands do once their input is read: which files they load, and what a
conversion writes. -/
namespace HugePools

/-- Whether a file can be made at a path, and takes the bytes. -/
def FileSystem.Takes {σ : Type} [FileSystem σ] (files : σ) (path : String) (bytes : List UInt8) :
    Prop := ∃ made, create files path = .ok made ∧ (append made path bytes).1 = .ok ()

variable {σ : Type} [FileSystem σ] {files : σ} {w after : World σ} {path : String}

theorem FileSystem.openedOk {bytes : List UInt8} :
    opened files path = .ok (.ok bytes) ↔ find files path = .ok (.file bytes) := by
  unfold opened
  cases find files path with
  | error cause => simp [Except.map]
  | ok entry => cases entry <;> simp [Except.map]

theorem FileSystem.readOk {bytes : List UInt8} :
    read files path = .ok bytes ↔ find files path = .ok (.file bytes) := by
  rw [← openedOk]
  unfold read
  cases opened files path <;> simp [bind, Except.bind]

theorem Table.ofFileFound {bytes : List UInt8}
    (found : FileSystem.find files path = .ok (.file bytes)) :
    Table.ofFile files path = Table.ofBytes path bytes := by
  unfold Table.ofFile
  rw [FileSystem.openedOk.mpr found]

theorem Table.ofFileOk {table : Table} : (Table.ofFile files path).result = .ok table ↔
    ∃ bytes, FileSystem.find files path = .ok (.file bytes) ∧
      (Table.ofBytes path bytes).result = .ok table := by
  constructor
  · intro read
    unfold Table.ofFile at read
    split at read
    · cases read
    · cases read
    · rename_i bytes opened
      exact ⟨bytes, FileSystem.openedOk.mp opened, read⟩
  · intro given
    obtain ⟨bytes, found, read⟩ := given
    rwa [Table.ofFileFound found]

theorem Job.createOk : Job.create path w = (.ok (), after) ↔
    ∃ made, FileSystem.create w.files path = .ok made ∧ after = { w with files := made } := by
  unfold Job.create
  cases FileSystem.create w.files path <;> simp [eq_comm]

theorem Job.appendOk {bytes : List UInt8} : Job.append path bytes w = (.ok (), after) ↔
    ∃ files, FileSystem.append w.files path bytes = (.ok (), files) ∧
      after = { w with files } := by
  unfold Job.append
  rcases FileSystem.append w.files path bytes with ⟨_ | _, _⟩ <;> simp [eq_comm]

theorem ValidLayout.writeOk {v : ValidLayout} : v.write path w = (.ok (), after) ↔
    ∃ intervals chars made files, v.intervals = .ok intervals ∧
      LegacyTable.chars intervals = .ok chars ∧ FileSystem.create w.files path = .ok made ∧
      FileSystem.append made path (Utf8.encode chars) = (.ok (), files) ∧
      after = World.reported { w with files } [.written intervals.length path] := by
  unfold write
  constructor
  · intro done
    obtain ⟨intervals, _, first, converted⟩ := Job.bindOk.mp done
    obtain ⟨emitted, rfl⟩ := Job.ofExceptOk.mp first
    obtain ⟨chars, _, second, stored⟩ := Job.bindOk.mp converted
    obtain ⟨written, rfl⟩ := Job.ofExceptOk.mp second
    obtain ⟨_, _, third, ready⟩ := Job.bindOk.mp stored
    obtain ⟨made, created, rfl⟩ := Job.createOk.mp (Job.mapFaultOk.mp third)
    obtain ⟨_, _, fourth, told⟩ := Job.bindOk.mp ready
    obtain ⟨files, filled, rfl⟩ := Job.appendOk.mp (Job.mapFaultOk.mp fourth)
    cases told
    exact ⟨intervals, chars, made, files, emitted, written, created, filled, rfl⟩
  · intro all
    obtain ⟨intervals, chars, made, files, emitted, written, created, filled, rfl⟩ := all
    refine Job.bindOk.mpr ⟨intervals, w, Job.ofExceptOk.mpr ⟨emitted, rfl⟩, ?_⟩
    refine Job.bindOk.mpr ⟨chars, w, Job.ofExceptOk.mpr ⟨written, rfl⟩, ?_⟩
    refine Job.bindOk.mpr ⟨(), _, Job.mapFaultOk.mpr (Job.createOk.mpr ⟨made, created, rfl⟩), ?_⟩
    refine Job.bindOk.mpr ⟨(), _, Job.mapFaultOk.mpr (Job.appendOk.mpr ⟨files, filled, rfl⟩), ?_⟩
    rfl

namespace Command

theorem loadOk {c : Checked} :
    (load files path).result = .ok c ↔ (readTable files path).result = .ok c := by
  unfold load
  rw [Journal.bindOk]
  constructor
  · intro loaded
    obtain ⟨d, read, more⟩ := loaded
    obtain ⟨_, _, last⟩ := Journal.bindOk.mp more
    cases Journal.pureOk.mp last
    exact Journal.mapFaultOk.mp read
  · intro read
    refine ⟨c, Journal.mapFaultOk.mpr read, ?_⟩
    exact Journal.bindOk.mpr ⟨(), rfl, rfl⟩

theorem readPools {rows : List PoolRow} {c : Checked}
    (input : (Table.ofFile files path).result = .ok (.pools rows)) :
    (readTable files path).result = .ok c ↔ ∃ l v, (Layout.ofRows rows).result = .ok l ∧
      l.validate.result = .ok v ∧ c = .pools v := by
  unfold readTable
  rw [Journal.bindOk]
  constructor
  · intro read
    obtain ⟨table, found, more⟩ := read
    cases input.symm.trans found
    obtain ⟨l, built, more⟩ := Journal.bindOk.mp more
    obtain ⟨v, valid, last⟩ := Journal.bindOk.mp more
    exact ⟨l, v, built, valid, (Journal.pureOk.mp last).symm⟩
  · intro accepted
    obtain ⟨l, v, built, valid, rfl⟩ := accepted
    refine ⟨.pools rows, input, Journal.bindOk.mpr ⟨l, built, ?_⟩⟩
    exact Journal.bindOk.mpr ⟨v, valid, rfl⟩

theorem readLegacy {rows : List LegacyRow} {c : Checked}
    (input : (Table.ofFile files path).result = .ok (.legacy rows)) :
    (readTable files path).result = .ok c ↔
      ∃ brk mmap, (LegacyRegion.ofRows .brk rows).result = .ok brk ∧
        (LegacyRegion.ofRows .mmap rows).result = .ok mmap ∧ c = .legacy brk mmap := by
  unfold readTable
  rw [Journal.bindOk]
  constructor
  · intro read
    obtain ⟨table, found, more⟩ := read
    cases input.symm.trans found
    obtain ⟨brk, first, more⟩ := Journal.bindOk.mp more
    obtain ⟨mmap, second, last⟩ := Journal.bindOk.mp more
    exact ⟨brk, mmap, first, second, (Journal.pureOk.mp last).symm⟩
  · intro loaded
    obtain ⟨brk, mmap, first, second, rfl⟩ := loaded
    refine ⟨.legacy rows, input, Journal.bindOk.mpr ⟨brk, first, ?_⟩⟩
    exact Journal.bindOk.mpr ⟨mmap, second, rfl⟩

theorem loadedPools {rows : List PoolRow} {l : Layout} {v : ValidLayout}
    (found : FileSystem.find files path =
      .ok (.file (Schema.pools.bytes (rows.map PoolRow.texts))))
    (bare : ∀ row ∈ rows, ∀ s ∈ row.texts, Text.Bare s)
    (built : (Layout.ofRows rows).result = .ok l) (valid : l.validate.result = .ok v) :
    (Table.ofFile files path).result = .ok (.pools rows) ∧
      (load files path).result = .ok (.pools v) := by
  have input : (Table.ofFile files path).result = .ok (.pools rows) := by
    rw [Table.ofFileFound found]
    exact Table.poolsRead path bare
  exact ⟨input, loadOk.mpr ((readPools input).mpr ⟨l, v, built, valid, rfl⟩)⟩

theorem checkOk {r : Request} : (check r w).1 = .ok () ↔
    ∃ c, (readTable w.files r.input).result = .ok c := by
  unfold check
  rw [Job.readsSucceeds]
  constructor
  · intro passed
    obtain ⟨c, loaded, _⟩ := passed
    exact ⟨c, loadOk.mp loaded⟩
  · intro read
    obtain ⟨c, ok⟩ := read
    exact ⟨c, loadOk.mpr ok, rfl⟩

theorem convertTablePools {settings : Settings} {r : Request} {v : ValidLayout} {place : String} :
    convertTable settings r (.pools v) w = (.ok place, after) ↔
      place = r.output.getD settings.outputPath ∧
        v.write place (w.reported [.summarized v.summary]) = (.ok (), after) := by
  constructor
  · intro converted
    obtain ⟨_, _, first, more⟩ := Job.bindOk.mp converted
    cases first
    obtain ⟨_, _, saved, last⟩ := Job.bindOk.mp more
    cases last
    exact ⟨rfl, Job.mapFaultOk.mp saved⟩
  · intro given
    obtain ⟨rfl, saved⟩ := given
    refine Job.bindOk.mpr ⟨(), _, rfl, ?_⟩
    exact Job.bindOk.mpr ⟨(), after, Job.mapFaultOk.mpr saved, rfl⟩

theorem convertPools {settings : Settings} {r : Request} {rows : List PoolRow}
    (input : (Table.ofFile w.files r.input).result = .ok (.pools rows))
    (converted : convert settings r w = (.ok (), after)) :
    ∃ l v intervals chars made, (Layout.ofRows rows).result = .ok l ∧ l.validate.result = .ok v ∧
      v.intervals = .ok intervals ∧ LegacyTable.chars intervals = .ok chars ∧
      FileSystem.create w.files (r.output.getD settings.outputPath) = .ok made ∧
      FileSystem.append made (r.output.getD settings.outputPath) (Utf8.encode chars) =
        (.ok (), after.files) := by
  obtain ⟨c, _, first, more⟩ := Job.bindOk.mp converted
  obtain ⟨loaded, rfl⟩ := Job.readsOk.mp first
  obtain ⟨l, v, built, valid, rfl⟩ := (readPools input).mp (loadOk.mp loaded)
  obtain ⟨place, _, table, last⟩ := Job.bindOk.mp more
  obtain ⟨rfl, saved⟩ := convertTablePools.mp table
  obtain ⟨intervals, chars, made, files, emitted, written, created, filled, rfl⟩ :=
    ValidLayout.writeOk.mp saved
  cases last
  exact ⟨l, v, intervals, chars, made, built, valid, emitted, written, created, filled⟩

def announced (settings : Settings) (r : Request) (c : Checked) : Reservation :=
  if settings.padReservation ∧ r.exact = false then c.reservation.padded else c.reservation

def announcement (settings : Settings) (r : Request) (c : Checked) (path : String) : List String :=
  [environmentLine settings.environmentName path,
    s!"hugepages-2MB={(announced settings r c).pages2MB}",
    s!"hugepages-1GB={(announced settings r c).pages1GB}"]

theorem convertDone {settings : Settings} {r : Request} {c : Checked} {place : String}
    (loaded : (load w.files r.input).result = .ok c)
    (table : convertTable settings r c (w.reported (load w.files r.input).events) =
      (.ok place, after)) : convert settings r w =
        (.ok (), { after with printed := after.printed ++ announcement settings r c place }) := by
  unfold convert
  rw [Job.andThenOk (Job.readsOk.mpr ⟨loaded, rfl⟩), Job.andThenOk table]
  rfl

theorem convertStores {settings : Settings} {r : Request} {v : ValidLayout}
    {intervals : List Interval} {chars : List Char} {made filled : σ}
    (loaded : (load w.files r.input).result = .ok (.pools v))
    (emitted : v.intervals = .ok intervals) (written : LegacyTable.chars intervals = .ok chars)
    (created : FileSystem.create w.files (r.output.getD settings.outputPath) = .ok made)
    (stored : FileSystem.append made (r.output.getD settings.outputPath) (Utf8.encode chars) =
      (.ok (), filled)) :
    ∃ after, convert settings r w = (.ok (), after) ∧ after.files = filled ∧ after.printed =
      w.printed ++ announcement settings r (.pools v) (r.output.getD settings.outputPath) :=
  ⟨_, convertDone loaded (convertTablePools.mpr ⟨rfl, ValidLayout.writeOk.mpr
    ⟨intervals, chars, made, filled, emitted, written, created, stored, rfl⟩⟩), rfl, rfl⟩

end Command
end HugePools
