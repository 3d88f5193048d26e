import HugePools.Proofs.DirectoryWrites
import HugePools.Proofs.OversizedPools

/-! What a conversion prints and which files it leaves. It does the whole of its work or none of it:
whatever can be refused is looked at before the file of the table is made. -/
namespace HugePools

def Checked.Storable : Checked → Prop
  | .pools v => ∀ kind, (v.pool kind).size.bytes < 2 ^ 63
  | .legacy _ _ => True

section

variable {σ : Type} [FileSystem σ] (files : σ)

/-- The settings that a command goes by: those of the file it is given, or else the standard ones. -/
inductive Settings.Chosen : Option String → Settings → Prop where
  | standard : Chosen none ⟨"legacy_config.csv", "HPC_CONFIGURATION_FILE", true⟩
  | given {path bytes s settings} (found : FileSystem.find files path = .ok (.file bytes))
      (text : Utf8.decode bytes = .ok s) (read : Settings.ofChars s = .ok settings) :
      Chosen (some path) settings

/-- What the table at a path is accepted as: a layout that is valid, or two regions that load. -/
inductive Checked.Accepted (path : String) : Checked → Prop where
  | pools {bytes rows l v} (found : FileSystem.find files path = .ok (.file bytes))
      (read : (Table.ofBytes path bytes).result = .ok (.pools rows))
      (built : (Layout.ofRows rows).result = .ok l) (valid : l.validate.result = .ok v) :
      Accepted path (.pools v)
  | legacy {bytes rows brk mmap} (found : FileSystem.find files path = .ok (.file bytes))
      (read : (Table.ofBytes path bytes).result = .ok (.legacy rows))
      (low : (LegacyRegion.ofRows .brk rows).result = .ok brk)
      (high : (LegacyRegion.ofRows .mmap rows).result = .ok mmap) : Accepted path (.legacy brk mmap)

end

namespace Job

variable {σ ε δ α β : Type} {job : Job σ ε α} {w : World σ}

/-- Whether a job fails and leaves nothing behind but reports. -/
def Silent (job : Job σ ε α) (w : World σ) : Prop :=
  ∃ fault events, job w = (.error fault, w.reported events)

theorem silentStop (silent : job.Silent w) (next : α → Job σ ε β) : (job >>= next).Silent w := by
  obtain ⟨fault, events, ran⟩ := silent
  exact ⟨fault, events, andThenError ran next⟩

theorem silentNext {a : α} {events : List Event} {next : α → Job σ ε β}
    (done : job w = (.ok a, w.reported events)) (silent : (next a).Silent (w.reported events)) :
    (job >>= next).Silent w := by
  obtain ⟨fault, more, ran⟩ := silent
  refine ⟨fault, events ++ more, ?_⟩
  rw [andThenOk done, ran]
  unfold World.reported
  rw [List.append_assoc]

theorem silentMapFault {change : ε → δ} (silent : job.Silent w) : (job.mapFault change).Silent w := by
  obtain ⟨fault, events, ran⟩ := silent
  refine ⟨change fault, events, ?_⟩
  unfold mapFault
  rw [ran]
  rfl

theorem silentHalt {fault : ε} (halted : job w = (.error fault, w)) : job.Silent w := by
  refine ⟨fault, [], ?_⟩
  rw [halted, World.reportedNothing]

theorem silentReads {look : σ → Journal ε α} {fault : ε}
    (bad : (look w.files).result = .error fault) : (reads look).Silent w :=
  ⟨fault, _, congrArg (·, w.reported (look w.files).events) bad⟩

end Job

namespace Command

structure Outcome.Refused (o : Outcome Directory) (d : Directory) : Prop where
  status : o.status = 1
  silent : o.stdout = ""
  untouched : o.files = d

structure Outcome.Converted (o : Outcome Directory) (d : Directory) (settings : Settings)
    (r : Request) (c : Checked) : Prop where
  status : o.status = 0
  pools : ∀ v, c = .pools v → ∃ intervals bytes, v.intervals = .ok intervals ∧
    LegacyTable.write intervals [] = (.ok (), bytes) ∧
    o.stdout = lines (announcement settings r c (r.output.getD settings.outputPath)) ∧
    o.files.Stored d (r.output.getD settings.outputPath) bytes
  legacy : ∀ brk mmap, c = .legacy brk mmap →
    o.stdout = lines (announcement settings r c r.input) ∧ o.files = d

section

variable {σ : Type} [FileSystem σ] {files : σ} {w after : World σ} {arguments : List String}
  {settings : Settings} {r : Request} {c : Checked} {path : String}

theorem settingsOk : Settings.ofFile files path = .ok settings ↔
    ∃ bytes s, FileSystem.find files path = .ok (.file bytes) ∧ Utf8.decode bytes = .ok s ∧
      Settings.ofChars s = .ok settings := by
  unfold Settings.ofFile
  simp only [← FileSystem.readOk]
  cases FileSystem.read files path with
  | error cause => simp
  | ok bytes => cases text : Utf8.decode bytes <;> simp [text]

theorem chosenOk {config : Option String} :
    (loadSettings files config).result = .ok settings ↔ settings.Chosen files config := by
  cases config with
  | none =>
    constructor
    · intro loaded
      cases Journal.pureOk.mp loaded
      exact .standard
    · intro chosen
      cases chosen
      rfl
  | some path =>
    constructor
    · intro loaded
      obtain ⟨own, read, more⟩ := Journal.bindOk.mp loaded
      obtain ⟨_, _, last⟩ := Journal.bindOk.mp more
      cases Journal.pureOk.mp last
      obtain ⟨bytes, s, found, text, parsed⟩ := settingsOk.mp (Results.mapErrorOk.mp read)
      exact .given found text parsed
    · intro chosen
      cases chosen with
      | given found text parsed =>
        refine Journal.bindOk.mpr ⟨settings, ?_, Journal.bindOk.mpr ⟨(), rfl, rfl⟩⟩
        exact Results.mapErrorOk.mpr (settingsOk.mpr ⟨_, _, found, text, parsed⟩)

theorem acceptedOk : (load files path).result = .ok c ↔ c.Accepted files path := by
  rw [loadOk]
  constructor
  · intro read
    obtain ⟨table, input, _⟩ := Journal.bindOk.mp read
    obtain ⟨bytes, found, held⟩ := Table.ofFileOk.mp input
    cases table with
    | pools rows =>
      obtain ⟨l, v, built, valid, rfl⟩ := (readPools input).mp read
      exact .pools found held built valid
    | legacy rows =>
      obtain ⟨brk, mmap, low, high, rfl⟩ := (readLegacy input).mp read
      exact .legacy found held low high
  · intro accepted
    cases accepted with
    | pools found held built valid =>
      exact (readPools (Table.ofFileOk.mpr ⟨_, found, held⟩)).mpr ⟨_, _, built, valid, rfl⟩
    | legacy found held low high =>
      exact (readLegacy (Table.ofFileOk.mpr ⟨_, found, held⟩)).mpr ⟨_, _, low, high, rfl⟩

theorem runDone (parsed : Arguments.parse arguments = some (.request r))
    (done : perform r { files } = (.ok (), after)) :
    run files arguments = ⟨0, lines after.printed, "", logged r after.events, after.files⟩ := by
  unfold run
  rw [parsed]
  dsimp only
  rw [done]

theorem runFailed {failure : Failure} (parsed : Arguments.parse arguments = some (.request r))
    (failed : perform r { files } = (.error failure, after)) : run files arguments =
      ⟨1, lines after.printed, failure.text, logged r after.events, after.files⟩ := by
  unfold run
  rw [parsed]
  dsimp only
  rw [failed]

theorem convertTableSilent {v : ValidLayout} {kind : PoolKind}
    (found : v.oversized? = some kind) : (convertTable settings r (.pools v)).Silent w := by
  refine Job.silentNext rfl (Job.silentStop (Job.silentMapFault ?_) _)
  exact Job.silentHalt (ValidLayout.writeOversized v.intervalsOk found _ _)

theorem convertSilent (refused : ¬ ∃ c, (load w.files r.input).result = .ok c ∧ c.Storable) :
    (convert settings r).Silent w := by
  cases loaded : (load w.files r.input).result with
  | error failure => exact Job.silentStop (Job.silentReads loaded) _
  | ok c =>
    refine Job.silentNext (Job.readsOk.mpr ⟨loaded, rfl⟩) (Job.silentStop ?_ _)
    cases c with
    | legacy brk mmap => exact absurd ⟨_, loaded, trivial⟩ refused
    | pools v =>
      cases found : v.oversized? with
      | some kind => exact convertTableSilent found
      | none => exact absurd ⟨_, loaded, Layout.oversizedNone.mp found⟩ refused

theorem performSilent (action : r.action = .convert)
    (refused : ¬ ∃ settings c, (loadSettings w.files r.config).result = .ok settings ∧
      (load w.files r.input).result = .ok c ∧ c.Storable) : (perform r).Silent w := by
  unfold perform
  rw [action]
  cases chosen : (loadSettings w.files r.config).result with
  | error failure => exact Job.silentStop (Job.silentReads chosen) _
  | ok settings =>
    refine Job.silentNext (Job.readsOk.mpr ⟨chosen, rfl⟩) (convertSilent fun given => ?_)
    obtain ⟨c, both⟩ := given
    exact refused ⟨settings, c, chosen, both⟩

theorem performConverts (action : r.action = .convert)
    (chosen : (loadSettings w.files r.config).result = .ok settings) : perform r w =
      convert settings r (w.reported (loadSettings w.files r.config).events) := by
  unfold perform
  rw [Job.andThenOk (Job.readsOk.mpr ⟨chosen, rfl⟩), action]

theorem convertTableLegacy (brk mmap : LegacyRegion) (w : World σ) : ∃ events,
    convertTable settings r (.legacy brk mmap) w = (.ok r.input, w.reported events) := by
  unfold convertTable
  cases r.output with
  | none => exact ⟨[], congrArg _ (World.reportedNothing w).symm⟩
  | some path => exact ⟨[.outputIgnored], rfl⟩

theorem convertKeeps {brk mmap : LegacyRegion}
    (loaded : (load w.files r.input).result = .ok (.legacy brk mmap)) :
    ∃ after, convert settings r w = (.ok (), after) ∧ after.files = w.files ∧ after.printed =
      w.printed ++ announcement settings r (.legacy brk mmap) r.input := by
  obtain ⟨events, table⟩ := convertTableLegacy brk mmap (w.reported (load w.files r.input).events)
  exact ⟨_, convertDone loaded table, rfl, rfl⟩

end

/-- A conversion is refused, and then it is silent and touches no file, where the settings do not
load, the input is not accepted or a size is too large for its table. Otherwise it is done, as far
as the file can be made: that file holds the whole table, and what is printed names it; a legacy
input is named itself. -/
theorem convertWhole {d : Directory} {arguments : List String} {r : Request}
    (parsed : Arguments.parse arguments = some (.request r)) (action : r.action = .convert) :
    ((¬ ∃ settings c, Settings.Chosen d r.config settings ∧ Checked.Accepted d r.input c ∧
        c.Storable) → (run d arguments).Refused d) ∧
    ∀ settings c, Settings.Chosen d r.config settings → Checked.Accepted d r.input c → c.Storable →
      (∀ v intervals, c = .pools v → v.intervals = .ok intervals → FileSystem.Takes d
        (r.output.getD settings.outputPath) (LegacyTable.write intervals []).2) →
      (run d arguments).Converted d settings r c := by
  simp only [← chosenOk, ← acceptedOk]
  refine ⟨fun refused => ?_, fun settings c chosen loaded fits takes => ?_⟩
  · obtain ⟨failure, events, failed⟩ :=
      performSilent (w := { files := d }) action refused
    rw [runFailed parsed failed]
    exact ⟨rfl, rfl, rfl⟩
  · let start : World Directory := World.reported { files := d } (loadSettings d r.config).events
    have performs : perform r { files := d } = convert settings r start :=
      performConverts action chosen
    cases c with
    | pools v =>
      have emitted := v.intervalsOk
      obtain ⟨chars, written⟩ := v.charsFit emitted (Layout.oversizedNone.mpr fits)
      have sent := LegacyTable.charsWritten written []
      obtain ⟨made, created, filled⟩ := takes v _ rfl emitted
      rw [sent] at filled
      have stored : FileSystem.append made (r.output.getD settings.outputPath)
          (Utf8.encode chars) = (.ok (), _) := Prod.ext filled rfl
      obtain ⟨after, converted, files, printed⟩ : ∃ after, convert settings r start =
          (.ok (), after) ∧ _ := convertStores loaded emitted written created stored
      rw [runDone parsed (performs.trans converted)]
      refine ⟨rfl, fun w same => ?_, fun _ _ other => nomatch other⟩
      cases same
      refine ⟨_, _, emitted, sent, congrArg lines printed, ?_⟩
      rw [files]
      exact Directory.storedFilled created stored
    | legacy brk mmap =>
      obtain ⟨after, converted, files, printed⟩ : ∃ after, convert settings r start =
          (.ok (), after) ∧ _ := convertKeeps loaded
      rw [runDone parsed (performs.trans converted)]
      exact ⟨rfl, fun _ other => (nomatch other), fun _ _ _ => ⟨congrArg lines printed, files⟩⟩

end Command

def offsetTable : String :=
  "type,pageSize,startOffset,endOffset\nbrk,-1,0,8589934592\nmmap,-1,0,4294967296\n" ++
  "file,-1,0,1073741824\nbrk,2097152,14684160,16781312\nbrk,1073741824,3221229568,4294971392\n" ++
  "mmap,2097152,10485760,12582912\nmmap,1073741824,2147483648,3221225472\n"

def vastDirectory : Directory := .ofFiles [
  ("old.csv", Schema.pools.bytes (vastRows.map PoolRow.texts)), ("new.csv", [0x23])]

def convertArguments : List String := ["convert", "-i", "old.csv", "-o", "new.csv"]

theorem vastLoaded :
    (Command.load vastDirectory "old.csv").result = .ok (.pools vastValid) := by
  have found : vastDirectory.find "old.csv" =
    .ok (.file (Schema.pools.bytes (vastRows.map PoolRow.texts))) := by rfl
  exact (Command.loadedPools found (by decide) vastBuilt rfl).2

theorem offsetOutcome :
    ((Command.run offsetDirectory convertArguments).status = 0 ∧
      (Command.run offsetDirectory convertArguments).stdout =
        "HPC_CONFIGURATION_FILE=new.csv\nhugepages-2MB=3\nhugepages-1GB=3\n" ∧
      (Command.run offsetDirectory convertArguments).files.find "new.csv" =
        .ok (.file (Utf8.encode offsetTable.toList)) ∧
      (["tmp", "layouts", "kept.csv"], [0x24]) ∈
        (Command.run offsetDirectory convertArguments).files.files) ∧
    (Command.run vastDirectory convertArguments).status = 1 ∧
    (Command.run vastDirectory convertArguments).stdout = "" ∧
    (Command.run vastDirectory convertArguments).files = vastDirectory := by
  have parsed : Arguments.parse convertArguments = some (.request offsetRequest) := by cbv
  refine ⟨?_, ?_⟩
  · obtain ⟨_, converts⟩ := Command.convertWhole (d := offsetDirectory) parsed rfl
    have accepted := Command.acceptedOk.mp offsetLoaded.2
    have takes (bytes : List UInt8) : FileSystem.Takes offsetDirectory "new.csv" bytes := by
      obtain ⟨created, filled⟩ := Directory.fileFilled offsetTarget
      exact ⟨_, created, congrArg Prod.fst filled⟩
    obtain ⟨status, pools, _⟩ := converts _ _ .standard accepted offsetFits fun _ _ _ _ => takes _
    obtain ⟨intervals, bytes, emitted, sent, stdout, stored⟩ := pools _ rfl
    have whole : (offsetValid.intervals >>= LegacyTable.chars) = .ok offsetTable.toList := by
      decide +kernel
    rw [emitted] at whole
    rw [LegacyTable.charsWritten whole, List.nil_append] at sent
    obtain ⟨held, others⟩ := stored.held _ offsetTarget
    rw [← (Prod.mk.inj sent).2] at held
    refine ⟨status, stdout.trans (by cbv), held, (others _ (by decide)).mpr ?_⟩
    exact List.mem_of_getElem? (i := 2) rfl
  · obtain ⟨refuses, _⟩ := Command.convertWhole (d := vastDirectory) parsed rfl
    obtain ⟨status, silent, untouched⟩ := refuses fun given => by
      obtain ⟨_, c, _, accepted, fits⟩ := given
      cases vastLoaded.symm.trans (Command.acceptedOk.mpr accepted)
      exact absurd (fits .mmap) (by decide)
    exact ⟨status, silent, untouched⟩

end HugePools
