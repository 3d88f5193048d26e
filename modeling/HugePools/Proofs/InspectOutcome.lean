import HugePools.Proofs.ConvertOutcome

/-! When an inspection succeeds. It reads and checks its input as a check does, but shows the pages of
all three pools, and the check never looks at those of the file pool. -/
namespace HugePools

structure Pool.Expands (p : Pool) : Prop where
  large : ∀ index, p.large.pages.Has index →
    (index + 1) * 2 ^ 21 + p.large.offset.bytes ≤ 2 ^ 64 - 1
  huge : ∀ index, p.huge.pages.Has index →
    (index + 1) * 2 ^ 30 + p.huge.offset.bytes ≤ 2 ^ 64 - 1

/-- Whether the pages that a check passes over have ranges. A legacy layout has no such pages. -/
def Checked.Expands : Checked → Prop
  | .pools v => v.file.Expands
  | .legacy _ _ => True

namespace Pool

variable {p : Pool}

theorem rangesDone {page : PageSize} {place : Placement} (found : p.placement page = .ok place) :
    (∃ ranges, p.ranges page = .ok ranges) ↔ ∀ index, place.pages.Has index →
      (index + 1) * page.bytes + place.offset.bytes ≤ 2 ^ 64 - 1 := by
  rw [← place.pages.byteRangesDone page.bytesPos]
  unfold ranges
  rw [found]
  exact exists_congr fun list => Results.mapErrorOk

theorem rangesFail {page : PageSize} {place : Placement} {fault : LayoutError}
    (found : p.placement page = .ok place) (failed : p.ranges page = .error fault) :
    ∃ index offset, fault =
      .invalidField p.kind (listColumn page) (.addressOverflow index page.bytes offset) := by
  unfold ranges at failed
  rw [found] at failed
  obtain ⟨cause, overflow, rfl⟩ := Results.mapErrorFails.mp failed
  obtain ⟨index, rfl⟩ := place.pages.byteRangesFails overflow
  exact ⟨index, _, rfl⟩

theorem expandsIff : p.Expands ↔
    (∃ ranges, p.ranges .large = .ok ranges) ∧ ∃ ranges, p.ranges .huge = .ok ranges := by
  have large : (∃ ranges, p.ranges .large = .ok ranges) ↔ _ := rangesDone rfl
  have huge : (∃ ranges, p.ranges .huge = .ok ranges) ↔ _ := rangesDone rfl
  rw [large, huge]
  exact ⟨fun expands => ⟨expands.large, expands.huge⟩, fun both => ⟨both.1, both.2⟩⟩

theorem Sound.expands (sound : p.Sound) : p.Expands := by
  have large : p.placement .large = .ok p.large := rfl
  have huge : p.placement .huge = .ok p.huge := rfl
  exact expandsIff.mpr ⟨⟨_, sound.rangesOk large⟩, ⟨_, sound.rangesOk huge⟩⟩

end Pool

namespace PoolReport

variable {p : Pool}

theorem ofPoolDone : (∃ report, ofPool p = .ok report) ↔ p.Expands := by
  rw [Pool.expandsIff]
  constructor
  · intro given
    obtain ⟨report, made⟩ := given
    obtain ⟨large, first, more⟩ := Results.bindOk.mp made
    obtain ⟨huge, second, _⟩ := Results.bindOk.mp more
    exact ⟨⟨large, first⟩, ⟨huge, second⟩⟩
  · intro given
    obtain ⟨⟨large, first⟩, ⟨huge, second⟩⟩ := given
    exact ⟨_, Results.bindOk.mpr ⟨large, first, Results.bindOk.mpr ⟨huge, second, rfl⟩⟩⟩

theorem ofPoolFails {fault : LayoutError} (failed : ofPool p = .error fault) :
    ∃ page index offset, fault = .invalidField p.kind (Pool.listColumn page)
      (.addressOverflow index (PageSize.bytes page) offset) := by
  rcases Results.bindFails.mp failed with first | ⟨_, _, more⟩
  · exact ⟨.large, Pool.rangesFail rfl first⟩
  · rcases Results.bindFails.mp more with second | ⟨_, _, last⟩
    · exact ⟨.huge, Pool.rangesFail rfl second⟩
    · cases last

end PoolReport

namespace Command

variable {σ : Type} [FileSystem σ] {files : σ} {w : World σ} {path : String} {r : Request}
  {c : Checked}

theorem poolReportsDone : (∃ reports, poolReports c = .ok reports) ↔ c.Expands := by
  cases c with
  | legacy brk mmap => exact iff_of_true ⟨_, rfl⟩ trivial
  | pools v =>
    have done : (∃ reports, poolReports (.pools v) = .ok reports) ↔
        ∀ p ∈ v.pools, ∃ report, PoolReport.ofPool p = .ok report := Results.mapMDone
    simp only [done, PoolReport.ofPoolDone, Layout.pools, List.forall_mem_cons]
    exact ⟨fun all => all.2.2.1, fun file =>
      ⟨v.brkSound.expands, v.mmapSound.expands, file, List.forall_mem_nil _⟩⟩

theorem poolReportsFail {v : ValidLayout} {fault : LayoutError}
    (failed : poolReports (.pools v) = .error fault) :
    ∃ page index offset, fault = .invalidField v.file.kind (Pool.listColumn page)
      (.addressOverflow index (PageSize.bytes page) offset) := by
  obtain ⟨earlier, p, later, split, _, own⟩ := Results.mapMFails.mp failed
  have passed {q : Pool} (expands : q.Expands) : p ≠ q := by
    rintro rfl
    obtain ⟨report, made⟩ := PoolReport.ofPoolDone.mpr expands
    cases own.symm.trans made
  have mem : p ∈ v.pools := split ▸ List.mem_append_right _ List.mem_cons_self
  rcases List.mem_cons.mp mem with brk | mem
  · exact absurd brk (passed v.brkSound.expands)
  · rcases List.mem_cons.mp mem with mmap | mem
    · exact absurd mmap (passed v.mmapSound.expands)
    · exact List.mem_singleton.mp mem ▸ PoolReport.ofPoolFails own

theorem readSlotted {v : ValidLayout} (read : (readTable files path).result = .ok (.pools v)) :
    v.Slotted := by
  obtain ⟨table, input, _⟩ := Journal.bindOk.mp read
  cases table with
  | pools rows =>
    obtain ⟨l, w, built, valid, same⟩ := (readPools input).mp read
    cases same
    obtain rfl := Layout.validateOk valid
    exact Layout.ofRowsSlotted built
  | legacy rows =>
    obtain ⟨_, _, _, _, other⟩ := (readLegacy input).mp read
    cases other

theorem inspectOk : (inspect r w).1 = .ok () ↔
    ∃ c, (load w.files r.input).result = .ok c ∧ c.Expands := by
  unfold inspect
  rw [Job.readsSucceeds]
  refine exists_congr fun c => and_congr_right fun _ => ?_
  rw [← poolReportsDone]
  cases poolReports c with
  | error fault => exact iff_of_false nofun nofun
  | ok reports => exact iff_of_true rfl ⟨reports, rfl⟩

theorem inspectFails {fault : LayoutError} (loaded : (load w.files r.input).result = .ok c)
    (failed : poolReports c = .error fault) :
    (inspect r w).1 = .error (.report fault) := by
  unfold inspect
  rw [Job.andThenOk (Job.readsOk.mpr ⟨loaded, rfl⟩), failed]
  rfl

variable {arguments : List String}

theorem runSucceeds (parsed : Arguments.parse arguments = some (.request r)) :
    (run files arguments).status = 0 ↔ (perform r { files }).1 = .ok () := by
  rcases ran : perform r { files } with ⟨failure | done, after⟩
  · rw [runFailed parsed ran]
    exact iff_of_false nofun nofun
  · rw [runDone parsed ran]
    exact iff_of_true rfl rfl

theorem runReports {failure : Failure} (parsed : Arguments.parse arguments = some (.request r))
    (failed : (perform r { files }).1 = .error failure) :
    (run files arguments).stderr = failure.text := by
  have ran : perform r { files } = (.error failure, _) := Prod.ext failed rfl
  rw [runFailed parsed ran]

theorem checkSucceeds (parsed : Arguments.parse arguments = some (.request r))
    (action : r.action = .check) : (run files arguments).status = 0 ↔
      (∃ settings, (loadSettings files r.config).result = .ok settings) ∧
        ∃ c, (load files r.input).result = .ok c := by
  rw [runSucceeds parsed]
  unfold perform
  rw [Job.readsSucceeds, action]
  simp only [checkOk, ← loadOk, exists_and_right]
  rfl

theorem inspectSucceeds (parsed : Arguments.parse arguments = some (.request r))
    (action : r.action = .inspect) : (run files arguments).status = 0 ↔
      (∃ settings, (loadSettings files r.config).result = .ok settings) ∧
        ∃ c, (load files r.input).result = .ok c ∧ c.Expands := by
  rw [runSucceeds parsed]
  unfold perform
  rw [Job.readsSucceeds, action]
  simp only [inspectOk, exists_and_right]
  rfl

/-- An inspection succeeds where a check of the same input does and the file pool has ranges for its
pages. Where only the check succeeds, the inspection names the list of the file pool that has none. -/
theorem inspectVerdict {σ : Type} [FileSystem σ] (files : σ) {shown tested : List String} {r s : Request}
    (asked : Arguments.parse shown = some (.request r)) (inspects : r.action = .inspect)
    (compared : Arguments.parse tested = some (.request s)) (checks : s.action = .check)
    (input : r.input = s.input) (config : r.config = s.config) :
    ((run files shown).status = 0 ↔ (run files tested).status = 0 ∧
      ∀ c, Checked.Accepted files r.input c → c.Expands) ∧
    ((run files tested).status = 0 → (run files shown).status ≠ 0 →
      ∃ page index offset, (run files shown).stderr =
        (Failure.report (.invalidField .file (Pool.listColumn page)
          (.addressOverflow index (PageSize.bytes page) offset))).text) := by
  simp only [← acceptedOk]
  rw [inspectSucceeds asked inspects, checkSucceeds compared checks, ← input, ← config]
  refine ⟨⟨fun given => ?_, fun given => ?_⟩, fun passed refused => ?_⟩
  · obtain ⟨settings, c, loaded, expands⟩ := given
    refine ⟨⟨settings, c, loaded⟩, fun d again => ?_⟩
    cases loaded.symm.trans again
    exact expands
  · obtain ⟨⟨settings, c, loaded⟩, all⟩ := given
    exact ⟨settings, c, loaded, all c loaded⟩
  · obtain ⟨⟨settings, chosen⟩, c, loaded⟩ := passed
    have narrow : ¬ c.Expands := fun expands =>
      refused ((inspectSucceeds asked inspects).mpr ⟨⟨settings, chosen⟩, c, loaded, expands⟩)
    cases made : poolReports c with
    | ok reports => exact absurd (poolReportsDone.mp ⟨reports, made⟩) narrow
    | error fault =>
      have failed : (perform r { files }).1 = .error (.report fault) := by
        unfold perform
        rw [Job.andThenOk (Job.readsOk.mpr ⟨chosen, rfl⟩), inspects]
        exact inspectFails loaded made
      cases c with
      | legacy brk mmap => exact absurd trivial narrow
      | pools v =>
        have file : v.file.kind = .file := readSlotted (loadOk.mp loaded) .file
        obtain ⟨page, index, offset, rfl⟩ := poolReportsFail made
        rw [file] at failed
        exact ⟨page, index, offset, runReports asked failed⟩

end Command

def unseenRows : List PoolRow := [
  ⟨"brk", "0", "", "0", "", "0"⟩, ⟨"mmap", "0", "", "0", "", "0"⟩,
  ⟨"file", "0", "511", "17179869183GB", "", "0"⟩]

def unseenLayout : Layout where
  brk := .ofSize .brk .zero
  mmap := .ofSize .mmap .zero
  file := ⟨.file, .zero, ⟨⟨[⟨511, 511, by decide, by decide⟩], false, by decide⟩,
    { bytes := 17179869183 * 2 ^ 30 }⟩, .none⟩

def unseenValid : ValidLayout := ⟨unseenLayout, by rfl, by rfl⟩

def unseenDirectory : Directory :=
  .ofFiles [("layout.csv", Schema.pools.bytes (unseenRows.map PoolRow.texts))]

theorem unseenLoaded :
    (Command.load unseenDirectory "layout.csv").result = .ok (.pools unseenValid) := by
  have found : unseenDirectory.find "layout.csv" =
    .ok (.file (Schema.pools.bytes (unseenRows.map PoolRow.texts))) := by rfl
  exact (Command.loadedPools found (by decide) (by cbv) rfl).2

theorem unseenNarrow : ¬ (Checked.pools unseenValid).Expands := by
  intro expands
  have last := expands.large 511 ⟨_, .head _, by decide⟩
  exact absurd last (by decide)

/-- What a check of a layout accepts, an inspection of it need not show. -/
theorem unseenRefused : (Command.run unseenDirectory ["check", "-i", "layout.csv"]).status = 0 ∧
    (Command.run unseenDirectory ["inspect", "-i", "layout.csv"]).status = 1 ∧
    (Command.run unseenDirectory ["inspect", "-i", "layout.csv", "--json"]).status = 1 := by
  have refused {arguments : List String} {r : Request}
      (parsed : Arguments.parse arguments = some (.request r)) (action : r.action = .inspect)
      (input : r.input = "layout.csv") : (Command.run unseenDirectory arguments).status = 1 := by
    rcases ran : Command.perform r { files := unseenDirectory } with ⟨failure | done, after⟩
    · rw [Command.runFailed parsed ran]
    · have success := (Command.runSucceeds parsed).mpr (congrArg Prod.fst ran)
      obtain ⟨_, c, loaded, expands⟩ := (Command.inspectSucceeds parsed action).mp success
      rw [input] at loaded
      cases unseenLoaded.symm.trans loaded
      exact absurd expands unseenNarrow
  refine ⟨?_, ?_, ?_⟩
  · let r : Request := ⟨.check, "layout.csv", none, false, false, none, 0⟩
    have parsed : Arguments.parse ["check", "-i", "layout.csv"] = some (.request r) := by cbv
    exact (Command.checkSucceeds parsed rfl).mpr ⟨⟨_, rfl⟩, _, unseenLoaded⟩
  · let r : Request := ⟨.inspect, "layout.csv", none, false, false, none, 0⟩
    have parsed : Arguments.parse ["inspect", "-i", "layout.csv"] = some (.request r) := by cbv
    exact refused parsed rfl rfl
  · let r : Request := ⟨.inspect, "layout.csv", none, false, true, none, 0⟩
    have parsed : Arguments.parse ["inspect", "-i", "layout.csv", "--json"] = some (.request r) := by
      cbv
    exact refused parsed rfl rfl

theorem offsetShown :
    (Command.run offsetDirectory ["inspect", "-i", "old.csv", "--json"]).status = 0 ∧
    ∃ page index offset,
      (Command.run unseenDirectory ["inspect", "-i", "layout.csv", "--json"]).stderr =
        (Failure.report (.invalidField .file (Pool.listColumn page)
          (.addressOverflow index (PageSize.bytes page) offset))).text := by
  refine ⟨?_, ?_⟩
  · let r : Request := ⟨.inspect, "old.csv", none, false, true, none, 0⟩
    let s : Request := ⟨.check, "old.csv", none, false, false, none, 0⟩
    have asked : Arguments.parse ["inspect", "-i", "old.csv", "--json"] = some (.request r) := by cbv
    have compared : Arguments.parse ["check", "-i", "old.csv"] = some (.request s) := by cbv
    obtain ⟨shows, _⟩ := Command.inspectVerdict offsetDirectory asked rfl compared rfl rfl rfl
    have passes := (Command.checkSucceeds compared rfl).mpr ⟨⟨_, rfl⟩, _, offsetLoaded.2⟩
    refine shows.mpr ⟨passes, fun c accepted => ?_⟩
    cases offsetLoaded.2.symm.trans (Command.acceptedOk.mpr accepted)
    exact PoolReport.ofPoolDone.mp ⟨_, rfl⟩
  · let r : Request := ⟨.inspect, "layout.csv", none, false, true, none, 0⟩
    let s : Request := ⟨.check, "layout.csv", none, false, false, none, 0⟩
    have asked : Arguments.parse ["inspect", "-i", "layout.csv", "--json"] = some (.request r) := by
      cbv
    have compared : Arguments.parse ["check", "-i", "layout.csv"] = some (.request s) := by cbv
    obtain ⟨refuses, names⟩ := Command.inspectVerdict unseenDirectory asked rfl compared rfl rfl rfl
    have passes := (Command.checkSucceeds compared rfl).mpr ⟨⟨_, rfl⟩, _, unseenLoaded⟩
    exact names passes fun success =>
      unseenNarrow ((refuses.mp success).2 _ (Command.acceptedOk.mp unseenLoaded))

end HugePools
