import HugePools.Proofs.RepeatedIndices
import HugePools.Proofs.RowSelection

/-! What the reading of a layout warns of: lists that name an index more than once, row by row up to
the first row that cannot be read, and then pools with more than one row, up to the first pool
without any. Which lists and rows these are is said here from the text of the cells, without the
notes that the reader takes. -/
namespace HugePools

namespace Journal

variable {ε α β : Type}

def warnings (j : Journal ε α) : List Event := j.events.filter fun e => e.level = .warn

theorem warningLines (j : Journal ε α) : j.lines .warn = j.warnings.map Event.line := by
  have same (e : Event) : e.reaches .warn = decide (e.level = .warn) := by cases e <;> rfl
  unfold lines warnings
  rw [funext same]

theorem warningsThen {j : Journal ε α} {a : α} (ok : j.result = .ok a) (next : α → Journal ε β) :
    (j >>= next).warnings = j.warnings ++ (next a).warnings := by
  change (j.andThen next).warnings = _
  rw [andThenOk ok]
  exact List.filter_append _ _

theorem warningsStopped {j : Journal ε α} {fault : ε} (bad : j.result = .error fault)
    (next : α → Journal ε β) : (j >>= next).warnings = j.warnings := by
  change (j.andThen next).warnings = _
  rw [andThenError bad]
  rfl

theorem warningsPure (j : Journal ε α) (f : α → β) :
    (j >>= fun a => pure (f a)).warnings = j.warnings := by
  cases ended : j.result with
  | error fault => exact warningsStopped ended _
  | ok a =>
    rw [warningsThen ended]
    exact List.append_nil _

end Journal

namespace PoolRow

def list (r : PoolRow) : PageSize → String
  | .huge => r.list1GB
  | _ => r.list2MB

open Classical in
noncomputable def listWarnings (r : PoolRow) (page : PageSize) : List Event :=
  match r.kind?, PageSet.parse (r.list page) with
  | some kind, .ok pages =>
    if (PageSource.text (r.list page)).Repeats then
      [.repeatedPages kind page (r.list page) pages]
    else []
  | _, _ => []

noncomputable def allWarnings (r : PoolRow) : List Event :=
  r.listWarnings .large ++ r.listWarnings .huge

def countWarnings (rows : List PoolRow) (kind : PoolKind) : List Event :=
  let count := rows.countP fun r => r.kind? = some kind
  if 2 ≤ count then [.repeatedPool kind count] else []

def readable (r : PoolRow) : Bool := r.fault?.isNone

theorem readableIff {r : PoolRow} : r.readable = true ↔ ∃ p, r.pool = .ok p :=
  Option.isNone_iff_eq_none.trans readDone

theorem listWarned {r : PoolRow} {kind : PoolKind} {page : PageSize} {pages : PageSet}
    (known : r.kind? = some kind) (read : PageSet.parse (r.list page) = .ok pages) :
    r.listWarnings page =
      if pages.duplicates then [.repeatedPages kind page (r.list page) pages] else [] := by
  have note : pages.duplicates = true ↔ (PageSource.text (r.list page)).Repeats :=
    PageSet.sourceRepeats read
  unfold listWarnings
  simp only [known, read, ← note]

theorem listQuiet {r : PoolRow} {page : PageSize}
    (blank : PageSet.parse (r.list page) = .ok .empty) : r.listWarnings page = [] := by
  cases known : r.kind? with
  | none =>
    unfold listWarnings
    rw [known]
  | some kind =>
    rw [listWarned known blank]
    rfl

theorem readWarnings {r : PoolRow} {p : Pool} (read : r.pool = .ok p) :
    r.read.warnings = r.allWarnings := by
  obtain ⟨known, large, huge⟩ := poolRead read
  have first : r.listWarnings .large = _ := listWarned known large
  have second : r.listWarnings .huge = _ := listWarned known huge
  have noted : r.allWarnings = r.warnings p := by
    unfold allWarnings
    rw [first, second]
    rfl
  have alarming : ∀ e ∈ r.warnings p, e.level = .warn := by
    unfold warnings
    split <;> split <;> simp [Event.level]
  unfold PoolRow.read Journal.warnings
  rw [read, noted, List.filter_append, List.filter_eq_self.mpr]
  · exact List.append_nil _
  · exact fun e mem => decide_eq_true (alarming e mem)

theorem readAllWarnings (rows : List PoolRow) :
    (readAll rows).warnings = (rows.takeWhile readable).flatMap allWarnings := by
  induction rows with
  | nil => rfl
  | cons r rest ih =>
    unfold readAll
    cases own : r.pool with
    | error fault =>
      have bad : ¬ r.readable = true := by simp [readableIff, own]
      have quiet : r.read.warnings = [] := by
        unfold PoolRow.read
        rw [own]
        rfl
      rw [Journal.warningsStopped (r.readResult.trans own), quiet, List.takeWhile_cons_of_neg bad]
      rfl
    | ok p =>
      have good := readableIff.mpr ⟨p, own⟩
      rw [Journal.warningsThen (r.readResult.trans own), readWarnings own, Journal.warningsPure, ih,
        List.takeWhile_cons_of_pos good, List.flatMap_cons]

end PoolRow

namespace Layout

variable {rows : List PoolRow} {pools : List Pool}

theorem rowCount (read : rows.mapM PoolRow.pool = .ok pools) (kind : PoolKind) :
    (pools.filter fun p => p.kind = kind).length = rows.countP fun r => r.kind? = some kind := by
  have kinds : pools.map (fun p => some p.kind) = rows.map PoolRow.kind? :=
    Results.mapMImage (fun r p own => (PoolRow.poolKind own).symm) read
  have counts := congrArg (List.countP (· = some kind)) kinds
  rw [List.countP_map, List.countP_map] at counts
  rw [← List.countP_eq_length_filter]
  simpa [Function.comp_def] using counts

theorem selectWarnings (read : rows.mapM PoolRow.pool = .ok pools) (kind : PoolKind) :
    (select pools kind).warnings = PoolRow.countWarnings rows kind := by
  have count := rowCount read kind
  unfold select PoolRow.countWarnings
  rw [← count]
  cases pools.filter fun p => p.kind = kind with
  | nil => rfl
  | cons p more => cases more <;> rfl

/-- The pools up to the first one that no row is for. -/
def sought (rows : List PoolRow) (kinds : List PoolKind) : List PoolKind :=
  kinds.takeWhile fun kind => (PoolRow.first? rows kind).isSome

theorem selectThen {α : Type} (read : rows.mapM PoolRow.pool = .ok pools) {kind : PoolKind}
    {others : List PoolKind} {next : Pool → Journal LayoutError α}
    (later : ∀ p, (next p).warnings = (sought rows others).flatMap (PoolRow.countWarnings rows)) :
    (select pools kind >>= next).warnings =
      (sought rows (kind :: others)).flatMap (PoolRow.countWarnings rows) := by
  unfold sought at later ⊢
  cases found : pools.find? fun p => p.kind = kind with
  | none =>
    have absent := (PoolRow.firstAbsent read).mp found
    have quiet : (select pools kind).warnings = [] := by
      unfold select
      rw [List.filter_eq_nil_iff.mpr (List.find?_eq_none.mp found)]
      rfl
    rw [Journal.warningsStopped (selectFails found), quiet,
      List.takeWhile_cons_of_neg (by simp [absent])]
    rfl
  | some p =>
    obtain ⟨r, held, _⟩ := (PoolRow.firstRead read).mp found
    rw [Journal.warningsThen (selectOk.mpr found), selectWarnings read, later,
      List.takeWhile_cons_of_pos (by simp [held]), List.flatMap_cons]

def pick (pools : List Pool) : Journal LayoutError Layout := do
  let brk ← select pools .brk
  let mmap ← select pools .mmap
  let file ← select pools .file
  return ⟨brk, mmap, file⟩

theorem pickWarnings (read : rows.mapM PoolRow.pool = .ok pools) : (pick pools).warnings =
    (sought rows PoolKind.all).flatMap (PoolRow.countWarnings rows) :=
  selectThen read fun _ => selectThen read fun _ => selectThen read fun _ => rfl

theorem warningsRead (parsed : ∀ r ∈ rows, ∃ p, r.pool = .ok p) : (ofRows rows).warnings =
    rows.flatMap PoolRow.allWarnings ++
      (sought rows PoolKind.all).flatMap (PoolRow.countWarnings rows) := by
  obtain ⟨pools, read⟩ := Results.mapMDone.mpr parsed
  have done : (PoolRow.readAll rows).result = .ok pools := (PoolRow.readAllResult rows).trans read
  have all : rows.takeWhile PoolRow.readable = rows :=
    List.takeWhile_eq_self_iff.mpr fun r mem => PoolRow.readableIff.mpr (parsed r mem)
  change (PoolRow.readAll rows >>= pick).warnings = _
  rw [Journal.warningsThen done, pickWarnings read, PoolRow.readAllWarnings, all]

theorem warningsUnread {earlier later : List PoolRow} {r : PoolRow} {fault : LayoutError}
    (parsed : ∀ s ∈ earlier, ∃ p, s.pool = .ok p) (bad : r.pool = .error fault) :
    (ofRows (earlier ++ r :: later)).result = .error fault ∧
      (ofRows (earlier ++ r :: later)).warnings = earlier.flatMap PoolRow.allWarnings := by
  have failed : (PoolRow.readAll (earlier ++ r :: later)).result = .error fault := by
    rw [PoolRow.readAllResult, Results.mapMFails]
    exact ⟨earlier, r, later, rfl, parsed, bad⟩
  have good : ∀ s ∈ earlier, s.readable = true := fun s mem =>
    PoolRow.readableIff.mpr (parsed s mem)
  have other : ¬ r.readable = true := by simp [PoolRow.readableIff, bad]
  have before : (earlier ++ r :: later).takeWhile PoolRow.readable = earlier := by
    rw [List.takeWhile_append_of_pos good, List.takeWhile_cons_of_neg other, List.append_nil]
  refine ⟨Journal.bindFails.mpr (.inl failed), ?_⟩
  change (PoolRow.readAll (earlier ++ r :: later) >>= pick).warnings = _
  rw [Journal.warningsStopped failed, PoolRow.readAllWarnings, before]

theorem soughtAll (held : ∀ kind, ∃ r, PoolRow.first? rows kind = some r) :
    sought rows PoolKind.all = PoolKind.all := by
  exact List.takeWhile_eq_self_iff.mpr fun kind _ => Option.isSome_iff_exists.mpr (held kind)

/-- A layout comes with a warning for each list that names an index again, row by row and the large
pages first, and then with one for each pool that has more rows than one. A row that cannot be read
leaves the warnings of the rows before it, and a pool without a row those of the pools before it. -/
theorem warningsExact (rows : List PoolRow) :
    (∀ l, (ofRows rows).result = .ok l → (ofRows rows).warnings =
      rows.flatMap PoolRow.allWarnings ++ PoolKind.all.flatMap (PoolRow.countWarnings rows)) ∧
    (∀ earlier r later fault, rows = earlier ++ r :: later →
      (∀ s ∈ earlier, ∃ p, s.pool = .ok p) → r.pool = .error fault →
      (ofRows rows).result = .error fault ∧
        (ofRows rows).warnings = earlier.flatMap PoolRow.allWarnings) ∧
    ((∀ r ∈ rows, ∃ p, r.pool = .ok p) → (ofRows rows).warnings =
      rows.flatMap PoolRow.allWarnings ++
        (sought rows PoolKind.all).flatMap (PoolRow.countWarnings rows)) := by
  refine ⟨fun l built => ?_, fun earlier r later fault split parsed bad => ?_, warningsRead⟩
  · obtain ⟨parsed, held⟩ := ofRowsOk.mp built
    have every : ∀ kind, ∃ r, PoolRow.first? rows kind = some r := fun kind =>
      (held kind).imp fun _ both => both.1
    rw [warningsRead parsed, soughtAll every]
  · rw [split]
    exact warningsUnread parsed bad

end Layout

def notedRow : PoolRow := ⟨"mmap", "8GB", "6-14,11", "0", "21,21", "0"⟩

def brokenRow : PoolRow := ⟨"brk", "4GB", "8,8", "0", "", "x"⟩

def notedRows : List PoolRow := [notedRow, ⟨"brk", "4GB", "", "0", "", "0"⟩,
  ⟨" MMAP", "1GB", "", "0", "", "0"⟩, ⟨"file", "1GB", "", "0", "", "0"⟩]

def notedWarnings : List Event := [
  .repeatedPages .mmap .large "6-14,11" ⟨[⟨6, 14, by decide, by decide⟩], true, by decide⟩,
  .repeatedPages .mmap .huge "21,21" ⟨[⟨21, 21, by decide, by decide⟩], true, by decide⟩]

theorem notedRead : notedRow.allWarnings = notedWarnings := by
  have large : PageSet.parse (notedRow.list .large) =
      .ok ⟨[⟨6, 14, by decide, by decide⟩], true, by decide⟩ := by
    have body : PageSet.interior (Text.trim (notedRow.list .large).toList) =
      "6-14,11".toList := by rfl
    unfold PageSet.parse
    rw [body]
    cbv
  have huge : PageSet.parse (notedRow.list .huge) =
      .ok ⟨[⟨21, 21, by decide, by decide⟩], true, by decide⟩ := by
    have body : PageSet.interior (Text.trim (notedRow.list .huge).toList) = "21,21".toList := by rfl
    unfold PageSet.parse
    rw [body]
    cbv
  have known : notedRow.kind? = some .mmap := by rfl
  unfold PoolRow.allWarnings
  rw [PoolRow.listWarned known large, PoolRow.listWarned known huge]
  rfl

theorem notedWarned :
    (Layout.ofRows notedRows).lines .warn =
      ["WARN mmap pool: duplicate 2MB page indices in '6-14,11', using 6-14",
        "WARN mmap pool: duplicate 1GB page indices in '21,21', using 21",
        "WARN mmap pool defined 2 times, using the first row"] ∧
    (Layout.ofRows (notedRow :: brokenRow :: notedRows)).result =
      .error (.invalidField .brk "offset_1gb" (.invalidSize "x")) ∧
    (Layout.ofRows (notedRow :: brokenRow :: notedRows)).warnings = notedWarnings := by
  have parsed : ∀ r ∈ notedRows, ∃ p, r.pool = .ok p := Layout.allRead.mp (by decide +kernel)
  have held : PoolRow.absent? notedRows = none := by decide +kernel
  have bad : brokenRow.pool = .error (.invalidField .brk "offset_1gb" (.invalidSize "x")) :=
    PoolRow.readFails.mp (by decide +kernel)
  have plain : notedRows.tail.flatMap PoolRow.allWarnings = [] := by
    have blank : PageSet.parse "" = .ok .empty := by cbv
    refine List.flatMap_eq_nil_iff.mpr fun r mem => ?_
    have lists : ∀ r ∈ notedRows.tail, r.list2MB = "" ∧ r.list1GB = "" := by decide
    obtain ⟨large, huge⟩ := lists r mem
    refine List.append_eq_nil_iff.mpr ⟨PoolRow.listQuiet ?_, PoolRow.listQuiet ?_⟩
    · exact (congrArg PageSet.parse large).trans blank
    · exact (congrArg PageSet.parse huge).trans blank
  have counted : PoolKind.all.flatMap (PoolRow.countWarnings notedRows) =
      [.repeatedPool .mmap 2] := by decide +kernel
  obtain ⟨l, built⟩ := Layout.ofRowsHeld parsed held
  have all := (Layout.warningsExact notedRows).1 l built
  obtain ⟨failed, before⟩ := (Layout.warningsExact (notedRow :: brokenRow :: notedRows)).2.1
    [notedRow] brokenRow notedRows _ rfl
    (List.forall_mem_singleton.mpr (parsed _ List.mem_cons_self)) bad
  refine ⟨?_, failed, ?_⟩
  · rw [Journal.warningLines, all, counted]
    change (notedRow.allWarnings ++ notedRows.tail.flatMap PoolRow.allWarnings ++ _).map _ = _
    rw [plain, notedRead, List.append_nil]
    decide +kernel
  · rw [before]
    change notedRow.allWarnings ++ [] = _
    rw [notedRead]
    rfl

end HugePools
