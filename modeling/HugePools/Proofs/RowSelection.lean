import HugePools.Proofs.Selection

/-! Which rows a layout is read from. Every row is read before any pool is looked for, so a cell
that cannot be read comes first, also in a row that would not be used; a pool without a row comes
next. Of several rows for one pool the first one counts, wherever the rows of the others stand. -/
namespace HugePools

inductive PoolColumn where
  | poolType | poolSize | list2MB | offset2MB | list1GB | offset1GB
  deriving DecidableEq, Repr

namespace PoolColumn

def all : List PoolColumn := [.poolType, .poolSize, .list2MB, .offset2MB, .list1GB, .offset1GB]

def name : PoolColumn → String
  | .poolType => "pool_type"
  | .poolSize => "pool_size"
  | .list2MB => "ragions_list_2mb"
  | .offset2MB => "offset_2mb"
  | .list1GB => "ragions_list_1gb"
  | .offset1GB => "offset_1gb"

theorem names : all.map name = Schema.pools.columns := rfl

def cause? (text : String) : PoolColumn → Option QuantityError
  | .poolType => none
  | .poolSize | .offset2MB | .offset1GB => Results.fault? (Size.parse text)
  | .list2MB | .list1GB => Results.fault? (PageSet.parse text)

end PoolColumn

namespace PoolRow

def kind? (r : PoolRow) : Option PoolKind := PoolKind.ofText? r.poolType

def text (r : PoolRow) : PoolColumn → String
  | .poolType => r.poolType
  | .poolSize => r.poolSize
  | .list2MB => r.list2MB
  | .offset2MB => r.offset2MB
  | .list1GB => r.list1GB
  | .offset1GB => r.offset1GB

def cellFault? (r : PoolRow) (column : PoolColumn) : Option LayoutError :=
  match r.kind? with
  | none => if column = .poolType then some (.unknownPoolKind r.poolType) else none
  | some kind => (column.cause? (r.text column)).map (.invalidField kind column.name)

def fault? (r : PoolRow) : Option LayoutError := PoolColumn.all.findSome? r.cellFault?

theorem cellFault {α : Type} {kind : PoolKind} {column text : String}
    {read : String → Except QuantityError α} : Results.fault? (cell kind column read text) =
      (Results.fault? (read text)).map (.invalidField kind column) := by
  unfold cell
  cases read text <;> rfl

theorem kindRead {r : PoolRow} {kind : PoolKind} :
    PoolKind.parse r.poolType = .ok kind ↔ r.kind? = some kind := by
  unfold PoolKind.parse kind?
  split <;> simp_all

theorem unknownFault {r : PoolRow} (unknown : r.kind? = none) :
    r.pool = .error (.unknownPoolKind r.poolType) := by
  have first : PoolKind.parse r.poolType = .error (.unknownPoolKind r.poolType) := by
    unfold PoolKind.parse
    rw [show PoolKind.ofText? r.poolType = none from unknown]
  exact Results.bindFails.mpr (.inl first)

theorem poolFault (r : PoolRow) : Results.fault? r.pool = r.fault? := by
  cases known : r.kind? with
  | none =>
    rw [unknownFault known]
    simp [fault?, PoolColumn.all, cellFault?, known, Results.fault?]
  | some kind =>
    have cells : r.fault? =
        (Results.fault? (cell kind "pool_size" Size.parse r.poolSize)).or
        ((Results.fault? (cell kind "ragions_list_2mb" PageSet.parse r.list2MB)).or
        ((Results.fault? (cell kind "offset_2mb" Size.parse r.offset2MB)).or
        ((Results.fault? (cell kind "ragions_list_1gb" PageSet.parse r.list1GB)).or
        ((Results.fault? (cell kind "offset_1gb" Size.parse r.offset1GB)).or none)))) := by
      simp only [fault?, PoolColumn.all, Results.findSomeCons, cellFault?, known, cellFault]
      rfl
    rw [cells]
    unfold pool
    rw [kindRead.mpr known]
    change Results.fault? (cell kind "pool_size" Size.parse r.poolSize >>= _) = _
    refine Results.bindFault fun _ => ?_
    refine Results.bindFault fun _ => ?_
    refine Results.bindFault fun _ => ?_
    refine Results.bindFault fun _ => ?_
    exact Results.bindFault fun _ => rfl

theorem readFails {r : PoolRow} {fault : LayoutError} :
    r.fault? = some fault ↔ r.pool = .error fault := by
  rw [← poolFault, Results.faultSome]

theorem readDone {r : PoolRow} : r.fault? = none ↔ ∃ p, r.pool = .ok p := by
  rw [← poolFault, Results.faultNone]

theorem poolRead {r : PoolRow} {p : Pool} (read : r.pool = .ok p) : r.kind? = some p.kind ∧
    PageSet.parse r.list2MB = .ok p.large.pages ∧ PageSet.parse r.list1GB = .ok p.huge.pages := by
  obtain ⟨kind, named, rest⟩ := Results.bindOk.mp read
  obtain ⟨_, _, rest⟩ := Results.bindOk.mp rest
  obtain ⟨_, large, rest⟩ := Results.bindOk.mp rest
  obtain ⟨_, _, rest⟩ := Results.bindOk.mp rest
  obtain ⟨_, huge, rest⟩ := Results.bindOk.mp rest
  obtain ⟨_, _, last⟩ := Results.bindOk.mp rest
  cases Results.pureOk.mp last
  exact ⟨kindRead.mp named, Results.mapErrorOk.mp large, Results.mapErrorOk.mp huge⟩

theorem poolKind {r : PoolRow} {p : Pool} (read : r.pool = .ok p) : r.kind? = some p.kind :=
  (poolRead read).1

def first? (rows : List PoolRow) (kind : PoolKind) : Option PoolRow :=
  rows.find? fun r => r.kind? = some kind

def absent? (rows : List PoolRow) : Option PoolKind :=
  PoolKind.all.find? fun kind => (first? rows kind).isNone

theorem absentNone {rows : List PoolRow} :
    absent? rows = none ↔ ∀ kind, ∃ r, first? rows kind = some r := by
  unfold absent?
  rw [List.find?_eq_none]
  constructor
  · intro none kind
    simpa [Option.ne_none_iff_exists'] using none kind kind.memAll
  · intro held kind _
    obtain ⟨r, found⟩ := held kind
    simp [found]

section

variable {rows : List PoolRow} {pools : List Pool} {kind : PoolKind}

theorem firstPool (read : rows.mapM PoolRow.pool = .ok pools) :
    (first? rows kind).map PoolRow.pool = (pools.find? fun p => p.kind = kind).map .ok := by
  refine Results.mapMFind (fun r p own => ?_) read
  rw [poolKind own]
  simp

theorem firstRead (read : rows.mapM PoolRow.pool = .ok pools) {p : Pool} :
    (pools.find? fun p => p.kind = kind) = some p ↔
      ∃ r, first? rows kind = some r ∧ r.pool = .ok p := by
  rw [← Option.map_eq_some_iff, firstPool read]
  simp

theorem firstAbsent (read : rows.mapM PoolRow.pool = .ok pools) :
    (pools.find? fun p => p.kind = kind) = none ↔ first? rows kind = none := by
  rw [← Option.map_eq_none_iff (f := PoolRow.pool), firstPool read, Option.map_eq_none_iff]

end

/-- Other tables with the same rows in use: the rows of one pool keep their order, and what is
added comes after a row of its own pool. -/
inductive Rearranged : List PoolRow → List PoolRow → Prop where
  | reorder {rows others : List PoolRow} (perm : rows.Perm others)
      (order : ∀ kind : PoolKind, (others.filter fun r => r.kind? = some kind) =
        rows.filter fun r => r.kind? = some kind) : Rearranged rows others
  | insert {front back : List PoolRow} {extra : PoolRow} {p : Pool} (read : extra.pool = .ok p)
      (later : ∃ r ∈ front, r.kind? = extra.kind?) :
      Rearranged (front ++ back) (front ++ extra :: back)
  | trans {rows middle others : List PoolRow} (left : Rearranged rows middle)
      (right : Rearranged middle others) : Rearranged rows others

theorem Rearranged.read {rows others : List PoolRow} (moved : Rearranged rows others)
    (read : ∀ r ∈ rows, ∃ p, r.pool = .ok p) : ∀ r ∈ others, ∃ p, r.pool = .ok p := by
  induction moved with
  | reorder perm order => exact fun r mem => read r (perm.mem_iff.mpr mem)
  | insert own later =>
    rw [List.forall_mem_append] at read ⊢
    exact ⟨read.1, List.forall_mem_cons.mpr ⟨⟨_, own⟩, read.2⟩⟩
  | trans _ _ left right => exact right (left read)

theorem Rearranged.first {rows others : List PoolRow} (moved : Rearranged rows others)
    (kind : PoolKind) : first? others kind = first? rows kind := by
  induction moved with
  | reorder perm order =>
    unfold first?
    rw [← List.head?_filter, ← List.head?_filter, order kind]
  | @insert front back extra p own later =>
    unfold first?
    rw [List.find?_append, List.find?_append]
    cases found : front.find? fun r => r.kind? = some kind with
    | some r => rfl
    | none =>
      obtain ⟨r, mem, same⟩ := later
      have other : extra.kind? ≠ some kind := by
        rw [← same]
        simpa using List.find?_eq_none.mp found r mem
      rw [List.find?_cons_of_neg (by simpa using other)]
  | trans _ _ left right => exact right.trans left

end PoolRow

namespace Layout

theorem ofRowsOk {rows : List PoolRow} {l : Layout} : (ofRows rows).result = .ok l ↔
    (∀ r ∈ rows, ∃ p, r.pool = .ok p) ∧
      ∀ kind, ∃ r, PoolRow.first? rows kind = some r ∧ r.pool = .ok (l.pool kind) := by
  rw [ofRowsResult, Results.bindOk]
  constructor
  · intro built
    obtain ⟨pools, read, chosen⟩ := built
    exact ⟨Results.mapMDone.mp ⟨pools, read⟩,
      fun kind => (PoolRow.firstRead read).mp (chosenOk.mp chosen kind)⟩
  · intro given
    obtain ⟨parsed, held⟩ := given
    obtain ⟨pools, read⟩ := Results.mapMDone.mpr parsed
    exact ⟨pools, read, chosenOk.mpr fun kind => (PoolRow.firstRead read).mpr (held kind)⟩

section

variable {rows : List PoolRow}

theorem ofRowsUnread {fault : LayoutError} (bad : rows.findSome? PoolRow.fault? = some fault) :
    (ofRows rows).result = .error fault := by
  obtain ⟨earlier, r, later, split, own, passed⟩ := List.findSome?_eq_some_iff.mp bad
  rw [ofRowsResult]
  refine Results.bindFails.mpr (.inl (Results.mapMFails.mpr ⟨earlier, r, later, split, ?_, ?_⟩))
  · exact fun s mem => PoolRow.readDone.mp (passed s mem)
  · exact PoolRow.readFails.mp own

theorem allRead : rows.findSome? PoolRow.fault? = none ↔ ∀ r ∈ rows, ∃ p, r.pool = .ok p := by
  rw [List.findSome?_eq_none_iff]
  exact forall₂_congr fun _ _ => PoolRow.readDone

theorem ofRowsMissing {kind : PoolKind} (parsed : ∀ r ∈ rows, ∃ p, r.pool = .ok p)
    (gone : PoolRow.absent? rows = some kind) :
    (ofRows rows).result = .error (.missingPool kind) := by
  obtain ⟨pools, read⟩ := Results.mapMDone.mpr parsed
  obtain ⟨own, before, after, split, held⟩ := List.find?_eq_some_iff_append.mp gone
  have missing : chosen pools = .error (.missingPool kind) := by
    rw [← Results.mapFails, chosenPools]
    refine Results.mapMFails.mpr ⟨before, kind, after, split, fun other mem => ?_, ?_⟩
    · obtain ⟨r, found⟩ := Option.isSome_iff_exists.mp (by simpa using held other mem)
      obtain ⟨p, got⟩ := parsed r (List.mem_of_find?_eq_some found)
      exact ⟨p, selectOk.mpr ((PoolRow.firstRead read).mpr ⟨r, found, got⟩)⟩
    · exact selectFails ((PoolRow.firstAbsent read).mpr (by simpa using own))
  rw [ofRowsResult, read]
  exact missing

theorem ofRowsHeld (parsed : ∀ r ∈ rows, ∃ p, r.pool = .ok p)
    (held : PoolRow.absent? rows = none) : ∃ l, (ofRows rows).result = .ok l := by
  have each : ∀ kind, ∃ p, ∃ r, PoolRow.first? rows kind = some r ∧ r.pool = .ok p := by
    intro kind
    obtain ⟨r, found⟩ := PoolRow.absentNone.mp held kind
    obtain ⟨p, got⟩ := parsed r (List.mem_of_find?_eq_some found)
    exact ⟨p, r, found, got⟩
  choose slot filled using each
  refine ⟨⟨slot .brk, slot .mmap, slot .file⟩, ofRowsOk.mpr ⟨parsed, fun kind => ?_⟩⟩
  cases kind with
  | brk => exact filled .brk
  | mmap => exact filled .mmap
  | file => exact filled .file

theorem ofRowsRearranged {others : List PoolRow} {l : Layout}
    (moved : PoolRow.Rearranged rows others) (built : (ofRows rows).result = .ok l) :
    (ofRows others).result = .ok l := by
  obtain ⟨parsed, held⟩ := ofRowsOk.mp built
  refine ofRowsOk.mpr ⟨moved.read parsed, fun kind => ?_⟩
  rw [moved.first kind]
  exact held kind

end

/-- The earliest cell of the earliest row that cannot be read decides; then the first pool without
a row; else each slot holds what the first row of its pool says. Tables that keep these rows in use
give the same layout. -/
theorem rowsSelected (rows : List PoolRow) :
    (∀ fault, rows.findSome? PoolRow.fault? = some fault →
      (ofRows rows).result = .error fault) ∧
    (rows.findSome? PoolRow.fault? = none →
      (∀ kind, PoolRow.absent? rows = some kind →
        (ofRows rows).result = .error (.missingPool kind)) ∧
      (PoolRow.absent? rows = none → ∃ l, (ofRows rows).result = .ok l ∧
        ∀ kind, ∃ r, PoolRow.first? rows kind = some r ∧ r.pool = .ok (l.pool kind))) ∧
    ∀ l others, (ofRows rows).result = .ok l → PoolRow.Rearranged rows others →
      (ofRows others).result = .ok l := by
  refine ⟨fun fault bad => ofRowsUnread bad, fun clean => ⟨fun kind gone => ?_, fun held => ?_⟩,
    fun l others built moved => ofRowsRearranged moved built⟩
  · exact ofRowsMissing (allRead.mp clean) gone
  · obtain ⟨l, built⟩ := ofRowsHeld (allRead.mp clean) held
    exact ⟨l, built, (ofRowsOk.mp built).2⟩

end Layout

def spreadRows : List PoolRow := [⟨"File", "3GB", "", "0", "", "0"⟩,
  ⟨" MMAP", "64MB", "31", "0", "", "0"⟩, ⟨"brk", "60MB", "29", "0", "", "0"⟩]

def spreadLayout : Layout where
  brk := ⟨.brk, { bytes := 60 * 2 ^ 20 },
    ⟨⟨[⟨29, 29, by decide, by decide⟩], false, by decide⟩, .zero⟩, .none⟩
  mmap := ⟨.mmap, { bytes := 64 * 2 ^ 20 },
    ⟨⟨[⟨31, 31, by decide, by decide⟩], false, by decide⟩, .zero⟩, .none⟩
  file := .ofSize .file { bytes := 3 * 2 ^ 30 }

def gatheredRows : List PoolRow := [⟨"brk", "60MB", "29", "0", "", "0"⟩,
  ⟨" MMAP", "64MB", "31", "0", "", "0"⟩, ⟨"mmap", "9GB", "", "0", "1", "0"⟩,
  ⟨"File", "3GB", "", "0", "", "0"⟩]

def unreadRows : List PoolRow := [⟨"brk", "2MB", "0", "0", "", "0"⟩,
  ⟨"mmap", "4MB", "", "0", "", "0"⟩, ⟨"BRK", "2MB", "", "x", "9-1", "0"⟩]

theorem spreadGathered : PoolRow.Rearranged spreadRows gatheredRows := by
  have perm : spreadRows.Perm (gatheredRows.eraseIdx 2) := by decide +kernel
  have order : ∀ kind : PoolKind,
      ((gatheredRows.eraseIdx 2).filter fun r => r.kind? = some kind) =
        spreadRows.filter fun r => r.kind? = some kind := by
    intro kind
    cases kind <;> decide +kernel
  have second : gatheredRows[2].pool = .ok
      ⟨.mmap, { bytes := 9 * 2 ^ 30 }, .none,
        ⟨⟨[⟨1, 1, by decide, by decide⟩], false, by decide⟩, .zero⟩⟩ := by cbv
  have later : ∃ r ∈ gatheredRows.take 2, r.kind? = gatheredRows[2].kind? := by decide +kernel
  exact .trans (.reorder perm order) (.insert second later)

theorem spreadSelected : (Layout.ofRows spreadRows).result = .ok spreadLayout ∧
    (Layout.ofRows gatheredRows).result = .ok spreadLayout ∧
    (Layout.ofRows unreadRows.dropLast).result = .error (.missingPool .file) ∧
    (Layout.ofRows unreadRows).result =
      .error (.invalidField .brk "offset_2mb" (.invalidSize "x")) := by
  have built : (Layout.ofRows spreadRows).result = .ok spreadLayout := by cbv
  refine ⟨built, (Layout.rowsSelected spreadRows).2.2 _ _ built spreadGathered, ?_, ?_⟩
  · exact ((Layout.rowsSelected unreadRows.dropLast).2.1 (by cbv)).1 .file (by decide +kernel)
  · exact (Layout.rowsSelected unreadRows).1 _ (by cbv)

end HugePools
