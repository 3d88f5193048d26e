import HugePools.Proofs.NamedCells
import HugePools.Proofs.Trimming

/-! Tables whose columns stand in another order or among further columns. A table that is read at all
shows one header and data records of the same width, so it has columns; the table that comes of them
depends on the cells under the names of its schema. -/
namespace HugePools.Table

variable {α : Type}

def shown (bytes : List UInt8) : Except TableError (List (List String)) :=
  (Delimited.records bytes).mapM cellsOf

structure Column (n : Nat) where
  name : String
  cells : Fin n → String

variable {n : Nat} {columns wider : List (Column n)}

def line (columns : List (Column n)) (k : Fin n) : List String := columns.map fun c => c.cells k

def Shows (bytes : List UInt8) (columns : List (Column n)) : Prop :=
  shown bytes = .ok (columns.map Column.name :: (List.finRange n).map (line columns))

/-- One order of the columns in all records, and then further columns under names of neither
schema. -/
inductive Widened (columns : List (Column n)) : List (Column n) → Prop
  | reorder {wider : List (Column n)} (perm : columns.Perm wider) : Widened columns wider
  | insert {front back : List (Column n)} {extra : Column n} (wide : Widened columns (front ++ back))
      (foreign : ∀ schema : Schema, extra.name ∉ schema.columns) :
      Widened columns (front ++ extra :: back)

theorem Widened.among (wide : Widened columns wider) : ∃ extra, wider.Perm (columns ++ extra) ∧
    ∀ c ∈ extra, ∀ schema : Schema, c.name ∉ schema.columns := by
  induction wide with
  | reorder perm => exact ⟨[], by simpa using perm.symm, List.forall_mem_nil _⟩
  | @insert front back c _ foreign ih =>
    obtain ⟨extra, perm, others⟩ := ih
    refine ⟨c :: extra, ?_, List.forall_mem_cons.mpr ⟨foreign, others⟩⟩
    calc front ++ c :: back
      _ |>.Perm (c :: (front ++ back)) := List.perm_middle
      _ |>.Perm (c :: (columns ++ extra)) := perm.cons c
      _ |>.Perm (columns ++ c :: extra) := List.perm_middle.symm

theorem askedAlike {needed names others extra : List String} (perm : others.Perm (names ++ extra))
    (foreign : ∀ s ∈ extra, s ∉ needed) :
    needed.all others.contains = needed.all names.contains := by
  rw [Bool.eq_iff_iff]
  simp only [List.all_eq_true, List.contains_iff_mem]
  refine forall₂_congr fun s mem => ?_
  rw [perm.mem_iff, List.mem_append]
  exact or_iff_left fun held => foreign s held mem

theorem detectAmong {source : String} {names others extra : List String} {schema : Schema}
    (perm : others.Perm (names ++ extra))
    (foreign : ∀ s ∈ extra, ∀ schema : Schema, s ∉ schema.columns)
    (solid : ∀ s ∈ others, Text.trimmed s = s) (found : Schema.detect source names = .ok schema)
    (other : String) : Schema.detect other others = .ok schema := by
  have first : names.map Text.trimmed = names :=
    Schema.trimmedAll fun s mem => solid s (perm.mem_iff.mpr (List.mem_append_left extra mem))
  have second : others.map Text.trimmed = others := Schema.trimmedAll solid
  have alike (schema : Schema) :
      schema.columns.all others.contains = schema.columns.all names.contains :=
    askedAlike perm fun s mem => foreign s mem schema
  unfold Schema.detect at found ⊢
  simp only [first, second, alike] at found ⊢
  split
  · rename_i pools
    rwa [if_pos pools] at found
  · rename_i none
    rw [if_neg none] at found
    split
    · rename_i legacy
      rwa [if_pos legacy] at found
    · rename_i neither
      rw [if_neg neither] at found
      cases found

theorem lineAmong (wide : Widened columns wider) (schema : Schema) (k : Fin n) :
    Among schema.columns ((columns.map Column.name).zip (line columns k))
      ((wider.map Column.name).zip (line wider k)) := by
  obtain ⟨extra, perm, foreign⟩ := wide.among
  unfold line
  rw [List.zip_map', List.zip_map']
  refine ⟨extra.map fun c => (c.name, c.cells k), ?_, List.forall_mem_map.mpr fun c mem => ?_⟩
  · rw [← List.map_append]
    exact perm.map _
  · exact foreign c mem schema

theorem dataRowsAmong {read : Position → List (String × String) → Except TableError α}
    {schema : Schema} (wide : Widened columns wider)
    (kept : ∀ {row others : List (String × String)}, Among schema.columns row others →
      ∀ {place : Position} {a : α}, read place row = .ok a → ∀ other, read other others = .ok a)
    {ks : List (Fin n)} {records others : List Delimited.Record} {out : List α}
    (shown : records.mapM cellsOf = .ok (ks.map (line columns)))
    (also : others.mapM cellsOf = .ok (ks.map (line wider)))
    (known : records.mapM (dataRow (columns.map Column.name) read) = .ok out) :
    others.mapM (dataRow (wider.map Column.name) read) = .ok out := by
  -- Both files have one line for each of `ks`: their records pair up along the indices.
  rw [Results.mapMMap] at shown also
  induction ks generalizing records others out with
  | nil =>
    cases List.map_eq_nil_iff.mp shown
    cases List.map_eq_nil_iff.mp also
    exact known
  | cons k more ih =>
    obtain ⟨r, rest, rfl, own, later⟩ := List.map_eq_cons_iff.mp shown
    obtain ⟨s, remaining, rfl, wideOwn, wideLater⟩ := List.map_eq_cons_iff.mp also
    obtain ⟨a, tail, first, others, rfl⟩ := Results.mapMCons.mp known
    obtain ⟨cells, text, _, value⟩ := dataRowOk.mp first
    cases own.symm.trans text
    refine Results.mapMCons.mpr ⟨a, tail, dataRowOk.mpr ⟨_, wideOwn, ?_, ?_⟩, ?_, rfl⟩
    · simp [line]
    · exact kept (lineAmong wide schema k) value s.place
    · exact ih later wideLater others

theorem rowsAmong {schema : Schema} {records others : List Delimited.Record} {t : Table}
    (wide : Widened columns wider)
    (shown : records.mapM cellsOf = .ok ((List.finRange n).map (line columns)))
    (also : others.mapM cellsOf = .ok ((List.finRange n).map (line wider)))
    (known : rows schema (columns.map Column.name) records = .ok t) :
    rows schema (wider.map Column.name) others = .ok t := by
  cases schema with
  | pools =>
    obtain ⟨out, read, rfl⟩ := Results.mapOk.mp known
    exact Results.mapOk.mpr ⟨out, dataRowsAmong wide poolRowAmong shown also read, rfl⟩
  | legacy =>
    obtain ⟨out, read, rfl⟩ := Results.mapOk.mp known
    exact Results.mapOk.mpr ⟨out, dataRowsAmong wide legacyRowAmong shown also read, rfl⟩

theorem shownCons {bytes : List UInt8} {names : List String} {data : List (List String)} :
    shown bytes = .ok (names :: data) ↔ header (Delimited.records bytes) = .ok names ∧
      Delimited.records bytes ≠ [] ∧ (Delimited.records bytes).tail.mapM cellsOf = .ok data := by
  unfold shown
  cases Delimited.records bytes with
  | nil => simp [pure, Except.pure]
  | cons first rest =>
    rw [Results.mapMCons]
    constructor
    · rintro ⟨head, tail, named, others, same⟩
      cases same
      exact ⟨textsPlaced named _ _ _, List.cons_ne_nil _ _, others⟩
    · rintro ⟨named, _, others⟩
      exact ⟨names, data, textsPlaced named _ _ _, others, rfl⟩

theorem textsTrimmed {margin : List UInt8 → Nat} {place : Position} {index : Nat}
    {fields : List (List UInt8)} {out : List String}
    (read : texts margin place index fields = .ok out) :
    ∀ s ∈ out, Text.trimmed s = s := by
  have all := textsOk.mp read
  clear read
  induction all with
  | nil => exact List.forall_mem_nil _
  | cons own _ ih =>
    obtain ⟨cs, _, rfl⟩ := own
    refine List.forall_mem_cons.mpr ⟨?_, ih⟩
    unfold Text.trimmed
    rw [String.toList_ofList, ← Text.trimPadded (Text.paddedTrim cs)]

theorem headerTrimmed {records : List Delimited.Record} {names : List String}
    (named : header records = .ok names) : ∀ s ∈ names, Text.trimmed s = s := by
  cases records with
  | nil =>
    cases named
    exact List.forall_mem_nil _
  | cons first rest => exact textsTrimmed named

theorem dataRowsShown {names : List String}
    {read : Position → List (String × String) → Except TableError α} {records : List Delimited.Record}
    {out : List α} (known : records.mapM (dataRow names read) = .ok out) :
    ∃ data, records.mapM cellsOf = .ok data ∧ ∀ cells ∈ data, cells.length = names.length := by
  have each : ∀ r ∈ records, ∃ cells, cellsOf r = .ok cells ∧ cells.length = names.length := by
    intro r mem
    obtain ⟨a, own⟩ := Results.mapMDone.mp ⟨out, known⟩ r mem
    obtain ⟨cells, text, length, _⟩ := dataRowOk.mp own
    exact ⟨cells, text, length⟩
  obtain ⟨data, text⟩ := Results.mapMDone.mpr fun r mem => (each r mem).imp fun _ => And.left
  refine ⟨data, text, fun cells mem => ?_⟩
  obtain ⟨r, held, own⟩ := (Results.mapMMem text cells).mp mem
  obtain ⟨others, also, length⟩ := each r held
  cases own.symm.trans also
  exact length

def columnsOf (names : List String) (data : List (List String)) : List (Column data.length) :=
  List.ofFn fun i : Fin names.length => ⟨names[i], fun k => data[k].getD i ""⟩

theorem columnsOfNames (names : List String) (data : List (List String)) :
    (columnsOf names data).map Column.name = names := by
  unfold columnsOf
  rw [List.map_ofFn]
  exact List.ofFn_getElem

theorem columnsOfLines {names : List String} {data : List (List String)}
    (fits : ∀ cells ∈ data, cells.length = names.length) :
    (List.finRange data.length).map (line (columnsOf names data)) = data := by
  have own (k : Fin data.length) : line (columnsOf names data) k = data[k] := by
    have width : data[k].length = names.length := fits data[k] (List.getElem_mem k.isLt)
    unfold line columnsOf
    rw [List.map_ofFn]
    refine List.ext_getElem (by rw [List.length_ofFn, width]) fun i _ held => ?_
    rw [List.getElem_ofFn]
    exact List.getElem_eq_getD "" |>.symm
  rw [List.map_congr_left fun k _ => own k]
  exact List.map_getElem_finRange data

theorem rowsShown {schema : Schema} {names : List String} {records : List Delimited.Record}
    {t : Table} (known : rows schema names records = .ok t) :
    ∃ data, records.mapM cellsOf = .ok data ∧ ∀ cells ∈ data, cells.length = names.length := by
  cases schema with
  | pools =>
    obtain ⟨out, read, _⟩ := Results.mapOk.mp known
    exact dataRowsShown read
  | legacy =>
    obtain ⟨out, read, _⟩ := Results.mapOk.mp known
    exact dataRowsShown read

theorem acceptedShown {source : String} {bytes : List UInt8} {t : Table}
    (read : (ofBytes source bytes).result = .ok t) :
    ∃ n, ∃ columns : List (Column n), Shows bytes columns := by
  obtain ⟨names, schema, named, found, known⟩ := ofBytesOk.mp read
  have some : Delimited.records bytes ≠ [] := by
    intro none
    rw [none] at named
    cases named
    exact absurd found (by simp [Schema.detect, Schema.columns])
  obtain ⟨data, text, fits⟩ := rowsShown known
  refine ⟨data.length, columnsOf names data, ?_⟩
  rw [Shows, columnsOfNames, columnsOfLines fits]
  exact shownCons.mpr ⟨named, some, text⟩

/-- A table that is read shows columns. A file that shows the same columns in one other order, and
further ones under names of neither schema, is read as the same table. -/
theorem readByName {source : String} {bytes : List UInt8} {t : Table}
    (read : (ofBytes source bytes).result = .ok t) :
    (∃ n, ∃ columns : List (Column n), Shows bytes columns) ∧
    ∀ (n : Nat) (columns wider : List (Column n)) (other : String) (others : List UInt8),
      Shows bytes columns → Widened columns wider → Shows others wider →
        (ofBytes other others).result = .ok t := by
  refine ⟨acceptedShown read, fun n columns wider other others shows wide also => ?_⟩
  obtain ⟨names, schema, named, found, known⟩ := ofBytesOk.mp read
  obtain ⟨own, _, first⟩ := shownCons.mp shows
  cases named.symm.trans own
  obtain ⟨header, _, second⟩ := shownCons.mp also
  obtain ⟨extra, perm, foreign⟩ := wide.among
  have solid : ∀ s ∈ wider.map Column.name, Text.trimmed s = s := headerTrimmed header
  have names : (wider.map Column.name).Perm (columns.map Column.name ++ extra.map Column.name) := by
    rw [← List.map_append]
    exact perm.map _
  refine ofBytesOk.mpr ⟨_, schema, header, ?_, rowsAmong wide first second known⟩
  exact detectAmong names (List.forall_mem_map.mpr foreign) solid found other

def narrowText : String :=
  "type,pageSize,startOffset,endOffset\nmmap,-1,0,0x1000\nbrk,4096,0,4096\n"

def wideText : String :=
  "\uFEFFendOffset, note ,startOffset,Type,pageSize,\"type\"\r\n" ++
    "0x1000,\"a,\"\"b\",0,é, -1,mmap\r\n4096,,0,,4096,\" brk\""

def narrowColumns : List (Column 2) := [
  ⟨"type", !["mmap", "brk"]⟩, ⟨"pageSize", !["-1", "4096"]⟩, ⟨"startOffset", !["0", "0"]⟩,
  ⟨"endOffset", !["0x1000", "4096"]⟩]

def wideColumns : List (Column 2) := [
  ⟨"endOffset", !["0x1000", "4096"]⟩, ⟨"note", !["a,\"b", ""]⟩, ⟨"startOffset", !["0", "0"]⟩,
  ⟨"Type", !["é", ""]⟩, ⟨"pageSize", !["-1", "4096"]⟩, ⟨"type", !["mmap", "brk"]⟩]

theorem narrowShown : Shows (Utf8.encode narrowText.toList) narrowColumns := by
  have text : shown (Utf8.encode narrowText.toList) = .ok [
      ["type", "pageSize", "startOffset", "endOffset"], ["mmap", "-1", "0", "0x1000"],
      ["brk", "4096", "0", "4096"]] := by cbv
  exact text

theorem wideShown : Shows (Utf8.encode wideText.toList) wideColumns := by
  have text : shown (Utf8.encode wideText.toList) = .ok [
      ["endOffset", "note", "startOffset", "Type", "pageSize", "type"],
      ["0x1000", "a,\"b", "0", "é", "-1", "mmap"], ["4096", "", "0", "", "4096", "brk"]] := by cbv
  exact text

theorem narrowRead : (ofBytes "narrow.csv" (Utf8.encode narrowText.toList)).result =
    .ok (.legacy [⟨"mmap", -1, 0, 4096⟩, ⟨"brk", 4096, 0, 4096⟩]) := by
  refine ofBytesOk.mpr ⟨["type", "pageSize", "startOffset", "endOffset"], .legacy, ?_, ?_, ?_⟩
  · cbv
  · decide +kernel
  · cbv

theorem wideWidened : Widened narrowColumns wideColumns := by
  have turned : Widened narrowColumns narrowColumns.reverse :=
    .reorder (List.reverse_perm _).symm
  have typed := @Widened.insert 2 _ (narrowColumns.reverse.take 2) (narrowColumns.reverse.drop 2)
    ⟨"Type", !["é", ""]⟩ turned (fun schema => by cases schema <;> decide)
  exact @Widened.insert 2 _ (narrowColumns.reverse.take 1) (wideColumns.drop 2)
    ⟨"note", !["a,\"b", ""]⟩ typed (fun schema => by cases schema <;> decide)

theorem wideRead : (ofBytes "wide.csv" (Utf8.encode wideText.toList)).result =
    .ok (.legacy [⟨"mmap", -1, 0, 4096⟩, ⟨"brk", 4096, 0, 4096⟩]) :=
  (readByName narrowRead).2 2 narrowColumns wideColumns "wide.csv" _ narrowShown wideWidened wideShown

end HugePools.Table
