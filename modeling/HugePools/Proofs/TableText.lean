import HugePools.Proofs.BareText
import HugePools.Proofs.TableReading

/-! Tables of bare cells in either schema, read as the rows that they were made of. A bare
cell stands for itself, and a row has as many as there are columns. -/
namespace HugePools

def PoolRow.texts (r : PoolRow) : List (List Char) :=
  [r.poolType.toList, r.poolSize.toList, r.list2MB.toList, r.offset2MB.toList,
    r.list1GB.toList, r.offset1GB.toList]

def LegacyRow.texts (r : LegacyRow) : List (List Char) :=
  [r.poolType.toList, Integer.chars r.pageSize, Integer.chars r.startOffset,
    Integer.chars r.endOffset]

theorem LegacyRow.textsBare {r : LegacyRow} (bare : Text.Bare r.poolType.toList) :
    ∀ s ∈ r.texts, Text.Bare s := by
  simp only [texts, List.forall_mem_cons]
  exact ⟨bare, Text.integerBare _, Text.integerBare _, Text.integerBare _,
    List.forall_mem_nil _⟩

namespace Schema

def fields (schema : Schema) (rows : List (List (List Char))) : List (List (List UInt8)) :=
  (schema.columns.map String.toList :: rows).map fun row => row.map Utf8.encode

def bytes (schema : Schema) (rows : List (List (List Char))) : List UInt8 :=
  (schema.fields rows).flatMap Delimited.line

def Fits (schema : Schema) (row : List (List Char)) : Prop :=
  row.length = schema.columns.length ∧ ∀ s ∈ row, Text.Bare s

theorem columnsFit (schema : Schema) : schema.Fits (schema.columns.map String.toList) := by
  refine ⟨List.length_map _, ?_⟩
  cases schema with
  | pools =>
    simp only [columns, List.map_cons, List.map_nil, List.forall_mem_cons]
    exact ⟨by decide, by decide, by decide, by decide, by decide, by decide,
      List.forall_mem_nil _⟩
  | legacy =>
    simp only [columns, List.map_cons, List.map_nil, List.forall_mem_cons]
    exact ⟨by decide, by decide, by decide, by decide, List.forall_mem_nil _⟩

theorem detectColumns (source : String) (schema : Schema) :
    detect source schema.columns = .ok schema := by
  have kept : schema.columns.map Text.trimmed = schema.columns := by
    refine trimmedAll fun s mem => ?_
    unfold Text.trimmed
    rw [Text.trimBare (schema.columnsFit.2 _ (List.mem_map_of_mem mem)), String.ofList_toList]
  unfold detect
  simp only [kept]
  cases schema with
  | pools => exact if_pos (by decide)
  | legacy => rw [if_neg (by decide), if_pos (by decide)]

theorem fieldsWritten {schema : Schema} {rows : List (List (List Char))}
    (fits : ∀ row ∈ rows, schema.Fits row) :
    ∀ line ∈ schema.fields rows, Delimited.Written line := by
  intro line mem
  obtain ⟨row, held, rfl⟩ := List.mem_map.mp mem
  have fit : schema.Fits row := by
    rcases List.mem_cons.mp held with rfl | later
    · exact schema.columnsFit
    · exact fits row later
  refine ⟨?_, ?_⟩
  · intro f field
    obtain ⟨s, own, rfl⟩ := List.mem_map.mp field
    exact Text.encodeBare (fit.2 s own)
  · have several : 1 < row.length := by
      rw [fit.1]
      cases schema <;> decide
    cases row with
    | nil => contradiction
    | cons s more =>
      cases more with
      | nil => contradiction
      | cons t rest => simp [Delimited.joined]

end Schema

namespace Table

theorem textsBare {margin : List UInt8 → Nat} {place : Position} {index : Nat}
    {fields : List (List Char)} (bare : ∀ s ∈ fields, Text.Bare s) :
    texts margin place index (fields.map Utf8.encode) = .ok (fields.map String.ofList) := by
  refine textsOk.mpr (List.forall₂_map_left_iff.mpr (List.forall₂_map_right_iff.mpr ?_))
  refine List.forall₂_same.mpr fun s mem => ⟨s, Utf8.decodeEncode s, ?_⟩
  rw [Text.trimBare (bare s mem)]

theorem cellsRead {α : Type} {place : Position} {needed : List String}
    {read : String → String → Except Integer.Fault α} {index : Nat}
    {row : List (Cell α × String)} (known : ∀ e ∈ row, e.1.column ∈ needed)
    (distinct : (row.map fun e => e.1.column).Nodup)
    (ok : ∀ e ∈ row, read e.1.column e.2 = .ok e.1.value) :
    cells place needed read index [] (row.map fun e => (e.1.column, e.2)) =
      .ok (row.map Prod.fst) := by
  have all : asked needed (row.map fun e => (e.1.column, e.2)) =
      row.map fun e => (e.1.column, e.2) :=
    List.filter_eq_self.mpr (List.forall_mem_map.mpr fun e mem => decide_eq_true (known e mem))
  refine cellsOk.mpr ⟨?_, fun _ _ => List.not_mem_nil, ?_⟩
  · rwa [all, List.map_map]
  · rw [all, Results.mapMMap, List.map_map, List.map_map]
    refine List.map_congr_left fun e mem => ?_
    exact Results.mapOk.mpr ⟨e.1.value, ok e mem, rfl⟩

theorem poolRowRead (place : Position) (r : PoolRow) :
    poolRow place (Schema.pools.columns.zip (r.texts.map String.ofList)) = .ok r := by
  let row : List (Cell String × String) := [
    (⟨"pool_type", r.poolType⟩, r.poolType), (⟨"pool_size", r.poolSize⟩, r.poolSize),
    (⟨"ragions_list_2mb", r.list2MB⟩, r.list2MB), (⟨"offset_2mb", r.offset2MB⟩, r.offset2MB),
    (⟨"ragions_list_1gb", r.list1GB⟩, r.list1GB), (⟨"offset_1gb", r.offset1GB⟩, r.offset1GB)]
  have zipped : Schema.pools.columns.zip (r.texts.map String.ofList) =
      row.map fun e => (e.1.column, e.2) := by
    simp [row, PoolRow.texts, Schema.columns]
  have read : cells place Schema.pools.columns (fun _ text => .ok text) 0 []
      (row.map fun e => (e.1.column, e.2)) = .ok (row.map Prod.fst) :=
    cellsRead (by simp [row, Schema.columns]) (by simp [row]) (by simp [row])
  unfold poolRow
  rw [zipped, read]
  rfl

theorem legacyRowRead (place : Position) (r : LegacyRow) :
    legacyRow place (Schema.legacy.columns.zip (r.texts.map String.ofList)) = .ok r := by
  have integer {column : String} (other : column ≠ "type") (n : Int64) :
      legacyValue column (String.ofList (Integer.chars n)) = .ok (.integer n) := by
    unfold legacyValue
    rw [if_neg other, String.toList_ofList, Integer.parseChars]
    rfl
  let row : List (Cell LegacyValue × String) := [
    (⟨"type", .text r.poolType⟩, r.poolType),
    (⟨"pageSize", .integer r.pageSize⟩, String.ofList (Integer.chars r.pageSize)),
    (⟨"startOffset", .integer r.startOffset⟩, String.ofList (Integer.chars r.startOffset)),
    (⟨"endOffset", .integer r.endOffset⟩, String.ofList (Integer.chars r.endOffset))]
  have zipped : Schema.legacy.columns.zip (r.texts.map String.ofList) =
      row.map fun e => (e.1.column, e.2) := by
    simp [row, LegacyRow.texts, Schema.columns]
  have values : ∀ e ∈ row, legacyValue e.1.column e.2 = .ok e.1.value := by
    simp only [row, List.forall_mem_cons]
    exact ⟨rfl, integer (by decide) _, integer (by decide) _, integer (by decide) _,
      List.forall_mem_nil _⟩
  have read : cells place Schema.legacy.columns legacyValue 0 []
      (row.map fun e => (e.1.column, e.2)) = .ok (row.map Prod.fst) :=
    cellsRead (by simp [row, Schema.columns]) (by simp [row]) values
  unfold legacyRow
  rw [zipped, read]
  rfl

theorem dataRowsRead {α : Type} {schema : Schema} {texts : α → List (List Char)}
    {read : Position → List (String × String) → Except TableError α}
    (known : ∀ place a, read place (schema.columns.zip ((texts a).map String.ofList)) = .ok a)
    {rows : List α} (fits : ∀ a ∈ rows, schema.Fits (texts a)) {data : List Delimited.Record}
    (same : data.map Delimited.Record.contents = rows.map fun a => (texts a).map Utf8.encode) :
    data.mapM (dataRow schema.columns read) = .ok rows := by
  induction rows generalizing data with
  | nil =>
    cases List.map_eq_nil_iff.mp same
    rfl
  | cons a more ih =>
    obtain ⟨record, others, rfl, first, rest⟩ := List.map_eq_cons_iff.mp same
    obtain ⟨⟨length, bare⟩, remaining⟩ := List.forall_mem_cons.mp fits
    have text : cellsOf record = .ok ((texts a).map String.ofList) := by
      unfold cellsOf
      rw [first, Table.textsBare bare]
    have one : dataRow schema.columns read record = .ok a :=
      dataRowOk.mpr ⟨_, text, (List.length_map _).trans length, known record.place a⟩
    exact Results.mapMCons.mpr ⟨a, more, one, ih remaining rest, rfl⟩

theorem ofBytesRead (source : String) {schema : Schema} {rows : List (List (List Char))}
    (fits : ∀ row ∈ rows, schema.Fits row) {t : Table}
    (loaded : ∀ data : List Delimited.Record, data.map Delimited.Record.contents =
      rows.map (fun row => row.map Utf8.encode) → Table.rows schema schema.columns data = .ok t) :
    (ofBytes source (schema.bytes rows)).result = .ok t := by
  have noMark : Delimited.byteOrderMark.isPrefixOf (schema.bytes rows) = false := by
    cases schema <;> rfl
  have read : (Delimited.recordsFrom ⟨0, 1, 0⟩ (schema.bytes rows)).map
      Delimited.Record.contents = schema.fields rows :=
    Delimited.recordsFromLines (Schema.fieldsWritten fits) ⟨0, 1, 0⟩
  have records : Delimited.records (schema.bytes rows) =
      Delimited.recordsFrom ⟨0, 1, 0⟩ (schema.bytes rows) := by
    unfold Delimited.records
    rw [noMark]
    rfl
  rw [← records] at read
  obtain ⟨first, data, found, columns, others⟩ := List.map_eq_cons_iff.mp read
  have named : header (first :: data) = .ok schema.columns := by
    change texts (fun _ => 0) first.place 0 first.contents = _
    rw [columns, textsBare schema.columnsFit.2, List.map_map]
    exact congrArg Except.ok (List.map_id'' (fun _ => String.ofList_toList) _)
  rw [ofBytesOk, found]
  exact ⟨schema.columns, schema, named, Schema.detectColumns source schema, loaded data others⟩

theorem poolsRead (source : String) {rows : List PoolRow}
    (bare : ∀ r ∈ rows, ∀ s ∈ r.texts, Text.Bare s) :
    (ofBytes source (Schema.pools.bytes (rows.map PoolRow.texts))).result = .ok (.pools rows) := by
  have fits : ∀ r ∈ rows, Schema.pools.Fits r.texts := fun r mem => ⟨rfl, bare r mem⟩
  refine ofBytesRead source (List.forall_mem_map.mpr fits) fun data same => ?_
  rw [List.map_map] at same
  exact Results.mapOk.mpr ⟨rows, dataRowsRead poolRowRead fits same, rfl⟩

theorem legacyRead (source : String) {rows : List LegacyRow}
    (bare : ∀ r ∈ rows, Text.Bare r.poolType.toList) :
    (ofBytes source (Schema.legacy.bytes (rows.map LegacyRow.texts))).result =
      .ok (.legacy rows) := by
  have fits : ∀ r ∈ rows, Schema.legacy.Fits r.texts := fun r mem =>
    ⟨rfl, LegacyRow.textsBare (bare r mem)⟩
  refine ofBytesRead source (List.forall_mem_map.mpr fits) fun data same => ?_
  rw [List.map_map] at same
  exact Results.mapOk.mpr ⟨rows, dataRowsRead legacyRowRead fits same, rfl⟩

end Table
end HugePools
