import HugePools.Delimited
import HugePools.Journal
import HugePools.Utf8

/-! Tables of the two schemas. The header names the columns; which columns it has decides
the schema, and rows are read by column name. -/
namespace HugePools

inductive Table where
  | pools (rows : List PoolRow)
  | legacy (rows : List LegacyRow)
  deriving DecidableEq, Repr

namespace Schema

def detect (source : String) (columns : List String) : Except LayoutError Schema :=
  let columns := columns.map Text.trimmed
  if Schema.pools.columns.all columns.contains then .ok .pools
  else if Schema.legacy.columns.all columns.contains then .ok .legacy
  else .error (.unrecognizedSchema source columns)

end Schema

structure Cell (α : Type) where
  column : String
  value : α
  deriving DecidableEq, Repr

namespace Table

/-- The fields of a record as text. What is not text is reported where it stands after the
field's margin. -/
def texts (margin : List UInt8 → Nat) (place : Position) :
    Nat → List (List UInt8) → Except TableError (List String)
  | _, [] => .ok []
  | index, bytes :: rest =>
    match Utf8.decode bytes with
    | .error bad => .error (.encoding place index (bad - margin bytes))
    | .ok s => do
      let others ← texts margin place (index + 1) rest
      return String.ofList (Text.trim s) :: others

def cells {α : Type} (place : Position) (needed : List String)
    (read : String → String → Except Integer.Fault α) :
    Nat → List String → List (String × String) → Except TableError (List (Cell α))
  | _, _, [] => .ok []
  | index, seen, (column, text) :: rest =>
    if column ∉ needed then cells place needed read (index + 1) seen rest
    else if column ∈ seen then .error (.repeatedColumn place column)
    else
      match read column text with
      | .error fault => .error (.integer place index fault)
      | .ok value => do
        let others ← cells place needed read (index + 1) (column :: seen) rest
        return ⟨column, value⟩ :: others

def value {α : Type} (place : Position) (row : List (Cell α)) (column : String) :
    Except TableError α :=
  match row.find? fun c => c.column = column with
  | some c => .ok c.value
  | none => .error (.missingColumn place column)

def poolRow (place : Position) (row : List (String × String)) :
    Except TableError PoolRow := do
  let row ← cells place Schema.pools.columns (fun _ text => .ok text) 0 [] row
  return {
    poolType := ← value place row "pool_type"
    poolSize := ← value place row "pool_size"
    list2MB := ← value place row "ragions_list_2mb"
    offset2MB := ← value place row "offset_2mb"
    list1GB := ← value place row "ragions_list_1gb"
    offset1GB := ← value place row "offset_1gb" }

inductive LegacyValue where
  | text (s : String)
  | integer (n : Int64)
  deriving DecidableEq, Repr

def legacyValue (column text : String) : Except Integer.Fault LegacyValue :=
  if column = "type" then .ok (.text text) else (Integer.parse text.toList).map .integer

def textOf (place : Position) (row : List (Cell LegacyValue)) (column : String) :
    Except TableError String := do
  match ← value place row column with
  | .text s => return s
  | .integer _ => throw (.missingColumn place column)

def integerOf (place : Position) (row : List (Cell LegacyValue)) (column : String) :
    Except TableError Int64 := do
  match ← value place row column with
  | .integer n => return n
  | .text _ => throw (.missingColumn place column)

def legacyRow (place : Position) (row : List (String × String)) :
    Except TableError LegacyRow := do
  let row ← cells place Schema.legacy.columns legacyValue 0 [] row
  return {
    poolType := ← textOf place row "type"
    pageSize := ← integerOf place row "pageSize"
    startOffset := ← integerOf place row "startOffset"
    endOffset := ← integerOf place row "endOffset" }

/-- One data row: as many fields as the header, all of them text, and the columns of the
schema readable; in this order. -/
def dataRow {α : Type} (header : List String)
    (read : Position → List (String × String) → Except TableError α)
    (r : Delimited.Record) : Except TableError α := do
  if r.contents.length ≠ header.length then
    throw (.fieldCount r.place r.contents.length header.length)
  let row ← texts Delimited.blanks r.place 0 r.contents
  read r.place (header.zip row)

def rows (schema : Schema) (header : List String) (data : List Delimited.Record) :
    Except TableError Table :=
  match schema with
  | .pools => (data.mapM (dataRow header poolRow)).map .pools
  | .legacy => (data.mapM (dataRow header legacyRow)).map .legacy

def header : List Delimited.Record → Except TableError (List String)
  | [] => .ok []
  | first :: _ => texts (fun _ => 0) first.place 0 first.contents

def ofBytes (source : String) (bytes : List UInt8) : Journal LayoutError Table := do
  let records := Delimited.records bytes
  let columns ← .ofExcept ((header records).mapError .table)
  let schema ← .ofExcept (Schema.detect source columns)
  Journal.tell [.detected source schema]
  .ofExcept ((rows schema columns records.tail).mapError .table)

def schema : Table → Schema
  | .pools _ => .pools
  | .legacy _ => .legacy

def length : Table → Nat
  | .pools rows => rows.length
  | .legacy rows => rows.length

def isEmpty (t : Table) : Bool := t.length = 0

end Table
end HugePools
