import HugePools.PageSize
import HugePools.Rows
import HugePools.Run

/-! Why a table, a layout, a legacy region or the settings were refused, and the text
that is shown for it. -/
namespace HugePools

inductive StoreError where
  | notFound | notDirectory | isDirectory | nameTooLong | noSpace | nulInName
  | other (text : String) (code : Nat)
  deriving DecidableEq, Repr

def StoreError.message : StoreError → String
  | .notFound => "No such file or directory (os error 2)"
  | .notDirectory => "Not a directory (os error 20)"
  | .isDirectory => "Is a directory (os error 21)"
  | .nameTooLong => "File name too long (os error 36)"
  | .noSpace => "No space left on device (os error 28)"
  | .nulInName => "file name contained an unexpected NUL byte"
  | .other text code => s!"{text} (os error {code})"

/-- Where a record begins: its number, and the line and byte at which the record before
it ended. -/
structure Position where
  record : Nat
  line : Nat
  byte : Nat
  deriving DecidableEq, Repr

inductive TableError where
  | store (cause : StoreError)
  | fieldCount (place : Position) (found expected : Nat)
  | encoding (place : Position) (field index : Nat)
  | integer (place : Position) (field : Nat) (cause : Integer.Fault)
  | repeatedColumn (place : Position) (column : String)
  | missingColumn (place : Position) (column : String)
  deriving DecidableEq, Repr

namespace TableError

def decoding (p : Position) : String :=
  s!"CSV deserialize error: record {p.record} (line: {p.line}, byte: {p.byte}): "

def message : TableError → String
  | .store cause => cause.message
  | .fieldCount p found expected =>
    s!"CSV error: record {p.record} (line: {p.line}, byte: {p.byte}): " ++
      s!"found record with {found} fields, but the previous record has {expected} fields"
  | .encoding p field index =>
    s!"CSV parse error: record {p.record} (line {p.line}, field: {field}, byte: {p.byte}): " ++
      s!"invalid utf-8: invalid UTF-8 in field {field} near byte index {index}"
  | .integer p field cause => decoding p ++ s!"field {field}: {cause.message}"
  | .repeatedColumn p column => decoding p ++ s!"duplicate field `{column}`"
  | .missingColumn p column => decoding p ++ s!"missing field `{column}`"

end TableError

inductive SettingsError where
  | unreadable (path : String) (cause : StoreError)
  | notText (path : String)
  | malformed
  deriving DecidableEq, Repr

def SettingsError.message : SettingsError → String
  | .unreadable path cause => s!"cannot read config '{path}': {cause.message}"
  | .notText path => s!"cannot read config '{path}': stream did not contain valid UTF-8"
  | .malformed => "TOML parse error:"

inductive LayoutError where
  | invalidField (pool : PoolKind) (field : String) (cause : QuantityError)
  | unknownPoolKind (text : String)
  | missingPool (pool : PoolKind)
  | missingPoolSize (pool : PoolKind)
  | repeatedPoolSize (pool : PoolKind) (count : Nat)
  | unknownPageSize (pool : PoolKind) (pageSize : Int)
  | unsupportedPageSize (page : PageSize)
  | negativeOffset (pool : PoolKind) (start stop : Int)
  | negativeLength (pool : PoolKind) (page : PageSize) (start stop : Nat)
  | outOfBounds (pool : PoolKind) (page : PageSize) (range : ByteRange) (poolSize : Nat)
  | misalignedOffset (pool : PoolKind) (page : PageSize) (offset : Nat)
  | misalignedOffsetDelta (pool : PoolKind) (offset2MB offset1GB : Nat)
  | misalignedRegion (pool : PoolKind) (page : PageSize) (start stop : Nat)
  | misalignedDelta (pool : PoolKind) (between : String) (delta : Nat) (alignment : PageSize)
  | interleave (pool : PoolKind) (range2MB range1GB : ByteRange)
  | overlap (pool : PoolKind) (first second : ByteRange)
  | offsetOverflow (pool : PoolKind) (offset : Nat)
  | unrecognizedSchema (source : String) (columns : List String)
  | store (cause : StoreError)
  | table (cause : TableError)
  | settings (cause : SettingsError)
  deriving DecidableEq, Repr

namespace LayoutError

def message : LayoutError → String
  | .invalidField pool field cause => s!"{pool.name} pool: invalid '{field}' value: {cause.message}"
  | .unknownPoolKind text => s!"unknown pool type '{text}' (expected brk, mmap or file)"
  | .missingPool pool => s!"configuration has no row for the {pool.name} pool"
  | .missingPoolSize pool => s!"{pool.name} pool: missing pool size (no pageSize=-1 row)"
  | .repeatedPoolSize pool count =>
    s!"{pool.name} pool: {count} pool-size rows (pageSize=-1), expected exactly one"
  | .unknownPageSize pool pageSize => s!"{pool.name} pool: unsupported page size {pageSize}"
  | .unsupportedPageSize page =>
    s!"page size {page.label} has no region list (expected 2MB or 1GB)"
  | .negativeOffset pool start stop =>
    s!"{pool.name} pool: negative offset in interval {start}-{stop}"
  | .negativeLength pool page start stop =>
    s!"{pool.name} pool: {page.label} region ends before it starts: {start}-{stop}"
  | .outOfBounds pool page range poolSize =>
    s!"{pool.name} pool: {page.label} region {range.text} exceeds the pool size {poolSize}"
  | .misalignedOffset pool page offset =>
    s!"{pool.name} pool: {page.label}-region offset {offset} is not aligned to 4KB"
  | .misalignedOffsetDelta pool offset2MB offset1GB =>
    s!"{pool.name} pool: 2MB-region offset {offset2MB} and 1GB-region offset {offset1GB} " ++
      "are both set but their difference is not aligned to 1GB"
  | .misalignedRegion pool page start stop =>
    s!"{pool.name} pool: {page.label} region {start}-{stop} is not aligned"
  | .misalignedDelta pool between delta alignment =>
    s!"{pool.name} pool: invalid delta {delta} between {between} offsets " ++
      s!"(must be a multiple of {alignment.label})"
  | .interleave pool range2MB range1GB =>
    s!"{pool.name} pool has interleaved hugepage ranges: " ++
      s!"2MB{range2MB.text} - 1GB{range1GB.text}"
  | .overlap pool first second =>
    s!"{pool.name} pool: regions are overlapping: {first.text} and {second.text}"
  | .offsetOverflow pool offset =>
    s!"{pool.name} pool: offset {offset} does not fit the legacy format"
  | .unrecognizedSchema source columns =>
    s!"'{source}' is neither a pool configuration nor a legacy configuration " ++
      "(columns: " ++ ",".intercalate columns ++ ")"
  | .store cause => s!"I/O error: {cause.message}"
  | .table cause => s!"CSV error: {cause.message}"
  | .settings cause => s!"configuration error: {cause.message}"

def isMalformed : LayoutError → Bool
  | .store _ => false
  | .table _ => false
  | .settings _ => false
  | _ => true

def cause? : LayoutError → Option QuantityError
  | .invalidField _ _ cause => some cause
  | _ => none

end LayoutError
end HugePools
