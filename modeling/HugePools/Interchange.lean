import HugePools.Json
import HugePools.PageSet
import HugePools.PageSize
import HugePools.Interval
import HugePools.Pool

/-! The JSON forms of the library's values. Structures are read from an object, where
unknown members do not count, or from an array of all members in order; names from a
string, or from an object of the name with nothing. -/
namespace HugePools.Interchange

def word? : Json → Option Nat
  | .integer n => if 0 ≤ n ∧ n < 0x10000000000000000 then some n.toNat else none
  | _ => none

def signed? : Json → Option Int64
  | .integer n => if -0x8000000000000000 ≤ n ∧ n < 0x8000000000000000 then some (Int64.ofInt n) else none
  | _ => none

def string? : Json → Option String
  | .string s => some s
  | _ => none

def members? (names : List String) : Json → Option (List (Option Json))
  | .object members => some (names.map (Json.get? members))
  | .array items => if items.length = names.length then some (items.map some) else none
  | _ => none

def named? {α : Type} (names : List (String × α)) : Json → Option α
  | .string s => (names.find? fun n => n.1 = s).map Prod.snd
  | .object [(s, .null)] => (names.find? fun n => n.1 = s).map Prod.snd
  | _ => none

def pageSizeName : PageSize → String
  | .base => "base4_kb"
  | .large => "large2_mb"
  | .huge => "huge1_gb"

def pageSizeNames : List (String × PageSize) :=
  [PageSize.base, .large, .huge].map fun p => (pageSizeName p, p)

def poolTypeNames : List (String × PoolKind) := PoolKind.all.map fun p => (p.name, p)

def size? (j : Json) : Option Json := (word? j).map .natural

def pageSize? (j : Json) : Option Json :=
  (named? pageSizeNames j).map fun p => .string (pageSizeName p)

def poolType? (j : Json) : Option Json :=
  (named? poolTypeNames j).map fun p => .string p.name

def words? (first second : String) (j : Json) : Option Json := do
  match ← members? [first, second] j with
  | [some a, some b] =>
    let a ← word? a
    let b ← word? b
    return .object [(first, .natural a), (second, .natural b)]
  | _ => none

def run? : Json → Option Json := words? "first" "last"

def byteRange (r : ByteRange) : Json :=
  .object [("start", .natural r.start), ("end", .natural r.stop)]

def byteRange? : Json → Option Json := words? "start" "end"

def poolRow (r : PoolRow) : Json :=
  .object [("pool_type", .string r.poolType), ("pool_size", .string r.poolSize),
    ("ragions_list_2mb", .string r.list2MB), ("offset_2mb", .string r.offset2MB),
    ("ragions_list_1gb", .string r.list1GB), ("offset_1gb", .string r.offset1GB)]

def poolRow? (j : Json) : Option Json := do
  match ← members? Schema.pools.columns j with
  | [some poolType, some poolSize, list2MB, some offset2MB, list1GB, some offset1GB] =>
    return poolRow {
      poolType := ← string? poolType
      poolSize := ← string? poolSize
      list2MB := ← string? (list2MB.getD (.string ""))
      offset2MB := ← string? offset2MB
      list1GB := ← string? (list1GB.getD (.string ""))
      offset1GB := ← string? offset1GB }
  | _ => none

def legacyRow (r : LegacyRow) : Json :=
  .object [("type", .string r.poolType), ("pageSize", .integer r.pageSize.toInt),
    ("startOffset", .integer r.startOffset.toInt), ("endOffset", .integer r.endOffset.toInt)]

def legacyRow? (j : Json) : Option Json := do
  match ← members? Schema.legacy.columns j with
  | [some poolType, some pageSize, some startOffset, some endOffset] =>
    return legacyRow {
      poolType := ← string? poolType
      pageSize := ← signed? pageSize
      startOffset := ← signed? startOffset
      endOffset := ← signed? endOffset }
  | _ => none

def pageSet (s : PageSet) : Json := .string s.encode

def readPageSet (j : Json) : Except (Option QuantityError) PageSet :=
  match string? j with
  | none => .error none
  | some s => (PageSet.parse s).mapError some

def pageSet? (j : Json) : Except (Option QuantityError) Json := (readPageSet j).map pageSet

def intervalKind : IntervalKind → Json
  | .poolSize => .string "PoolSize"
  | .page p => .object [("Page", .string (pageSizeName p))]

def interval (i : Interval) : Json :=
  .object [("pool_type", .string i.pool.name), ("page_size", intervalKind i.kind),
    ("start_offset", .natural i.start), ("end_offset", .natural i.stop)]

def pool (p : Pool) : Json :=
  .object [("pool_type", .string p.kind.name), ("pool_size", .natural p.size.bytes),
    ("regions_2mb", pageSet p.large.pages), ("offset_2mb", .natural p.large.offset.bytes),
    ("regions_1gb", pageSet p.huge.pages), ("offset_1gb", .natural p.huge.offset.bytes)]

end HugePools.Interchange
