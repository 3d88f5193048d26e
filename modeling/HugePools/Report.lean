import HugePools.Interchange
import HugePools.Reservation

/-! The inspection report of a checked layout, as a table and as JSON. -/
namespace HugePools

structure PoolReport where
  pool : PoolKind
  size : Nat
  ranges2MB : List ByteRange
  ranges1GB : List ByteRange
  pages2MB : Nat
  pages1GB : Nat
  deriving DecidableEq, Repr

namespace PoolReport

def ofPool (p : Pool) : Except LayoutError PoolReport := do
  let ranges2MB ← p.ranges .large
  let ranges1GB ← p.ranges .huge
  return ⟨p.kind, p.size.bytes, ranges2MB, ranges1GB, p.large.pages.count,
    p.huge.pages.count⟩

def ofRegion (r : LegacyRegion) : PoolReport :=
  ⟨r.pool, r.size, r.ranges .large, r.ranges .huge, r.pageCount .large, r.pageCount .huge⟩

def json (r : PoolReport) : Json :=
  .object [("pool", .string r.pool.name), ("pool_size", .natural r.size),
    ("ranges_2mb", .array (r.ranges2MB.map Interchange.byteRange)),
    ("ranges_1gb", .array (r.ranges1GB.map Interchange.byteRange)),
    ("pages_2mb", .natural r.pages2MB), ("pages_1gb", .natural r.pages1GB)]

end PoolReport

def bytesText (n : Nat) : String :=
  if bounded : n < wordLimit then Size.text ⟨n, bounded⟩ else s!"{n} B"

structure Report where
  source : String
  schema : String
  pools : List PoolReport
  reservation : Reservation
  deriving DecidableEq, Repr

namespace Report

def json (r : Report) : Json :=
  .object [("source", .string r.source), ("schema", .string r.schema),
    ("pools", .array (r.pools.map PoolReport.json)),
    ("reservation", .object [("pages_2mb", .natural r.reservation.pages2MB),
      ("pages_1gb", .natural r.reservation.pages1GB)])]

def rangeLines (label : String) (ranges : List ByteRange) : List String :=
  ranges.map fun range => s!"        {label} {range.text}"

def poolLines (p : PoolReport) : List String :=
  ("  " ++ Text.padRight 5 p.pool.name ++ " size " ++ Text.padLeft 10 (bytesText p.size) ++
    s!"   {p.pages2MB} x 2MB, {p.pages1GB} x 1GB") ::
  (rangeLines "2MB" p.ranges2MB ++ rangeLines "1GB" p.ranges1GB)

def lines (r : Report) : List String :=
  ["╔══════════════════════════════════════════════════════╗",
   "║               hpl · Pool Layout Inspector            ║",
   "╚══════════════════════════════════════════════════════╝",
   "",
   s!"  Source: {r.source}",
   s!"  Schema: {r.schema}",
   ""] ++
  r.pools.flatMap poolLines ++
  ["",
   "  Reservation (brk + mmap)",
   s!"   Exact:   {r.reservation.text}",
   s!"   Padded:  {r.reservation.padded.text}",
   s!"   Memory:  {bytesText r.reservation.totalBytes}",
   ""]

end Report
end HugePools
