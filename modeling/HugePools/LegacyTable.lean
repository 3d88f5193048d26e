import HugePools.Interval
import HugePools.Utf8
import HugePools.Validation

/-! The legacy table of a layout: the size of each pool, then the ranges of its huge
pages, as comma-separated text. -/
namespace HugePools

namespace LegacyTable

def pageIntervals (p : Pool) (page : PageSize) : Except LayoutError (List Interval) :=
  (p.ranges page).map fun ranges => ranges.map (Interval.ofRange p.kind page)

def poolIntervals (p : Pool) : Except LayoutError (List Interval) := do
  let large ← pageIntervals p .large
  let huge ← pageIntervals p .huge
  return large ++ huge

def markers (l : Layout) : List Interval :=
  PoolKind.all.map fun kind => Interval.marker kind (l.pool kind).size.bytes

def rows (intervals : List Interval) : Except LayoutError (List LegacyRow) :=
  intervals.mapM Interval.row

def line (r : LegacyRow) : List Char :=
  [','].intercalate [r.poolType.toList, Integer.chars r.pageSize, Integer.chars r.startOffset,
    Integer.chars r.endOffset] ++ ['\n']

def header : List Char := [','].intercalate (Schema.legacy.columns.map String.toList) ++ ['\n']

def chars (intervals : List Interval) : Except LayoutError (List Char) :=
  (rows intervals).map fun rows => header ++ rows.flatMap line

def text (intervals : List Interval) : Except LayoutError String :=
  (chars intervals).map String.ofList

/-- Hands a table over to a sink, behind what it holds. All rows are made before the first line
goes out. -/
def write (intervals : List Interval) (sink : List UInt8) : Except LayoutError Unit × List UInt8 :=
  match rows intervals with
  | .error fault => (.error fault, sink)
  | .ok rows =>
    (.ok (), rows.foldl (fun sent r => sent ++ Utf8.encode (line r)) (sink ++ Utf8.encode header))

end LegacyTable

namespace ValidLayout

def intervals (v : ValidLayout) : Except LayoutError (List Interval) := do
  let brk ← LegacyTable.poolIntervals v.brk
  let mmap ← LegacyTable.poolIntervals v.mmap
  return LegacyTable.markers v.toLayout ++ brk ++ mmap

end ValidLayout
end HugePools
