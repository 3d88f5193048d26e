import HugePools.Interval
import HugePools.Journal

/-! One pool as the legacy table describes it: its size, and its intervals in order of
their starts. -/
namespace HugePools

structure LegacyRegion where
  pool : PoolKind
  size : Nat
  intervals : List Interval
  deriving DecidableEq, Repr

namespace LegacyRegion

def group (r : LegacyRegion) (page : PageSize) : List Interval :=
  r.intervals.filter fun i => i.kind = .page page

def ranges (r : LegacyRegion) (page : PageSize) : List ByteRange :=
  (r.group page).map Interval.range

def pageCount (r : LegacyRegion) (page : PageSize) : Nat :=
  (r.group page).foldl (fun pages i => pages + i.range.length / page.bytes) 0

def checkEnd (r : LegacyRegion) (page : PageSize) (i : Interval) : Except LayoutError Unit :=
  if r.size < i.stop then .error (.outOfBounds r.pool page i.range r.size) else .ok ()

def checkEnds (r : LegacyRegion) : List Interval → List Interval → Except LayoutError Unit
  | huge :: moreHuge, large :: moreLarge => do
    r.checkEnd .huge huge
    r.checkEnd .large large
    checkEnds r moreHuge moreLarge
  | _, _ => .ok ()

def checkShape (r : LegacyRegion) (page : PageSize) (i : Interval) : Except LayoutError Unit :=
  if i.stop < i.start then .error (.negativeLength r.pool page i.start i.stop)
  else if isAligned i.start PageSize.base.bytes ∧ isAligned (i.stop - i.start) page.bytes then
    .ok ()
  else .error (.misalignedRegion r.pool page i.start i.stop)

def checkStep (r : LegacyRegion) (between : String) (alignment : PageSize) (base other : Nat) :
    Except LayoutError Unit :=
  if isAligned (distance other base) alignment.bytes then .ok ()
  else .error (.misalignedDelta r.pool between (distance other base) alignment)

def checkGroup (r : LegacyRegion) (page : PageSize) (between : String) :
    Option Interval → List Interval → Except LayoutError Unit
  | _, [] => .ok ()
  | previous, i :: rest => do
    r.checkShape page i
    match previous with
    | none => pure ()
    | some p => r.checkStep between page p.start i.start
    checkGroup r page between (some i) rest

def checkHeads (r : LegacyRegion) : List Interval → List Interval → Except LayoutError Unit
  | huge :: _, large :: _ => r.checkStep "1gb and 2mb" .large large.start huge.start
  | _, _ => .ok ()

def checkOverlaps (r : LegacyRegion) : List Interval → Except LayoutError Unit
  | i :: j :: rest =>
    if j.start < i.stop then .error (.overlap r.pool i.range j.range)
    else checkOverlaps r (j :: rest)
  | _ => .ok ()

def check (r : LegacyRegion) : Except LayoutError Unit := do
  r.checkEnds (r.group .huge) (r.group .large)
  r.checkGroup .large "2mb regions" none (r.group .large)
  r.checkGroup .huge "1gb regions" none (r.group .huge)
  r.checkHeads (r.group .huge) (r.group .large)
  r.checkOverlaps r.intervals

def sorted (pool : PoolKind) (rows : List LegacyRow) : Except LayoutError (List Interval) :=
  ((rows.filter fun r => r.poolType = pool.name).mapM (Interval.ofRow pool)).map
    fun intervals => intervals.mergeSort fun i j => i.start ≤ j.start

def statedSize (pool : PoolKind) (intervals : List Interval) : Except LayoutError Nat :=
  match intervals.filter Interval.isMarker with
  | [] => .error (.missingPoolSize pool)
  | [m] => .ok m.stop
  | markers => .error (.repeatedPoolSize pool markers.length)

def ofRows? (pool : PoolKind) (rows : List LegacyRow) :
    Except LayoutError LegacyRegion := do
  let intervals ← sorted pool rows
  let size ← statedSize pool intervals
  let region : LegacyRegion := ⟨pool, size, intervals.filter fun i => !i.isMarker⟩
  region.check
  return region

def ofRows (pool : PoolKind) (rows : List LegacyRow) :
    Journal LayoutError LegacyRegion :=
  match ofRows? pool rows with
  | .error fault => .fail fault
  | .ok r =>
    ⟨[.regionRead pool r.intervals.length r.size (r.pageCount .large) (r.pageCount .huge)], .ok r⟩

end LegacyRegion
end HugePools
