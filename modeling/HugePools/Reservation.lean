import HugePools.Layout
import HugePools.LegacyRegion

/-! How many huge pages the system has to reserve. Counts and totals are capped at the
largest word. -/
namespace HugePools

structure Reservation where
  pages2MB : Nat
  pages1GB : Nat
  deriving DecidableEq, Repr

namespace Reservation

def none : Reservation := ⟨0, 0⟩

def ofLayout (l : Layout) : Reservation := ⟨l.total2MB, l.total1GB⟩

def add (total : Reservation) (r : LegacyRegion) : Reservation :=
  ⟨saturate (total.pages2MB + r.pageCount .large), saturate (total.pages1GB + r.pageCount .huge)⟩

def ofRegions (regions : List LegacyRegion) : Reservation := regions.foldl add none

def padCount (n : Nat) : Nat := if 0 < n then saturate (n + 1) else 0

def padded (r : Reservation) : Reservation := ⟨padCount r.pages2MB, padCount r.pages1GB⟩

def pages (r : Reservation) : PageSize → Nat
  | .base => 0
  | .large => r.pages2MB
  | .huge => r.pages1GB

def totalBytes (r : Reservation) : Nat :=
  saturate (saturate (r.pages2MB * PageSize.large.bytes) +
    saturate (r.pages1GB * PageSize.huge.bytes))

def isEmpty (r : Reservation) : Bool := r.pages2MB = 0 && r.pages1GB = 0

def text (r : Reservation) : String := s!"{r.pages2MB} x 2MB, {r.pages1GB} x 1GB"

end Reservation

def environmentLine (name path : String) : String := name ++ "=" ++ path

end HugePools
