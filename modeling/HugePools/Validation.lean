import HugePools.Layout

/-! Which layouts the allocator accepts. The pools in the slots `brk` and `mmap` are
checked; the file pool is not. -/
namespace HugePools

namespace Pool

def checkBounds (p : Pool) (page : PageSize) (ranges : List ByteRange) :
    Except LayoutError Unit :=
  match (ranges.head?.toList ++ ranges.getLast?.toList).find? fun r =>
      !r.fitsWithin p.size.bytes with
  | none => .ok ()
  | some r => .error (.outOfBounds p.kind page r p.size.bytes)

def checkOffset (p : Pool) (page : PageSize) (offset : Nat) : Except LayoutError Unit :=
  if isAligned offset PageSize.base.bytes then .ok ()
  else .error (.misalignedOffset p.kind page offset)

def checkDelta (p : Pool) (offset2MB offset1GB : Nat) : Except LayoutError Unit :=
  if 0 < offset2MB ∧ 0 < offset1GB ∧
      isAligned (distance offset1GB offset2MB) PageSize.huge.bytes = false then
    .error (.misalignedOffsetDelta p.kind offset2MB offset1GB)
  else .ok ()

def firstMeeting (large huge : List ByteRange) : Option (ByteRange × ByteRange) :=
  large.findSome? fun r => (huge.find? r.interleaves).map fun s => (r, s)

def checkInterleave (p : Pool) (large huge : List ByteRange) : Except LayoutError Unit :=
  match firstMeeting large huge with
  | none => .ok ()
  | some (r, s) => .error (.interleave p.kind r s)

def check (p : Pool) : Except LayoutError Unit := do
  let large ← p.ranges .large
  let huge ← p.ranges .huge
  p.checkBounds .large large
  p.checkBounds .huge huge
  p.checkOffset .large p.large.offset.bytes
  p.checkOffset .huge p.huge.offset.bytes
  p.checkDelta p.large.offset.bytes p.huge.offset.bytes
  p.checkInterleave large huge

end Pool

structure ValidLayout extends Layout where
  brkPassed : brk.check = .ok ()
  mmapPassed : mmap.check = .ok ()

def Layout.validate (l : Layout) : Journal LayoutError ValidLayout :=
  match first : l.brk.check with
  | .error fault => ⟨[.validating l.brk.kind], .error fault⟩
  | .ok () =>
    match second : l.mmap.check with
    | .error fault => ⟨[.validating l.brk.kind, .validating l.mmap.kind], .error fault⟩
    | .ok () =>
      ⟨[.validating l.brk.kind, .validating l.mmap.kind, .validated l.total2MB l.total1GB],
        .ok ⟨l, first, second⟩⟩

end HugePools
