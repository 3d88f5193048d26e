import HugePools.PoolReading

/-! A layout: one pool of each type. -/
namespace HugePools

/-- The pools stand in slots; a slot does not force the type of its pool. -/
structure Layout where
  brk : Pool
  mmap : Pool
  file : Pool
  deriving DecidableEq, Repr

namespace Layout

def select (pools : List Pool) (kind : PoolKind) : Journal LayoutError Pool :=
  match pools.filter fun p => p.kind = kind with
  | [] => .fail (.missingPool kind)
  | [p] => .done p
  | p :: more => ⟨[.repeatedPool kind (more.length + 1)], .ok p⟩

def ofRows (rows : List PoolRow) : Journal LayoutError Layout := do
  let pools ← PoolRow.readAll rows
  let brk ← select pools .brk
  let mmap ← select pools .mmap
  let file ← select pools .file
  return ⟨brk, mmap, file⟩

def pool (l : Layout) : PoolKind → Pool
  | .brk => l.brk
  | .mmap => l.mmap
  | .file => l.file

def pools (l : Layout) : List Pool := [l.brk, l.mmap, l.file]

def total2MB (l : Layout) : Nat :=
  saturate (l.brk.large.pages.count + l.mmap.large.pages.count)

def total1GB (l : Layout) : Nat :=
  saturate (l.brk.huge.pages.count + l.mmap.huge.pages.count)

def summary (l : Layout) : String :=
  s!"layout: brk {l.brk.size.text}, mmap {l.mmap.size.text}, file {l.file.size.text}; " ++
    s!"{l.total2MB} x 2MB + {l.total1GB} x 1GB huge pages"

def text (l : Layout) : String :=
  String.join (l.pools.map fun p => "  " ++ p.text ++ "\n")

end Layout
end HugePools
