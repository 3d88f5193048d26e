import HugePools.Journal

/-! From a pool row to a pool. Cells are read from left to right; the first one that
cannot be read decides. -/
namespace HugePools

def PoolKind.parse (text : String) : Except LayoutError PoolKind :=
  match PoolKind.ofText? text with
  | some kind => .ok kind
  | none => .error (.unknownPoolKind text)

namespace PoolRow

def cell {α : Type} (kind : PoolKind) (column : String) (read : String → Except QuantityError α)
    (text : String) : Except LayoutError α :=
  (read text).mapError (.invalidField kind column)

def pool (r : PoolRow) : Except LayoutError Pool := do
  let kind ← PoolKind.parse r.poolType
  let size ← cell kind "pool_size" Size.parse r.poolSize
  let pages2MB ← cell kind "ragions_list_2mb" PageSet.parse r.list2MB
  let offset2MB ← cell kind "offset_2mb" Size.parse r.offset2MB
  let pages1GB ← cell kind "ragions_list_1gb" PageSet.parse r.list1GB
  let offset1GB ← cell kind "offset_1gb" Size.parse r.offset1GB
  return ⟨kind, size, ⟨pages2MB, offset2MB⟩, ⟨pages1GB, offset1GB⟩⟩

def warnings (r : PoolRow) (p : Pool) : List Event :=
  (if p.large.pages.duplicates then [.repeatedPages p.kind .large r.list2MB p.large.pages]
    else []) ++
  (if p.huge.pages.duplicates then [.repeatedPages p.kind .huge r.list1GB p.huge.pages]
    else [])

def read (r : PoolRow) : Journal LayoutError Pool :=
  match r.pool with
  | .ok p => ⟨r.warnings p ++ [.poolRead p], .ok p⟩
  | .error fault => .fail fault

def readAll : List PoolRow → Journal LayoutError (List Pool)
  | [] => .done []
  | r :: rest => do
    let p ← r.read
    let pools ← readAll rest
    return p :: pools

end PoolRow
end HugePools
