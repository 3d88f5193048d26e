import HugePools.Integer
import HugePools.Text

/-! The three memory pools of a process, and the rows of the two table schemas, as read and before
any check of their content. -/
namespace HugePools

inductive PoolKind where
  | brk | mmap | file
  deriving DecidableEq, Repr

namespace PoolKind

def all : List PoolKind := [.brk, .mmap, .file]

def name : PoolKind → String
  | .brk => "brk"
  | .mmap => "mmap"
  | .file => "file"

/-- Lower case for matching. Outside ASCII only the Kelvin sign folds to a letter of a
pool's name. -/
def fold (c : Char) : Char := if c.toNat = 0x212A then 'k' else c.toLower

def ofText? (text : String) : Option PoolKind :=
  let folded := String.ofList ((Text.trim text.toList).map fold)
  all.find? fun p => p.name = folded

theorem nameInjective {p q : PoolKind} (same : p.name = q.name) : p = q := by
  cases p <;> cases q <;> simp_all [name]

theorem memAll (p : PoolKind) : p ∈ all := by cases p <;> decide

end PoolKind

structure PoolRow where
  poolType : String
  poolSize : String
  list2MB : String
  offset2MB : String
  list1GB : String
  offset1GB : String
  deriving DecidableEq, Repr

structure LegacyRow where
  poolType : String
  pageSize : Int64
  startOffset : Int64
  endOffset : Int64
  deriving DecidableEq, Repr

inductive Schema where
  | pools | legacy
  deriving DecidableEq, Repr

namespace Schema

def columns : Schema → List String
  | .pools => ["pool_type", "pool_size", "ragions_list_2mb", "offset_2mb",
      "ragions_list_1gb", "offset_1gb"]
  | .legacy => ["type", "pageSize", "startOffset", "endOffset"]

def name : Schema → String
  | .pools => "Pools"
  | .legacy => "Legacy"

end Schema
end HugePools
