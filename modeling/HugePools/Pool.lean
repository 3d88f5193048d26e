import HugePools.LayoutError
import HugePools.PageSet
import HugePools.Size

/-! One memory pool: its size, and for each of the two huge page sizes the pages that
it holds and the offset from which they are counted. -/
namespace HugePools

structure Placement where
  pages : PageSet
  offset : Size
  deriving DecidableEq, Repr

def Placement.none : Placement := ⟨.empty, .zero⟩

structure Pool where
  kind : PoolKind
  size : Size
  large : Placement
  huge : Placement
  deriving DecidableEq, Repr

namespace Pool

def ofSize (kind : PoolKind) (size : Size) : Pool := ⟨kind, size, .none, .none⟩

def placement (p : Pool) : PageSize → Except LayoutError Placement
  | .base => .error (.unsupportedPageSize .base)
  | .large => .ok p.large
  | .huge => .ok p.huge

def pages (p : Pool) (page : PageSize) : Except LayoutError PageSet :=
  (p.placement page).map Placement.pages

def offset (p : Pool) (page : PageSize) : Except LayoutError Nat :=
  (p.placement page).map fun place => place.offset.bytes

def pageCount (p : Pool) (page : PageSize) : Except LayoutError Nat :=
  (p.placement page).map fun place => place.pages.count

def listColumn : PageSize → String
  | .huge => "ragions_list_1gb"
  | _ => "ragions_list_2mb"

def ranges (p : Pool) (page : PageSize) : Except LayoutError (List ByteRange) := do
  let place ← p.placement page
  (place.pages.byteRanges page.bytes place.offset.bytes).mapError
    (.invalidField p.kind (listColumn page))

def text (p : Pool) : String :=
  Text.padRight 5 p.kind.name ++ " size=" ++ Text.padRight 8 p.size.text ++
    s!" 2MB=[{p.large.pages.encode}]@{p.large.offset.bytes} ({p.large.pages.count} pages)" ++
    s!"  1GB=[{p.huge.pages.encode}]@{p.huge.offset.bytes} ({p.huge.pages.count} pages)"

end Pool
end HugePools
