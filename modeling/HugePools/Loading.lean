import HugePools.LegacyRegion
import HugePools.LegacyTable
import HugePools.Table
import HugePools.World

/-! Tables in files: reading a layout or a region from its path, and the file that a
valid layout is written to. -/
namespace HugePools

variable {σ : Type} [FileSystem σ]

def Table.ofFile (files : σ) (path : String) : Journal LayoutError Table :=
  match FileSystem.opened files path with
  | .error fault => .fail (.store fault)
  | .ok (.error fault) => .fail (.table (.store fault))
  | .ok (.ok bytes) => Table.ofBytes path bytes

def Layout.ofFile (files : σ) (path : String) : Journal LayoutError Layout := do
  match ← Table.ofFile files path with
  | .pools rows => Layout.ofRows rows
  | .legacy _ => Journal.fail (.unrecognizedSchema path Schema.legacy.columns)

def LegacyRegion.ofFile (files : σ) (pool : PoolKind) (path : String) :
    Journal LayoutError LegacyRegion := do
  match ← Table.ofFile files path with
  | .legacy rows => LegacyRegion.ofRows pool rows
  | .pools _ => Journal.fail (.unrecognizedSchema path Schema.pools.columns)

def bufferSize : Nat := 8192

def LegacyTable.storeFault (bytes : List UInt8) (cause : StoreError) : LayoutError :=
  if bufferSize < bytes.length then .table (.store cause) else .store cause

/-- Makes the file of the legacy table of a layout. All rows are turned into text before that, so a
row that has no text leaves the old file alone. -/
def ValidLayout.write (v : ValidLayout) (path : String) : Job σ LayoutError Unit := do
  let rows ← .ofExcept v.intervals
  let chars ← .ofExcept (LegacyTable.chars rows)
  let bytes := Utf8.encode chars
  (Job.create path).mapFault .store
  (Job.append path bytes).mapFault (LegacyTable.storeFault bytes)
  Job.tell [.written rows.length path]

end HugePools
