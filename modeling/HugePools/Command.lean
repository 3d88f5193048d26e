import HugePools.Arguments
import HugePools.Loading
import HugePools.Report
import HugePools.Settings
import HugePools.Shown

/-! The three commands. Each of them reads its input and checks it before it does anything else. -/
namespace HugePools

inductive Checked where
  | pools (layout : ValidLayout)
  | legacy (brk mmap : LegacyRegion)

namespace Checked

def schema : Checked → String
  | .pools _ => "pool"
  | .legacy _ _ => "legacy"

def reservation : Checked → Reservation
  | .pools layout => .ofLayout layout.toLayout
  | .legacy brk mmap => .ofRegions [brk, mmap]

end Checked

inductive Failure where
  | settings (fault : LayoutError)
  | input (path : String) (fault : LayoutError)
  | output (path : String) (fault : LayoutError)
  | report (fault : LayoutError)
  deriving DecidableEq, Repr

namespace Failure

def message : Failure → String
  | .settings fault => fault.message
  | .input path fault =>
    if fault.isMalformed then s!"malformed layout '{path}': {fault.message}"
    else s!"cannot read layout '{path}': {fault.message}"
  | .output path fault => s!"failed to write '{path}': {fault.message}"
  | .report fault => fault.message

def cause? : Failure → Option QuantityError
  | .report fault => fault.cause?
  | _ => none

def text (f : Failure) : String :=
  "Error: " ++ f.message ++ "\n" ++
    match f.cause? with
    | none => ""
    | some cause => "\nCaused by:\n    " ++ cause.message ++ "\n"

end Failure

namespace Command

section

variable {σ : Type} [FileSystem σ]

def readTable (files : σ) (path : String) : Journal LayoutError Checked := do
  match ← Table.ofFile files path with
  | .pools rows => do
    let layout ← Layout.ofRows rows
    let valid ← layout.validate
    return .pools valid
  | .legacy rows => do
    let brk ← LegacyRegion.ofRows .brk rows
    let mmap ← LegacyRegion.ofRows .mmap rows
    return .legacy brk mmap

def load (files : σ) (path : String) : Journal Failure Checked := do
  let checked ← (readTable files path).mapFault (.input path)
  Journal.tell [.accepted path checked.schema]
  return checked

def loadSettings (files : σ) : Option String → Journal Failure Settings
  | none => .done {}
  | some path => do
    let settings ← .ofExcept ((Settings.ofFile files path).mapError fun fault =>
      .settings (.settings fault))
    Journal.tell [.settingsRead path settings.shown]
    return settings

def convertTable (settings : Settings) (r : Request) : Checked → Job σ Failure String
  | .pools layout => do
    let path := r.output.getD settings.outputPath
    Job.tell [.summarized layout.summary]
    (layout.write path).mapFault (.output path)
    return path
  | .legacy _ _ => do
    if r.output.isSome then Job.tell [.outputIgnored]
    return r.input

def convert (settings : Settings) (r : Request) : Job σ Failure Unit := do
  let checked ← Job.reads fun files => load files r.input
  let path ← convertTable settings r checked
  let reservation :=
    if settings.padReservation ∧ r.exact = false then checked.reservation.padded
    else checked.reservation
  Job.print [environmentLine settings.environmentName path,
    s!"hugepages-2MB={reservation.pages2MB}",
    s!"hugepages-1GB={reservation.pages1GB}"]

def check (r : Request) : Job σ Failure Unit := do
  let checked ← Job.reads fun files => load files r.input
  Job.print [s!"{r.input}: valid {checked.schema} layout ({checked.reservation.text})"]

def poolReports : Checked → Except LayoutError (List PoolReport)
  | .pools layout => layout.pools.mapM PoolReport.ofPool
  | .legacy brk mmap => .ok [.ofRegion brk, .ofRegion mmap]

def inspect (r : Request) : Job σ Failure Unit := do
  let checked ← Job.reads fun files => load files r.input
  let pools ← .ofExcept ((poolReports checked).mapError .report)
  let report : Report := ⟨r.input, checked.schema, pools, checked.reservation⟩
  Job.print (if r.json then [report.json.pretty] else report.lines)

def perform (r : Request) : Job σ Failure Unit := do
  let settings ← Job.reads fun files => loadSettings files r.config
  match r.action with
  | .convert => convert settings r
  | .check => check r
  | .inspect => inspect r

end

def threshold : Nat → Level
  | 0 => .warn
  | 1 => .info
  | _ => .debug

structure Outcome (σ : Type) where
  status : Nat
  stdout : String
  stderr : String
  log : List String
  files : σ
  deriving DecidableEq, Repr

def lines (printed : List String) : String := String.join (printed.map (· ++ "\n"))

def version : String := "hpl 0.1.0"

def logged (r : Request) (events : List Event) : List String :=
  (events.filter (Event.reaches (threshold r.verbosity))).map fun e => Text.tamed e.line

def run {σ : Type} [FileSystem σ] (files : σ) (arguments : List String) : Outcome σ :=
  match Arguments.parse arguments with
  | none => ⟨2, "", "", [], files⟩
  | some .version => ⟨0, lines [version], "", [], files⟩
  | some (.request r) =>
    let (result, world) := perform r { files }
    let log := logged r world.events
    match result with
    | .ok () => ⟨0, lines world.printed, "", log, world.files⟩
    | .error failure => ⟨1, lines world.printed, failure.text, log, world.files⟩

end Command
end HugePools
