import HugePools.Command

/-! The program: looks up the files that the arguments name, runs the command on them,
makes the file that it asks for, and prints. -/
namespace HugePools.Main

def storeError : IO.Error → StoreError
  | .noFileOrDirectory _ _ _ => .notFound
  | .inappropriateType _ code _ =>
    if code = 21 ∨ code = -21 then .isDirectory else .notDirectory
  | .invalidArgument _ _ _ => .nulInName
  | .resourceExhausted _ _ _ => .noSpace
  | .permissionDenied _ code _ => .other "Permission denied" code.toNat
  | fault => .other (toString fault) 0

def entry (path : String) : IO (Except StoreError Entry) := do
  try
    let bytes ← IO.FS.readBinFile path
    return .ok (.file bytes.toList)
  catch fault =>
    match storeError fault with
    | .isDirectory => return .ok .directory
    | cause => return .error cause

def paths (arguments : List String) : List String :=
  match Arguments.parse arguments with
  | some (.request r) => r.input :: r.config.toList
  | _ => []

/-- The files as they were looked up, and what became of the one that was made. -/
structure Snapshot where
  found : List (String × Except StoreError Entry)
  created : Except StoreError Unit := .ok ()
  stored : Except StoreError Unit := .ok ()
  made : Option (String × List UInt8) := none

instance : FileSystem Snapshot where
  find files path :=
    ((files.found.find? fun f => f.1 = path).map Prod.snd).getD (.error .notFound)
  create files path := files.created.map fun _ => { files with made := some (path, []) }
  append files _ bytes :=
    (files.stored, { files with made := files.made.map fun f => (f.1, f.2 ++ bytes) })

def attempt (action : IO Unit) : IO (Except StoreError Unit) := do
  try
    action
    return .ok ()
  catch fault => return .error (storeError fault)

def fill (path : String) (bytes : List UInt8) : IO Unit := do
  let handle ← IO.FS.Handle.mk path .write
  handle.write ⟨bytes.toArray⟩
  handle.flush

def save (path : String) (bytes : List UInt8) :
    IO (Except StoreError Unit × Except StoreError Unit) := do
  match ← attempt (discard (IO.FS.Handle.mk path .write)) with
  | .ok () => return (.ok (), ← attempt (fill path bytes))
  | .error cause => return (.error cause, .ok ())

/-- Runs the command, and once more with what became of its file where that was not kept. -/
def outcome (arguments : List String) : IO (Command.Outcome Snapshot) := do
  let found ← (paths arguments).mapM fun path => return (path, ← entry path)
  let first := Command.run { found : Snapshot } arguments
  match first.files.made with
  | none => return first
  | some (path, bytes) =>
    match ← save path bytes with
    | (.ok (), .ok ()) => return first
    | (created, stored) => return Command.run { found, created, stored : Snapshot } arguments

def usage : String :=
  "usage: hpl [-c PATH] [-v] (convert -i PATH [-o PATH] [--no-padding] | " ++
    "check -i PATH | inspect -i PATH [--json])"

end HugePools.Main

open HugePools in
def main (arguments : List String) : IO UInt32 := do
  let result ← Main.outcome arguments
  for line in result.log do
    IO.eprintln line
  IO.eprint result.stderr
  IO.print result.stdout
  if result.status = 2 then
    IO.eprintln Main.usage
  return result.status.toUInt32
