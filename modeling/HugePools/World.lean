import HugePools.Journal
import HugePools.LayoutError

/-! What a command does to the world around it: it reads and makes files, prints lines and reports
events. What was done before a step fails stays done. -/
namespace HugePools

inductive Entry where
  | file (bytes : List UInt8)
  | directory
  deriving DecidableEq, Repr

/-- Files by path. One that is created is empty, whatever stood there before. -/
class FileSystem (σ : Type) where
  find : σ → String → Except StoreError Entry
  create : σ → String → Except StoreError σ
  append : σ → String → List UInt8 → Except StoreError Unit × σ

namespace FileSystem

variable {σ : Type} [FileSystem σ]

def opened (files : σ) (path : String) : Except StoreError (Except StoreError (List UInt8)) :=
  (find files path).map fun
    | .file bytes => .ok bytes
    | .directory => .error .isDirectory

def read (files : σ) (path : String) : Except StoreError (List UInt8) := do
  ← opened files path

end FileSystem

structure World (σ : Type) where
  files : σ
  printed : List String := []
  events : List Event := []

def World.reported {σ : Type} (w : World σ) (events : List Event) : World σ :=
  { w with events := w.events ++ events }

theorem World.reportedNothing {σ : Type} (w : World σ) : w.reported [] = w := by
  simp [reported]

def Job (σ ε α : Type) : Type := World σ → Except ε α × World σ

namespace Job

variable {σ ε δ α β : Type}

def done (value : α) : Job σ ε α := fun w => (.ok value, w)

def andThen (job : Job σ ε α) (next : α → Job σ ε β) : Job σ ε β := fun w =>
  match job w with
  | (.error fault, after) => (.error fault, after)
  | (.ok value, after) => next value after

instance : Monad (Job σ ε) where
  pure := done
  bind := andThen

def ofExcept (result : Except ε α) : Job σ ε α := fun w => (result, w)

def tell (events : List Event) : Job σ ε Unit := fun w => (.ok (), w.reported events)

def print (lines : List String) : Job σ ε Unit := fun w =>
  (.ok (), { w with printed := w.printed ++ lines })

def reads (look : σ → Journal ε α) : Job σ ε α := fun w =>
  ((look w.files).result, w.reported (look w.files).events)

def mapFault (change : ε → δ) (job : Job σ ε α) : Job σ δ α := fun w =>
  ((job w).1.mapError change, (job w).2)

def create [FileSystem σ] (path : String) : Job σ StoreError Unit := fun w =>
  match FileSystem.create w.files path with
  | .error cause => (.error cause, w)
  | .ok files => (.ok (), { w with files })

def append [FileSystem σ] (path : String) (bytes : List UInt8) : Job σ StoreError Unit := fun w =>
  let (result, files) := FileSystem.append w.files path bytes
  (result, { w with files })

section

variable {job : Job σ ε α} {w after : World σ}

theorem andThenOk {value : α} (ok : job w = (.ok value, after)) (next : α → Job σ ε β) :
    (job >>= next) w = next value after := by
  change job.andThen next w = _
  simp [andThen, ok]

theorem andThenError {fault : ε} (bad : job w = (.error fault, after)) (next : α → Job σ ε β) :
    (job >>= next) w = (.error fault, after) := by
  change job.andThen next w = _
  simp [andThen, bad]

end

end Job
end HugePools
