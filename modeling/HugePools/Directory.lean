import HugePools.Text
import HugePools.World

/-! Files in the standard tree of directories and devices, as they are seen from one of the
directories. Paths are resolved piece by piece; places are known by their names from the root. -/
namespace HugePools

structure Directory where
  files : List (List String × List UInt8)
  location : List String := ["tmp", "layouts"]
  output : List UInt8 := []
  errors : List UInt8 := []
  deriving DecidableEq, Repr

inductive Device where
  | null | full | output | errors
  deriving DecidableEq, Repr

namespace Device

def all : List (List String × Device) := [
  (["dev", "null"], .null), (["dev", "full"], .full),
  (["dev", "zero"], .null), (["dev", "random"], .null), (["dev", "urandom"], .null),
  (["dev", "stdin"], .null), (["dev", "fd", "0"], .null),
  (["dev", "stdout"], .output), (["dev", "fd", "1"], .output),
  (["dev", "stderr"], .errors), (["dev", "fd", "2"], .errors)]

def find? (names : List String) : Option Device :=
  (all.find? fun d => d.1 = names).map Prod.snd

end Device

namespace Directory

def topLevel : List String :=
  ["bin", "boot", "dev", "etc", "home", "lib", "media", "mnt", "opt", "proc", "root", "run",
    "sbin", "srv", "sys", "tmp", "usr", "var"]

def secondLevel : List (List String) := [
  ["dev", "fd"], ["dev", "pts"], ["dev", "shm"], ["proc", "self"], ["usr", "bin"], ["usr", "lib"],
  ["usr", "local"], ["usr", "sbin"], ["usr", "share"], ["var", "cache"], ["var", "lib"],
  ["var", "log"], ["var", "tmp"]]

def isStandard : List String → Bool
  | [] => true
  | [name] => name ∈ topLevel
  | names => names ∈ secondLevel

inductive Place where
  | directory (names : List String)
  | file (names : List String) (bytes : List UInt8)
  | device (v : Device)
  deriving DecidableEq, Repr

def split (path : String) : List String := (Text.pieces '/' path.toList).map String.ofList

def ofFiles (files : List (String × List UInt8)) : Directory :=
  let empty : Directory := { files := [] }
  { empty with files := files.map fun f => (empty.location ++ split f.1, f.2) }

def hasDirectory (d : Directory) (names : List String) : Bool :=
  names.isPrefixOf d.location || (d.files.any fun f => names.isPrefixOf f.1) || isStandard names

def enter (d : Directory) (names : List String) : Except StoreError Place :=
  match d.files.find? fun f => f.1 = names, Device.find? names with
  | some (_, bytes), _ => .ok (.file names bytes)
  | none, some v => .ok (.device v)
  | none, none => if d.hasDirectory names then .ok (.directory names) else .error .notFound

def step (d : Directory) (here : Place) (piece : String) : Except StoreError Place :=
  match here with
  | .directory names =>
    if piece = "" ∨ piece = "." then .ok here
    else if piece = ".." then .ok (.directory names.dropLast)
    else if 255 < piece.utf8ByteSize then .error .nameTooLong
    else d.enter (names ++ [piece])
  | _ => .error .notDirectory

def checkPath (path : String) : Except StoreError Unit :=
  if '\x00' ∈ path.toList then .error .nulInName
  else if path = "" then .error .notFound
  else if 4096 ≤ path.utf8ByteSize then .error .nameTooLong
  else .ok ()

def start (d : Directory) (path : String) : Place :=
  .directory (if path.toList.head? = some '/' then [] else d.location)

def locate (d : Directory) (path : String) : Except StoreError Place := do
  checkPath path
  (split path).foldlM d.step (d.start path)

inductive Target where
  | file (names : List String)
  | device (v : Device)
  deriving DecidableEq, Repr

/-- What a path opens for writing. A path that ends in a slash, or that leads to a
directory, makes no file. -/
def target (d : Directory) (path : String) : Except StoreError Target := do
  checkPath path
  let pieces := ((split path).reverse.dropWhile (· = "")).reverse
  let last := pieces.getLastD ""
  match ← pieces.dropLast.foldlM d.step (d.start path) with
  | .directory names =>
    if path.toList.getLast? = some '/' ∨ last = "." ∨ last = ".." then throw .isDirectory
    if 255 < last.utf8ByteSize then throw .nameTooLong
    match d.enter (names ++ [last]) with
    | .ok (.directory _) => throw .isDirectory
    | .ok (.device v) => return .device v
    | _ => return .file (names ++ [last])
  | _ => throw .notDirectory

def put (d : Directory) (names : List String) (bytes : List UInt8) : Directory :=
  { d with files := (d.files.filter fun f => f.1 ≠ names) ++ [(names, bytes)] }

def find (d : Directory) (path : String) : Except StoreError Entry :=
  (d.locate path).map fun
    | .directory _ => .directory
    | .file _ bytes => .file bytes
    | .device _ => .file []

def create (d : Directory) (path : String) : Except StoreError Directory :=
  (d.target path).map fun
    | .file names => d.put names []
    | .device _ => d

def send (d : Directory) (bytes : List UInt8) : Device → Except StoreError Unit × Directory
  | .null => (.ok (), d)
  | .full => (.error .noSpace, d)
  | .output => (.ok (), { d with output := d.output ++ bytes })
  | .errors => (.ok (), { d with errors := d.errors ++ bytes })

def append (d : Directory) (path : String) (bytes : List UInt8) :
    Except StoreError Unit × Directory :=
  match d.locate path with
  | .ok (.file names held) => (.ok (), d.put names (held ++ bytes))
  | .ok (.device v) => d.send bytes v
  | .ok (.directory _) => (.error .isDirectory, d)
  | .error cause => (.error cause, d)

instance : FileSystem Directory := ⟨find, create, append⟩

def changedSince (d old : Directory) : List (String × List UInt8) :=
  let changed := d.files.filter fun f => d.location.isPrefixOf f.1 && f ∉ old.files
  changed.map fun f => ("/".intercalate (f.1.drop d.location.length), f.2)

end Directory
end HugePools
