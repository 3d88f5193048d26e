import HugePools.TomlDocument
import HugePools.Utf8
import HugePools.World

/-! The settings of a conversion, and their TOML text. A setting that the text does not
give keeps its default. -/
namespace HugePools

structure Settings where
  outputPath : String := "legacy_config.csv"
  environmentName : String := "HPC_CONFIGURATION_FILE"
  padReservation : Bool := true
  deriving DecidableEq, Repr

namespace Settings

open Toml (Entries Node)

def stringOf (entries : Entries) (key default : String) : Except SettingsError String :=
  match entries.get? key with
  | none => .ok default
  | some (.text s) => .ok s
  | some _ => .error .malformed

def booleanOf (entries : Entries) (key : String) (default : Bool) : Except SettingsError Bool :=
  match entries.get? key with
  | none => .ok default
  | some (.boolean b) => .ok b
  | some _ => .error .malformed

def ofEntries (entries : Entries) : Except SettingsError Settings := do
  let standard : Settings := {}
  let outputPath ← stringOf entries "output_path" standard.outputPath
  let environmentName ← stringOf entries "env_var" standard.environmentName
  let padReservation ← booleanOf entries "pad_reservation" standard.padReservation
  return ⟨outputPath, environmentName, padReservation⟩

def ofChars (s : List Char) : Except SettingsError Settings :=
  match Toml.parse s with
  | some entries => ofEntries entries
  | none => .error .malformed

def parse (text : String) : Except SettingsError Settings := ofChars text.toList

def entryLine (key : String) (value : List Char) : List Char :=
  key.toList ++ [' ', '=', ' '] ++ value ++ ['\n']

def entryLines (s : Settings) : List (List Char) :=
  [entryLine "output_path" (Toml.writeString s.outputPath.toList),
   entryLine "env_var" (Toml.writeString s.environmentName.toList),
   entryLine "pad_reservation" (if s.padReservation then "true" else "false").toList]

def text (s : Settings) : String := String.ofList s.entryLines.flatten

def ofFile {σ : Type} [FileSystem σ] (files : σ) (path : String) : Except SettingsError Settings :=
  match FileSystem.read files path with
  | .error cause => .error (.unreadable path cause)
  | .ok bytes =>
    match Utf8.decode bytes with
    | .error _ => .error (.notText path)
    | .ok s => ofChars s

end Settings
end HugePools
