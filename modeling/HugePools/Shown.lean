import HugePools.Printable
import HugePools.Settings

/-! Text in the log. Settings are shown between quotes, with escapes for what does not
print; and of every line, the controls that steer a terminal are written as escapes. -/
namespace HugePools

namespace Text

def hexadecimal (n : Nat) : List Char := Nat.toDigits 16 n

def shownChar (c : Char) : List Char :=
  if c = '\x00' then ['\\', '0']
  else if c = '\t' then ['\\', 't']
  else if c = '\n' then ['\\', 'n']
  else if c = '\r' then ['\\', 'r']
  else if c = '\\' ∨ c = '"' then ['\\', c]
  else if isPrintable c then [c]
  else ['\\', 'u', '\x7b'] ++ hexadecimal c.toNat ++ ['\x7d']

def shown (s : String) : String :=
  String.ofList ('"' :: s.toList.flatMap shownChar ++ ['"'])

/-- Tabs and line breaks stay, and so do the controls that no terminal acts on. -/
def tamedChar (c : Char) : List Char :=
  if c = '\x1b' then ['\\', 'x', '1', 'b']
  else if c = '\x07' then ['\\', 'x', '0', '7']
  else if c = '\x08' then ['\\', 'x', '0', '8']
  else if c = '\x0c' then ['\\', 'x', '0', 'c']
  else if c = '\x7f' then ['\\', 'x', '7', 'f']
  else if 0x80 ≤ c.toNat ∧ c.toNat ≤ 0x9F then
    ['\\', 'u', '\x7b'] ++ hexadecimal c.toNat ++ ['\x7d']
  else [c]

def tamed (s : String) : String := String.ofList (s.toList.flatMap tamedChar)

end Text

def Settings.shown (s : Settings) : String :=
  "ConversionConfig \x7b output_path: " ++ Text.shown s.outputPath ++
    ", env_var: " ++ Text.shown s.environmentName ++
    ", pad_reservation: " ++ (if s.padReservation then "true" else "false") ++ " \x7d"

end HugePools
