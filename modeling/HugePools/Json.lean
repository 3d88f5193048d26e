import HugePools.Text

/-! JSON values and their indented text. Members keep their order. A number that is
written with a fraction or an exponent is no integer, whatever its value. -/
namespace HugePools

inductive Json where
  | null
  | boolean (b : Bool)
  | integer (n : Int)
  | float
  | string (s : String)
  | array (items : List Json)
  | object (members : List (String × Json))

namespace Json

def natural (n : Nat) : Json := .integer n

def get? (members : List (String × Json)) (key : String) : Option Json :=
  (members.find? fun m => m.1 = key).map Prod.snd

def hexDigit (n : Nat) : Char := if n < 10 then Char.ofNat (48 + n) else Char.ofNat (87 + n)

def escapeChar (c : Char) : List Char :=
  if c = '"' then ['\\', '"']
  else if c = '\\' then ['\\', '\\']
  else if c = '\x08' then ['\\', 'b']
  else if c = '\x0c' then ['\\', 'f']
  else if c = '\n' then ['\\', 'n']
  else if c = '\r' then ['\\', 'r']
  else if c = '\t' then ['\\', 't']
  else if c.toNat < 0x20 then ['\\', 'u', '0', '0', hexDigit (c.toNat / 16), hexDigit (c.toNat % 16)]
  else [c]

def quoted (s : String) : String :=
  String.ofList ('"' :: s.toList.flatMap escapeChar ++ ['"'])

def newLine (depth : Nat) : String := "\n" ++ String.ofList (List.replicate (2 * depth) ' ')

mutual

def indented (depth : Nat) : Json → String
  | .null => "null"
  | .boolean b => if b then "true" else "false"
  | .integer n => toString n
  | .float => "0.0"
  | .string s => quoted s
  | .array [] => "[]"
  | .array (item :: rest) =>
    "[" ++ newLine (depth + 1) ++ indented (depth + 1) item ++ moreItems depth rest
  | .object [] => "\x7b\x7d"
  | .object (member :: rest) =>
    "\x7b" ++ newLine (depth + 1) ++ memberText (depth + 1) member ++ moreMembers depth rest

def moreItems (depth : Nat) : List Json → String
  | [] => newLine depth ++ "]"
  | item :: rest =>
    "," ++ newLine (depth + 1) ++ indented (depth + 1) item ++ moreItems depth rest

def memberText (depth : Nat) : String × Json → String
  | (key, value) => quoted key ++ ": " ++ indented depth value

def moreMembers (depth : Nat) : List (String × Json) → String
  | [] => newLine depth ++ "\x7d"
  | member :: rest =>
    "," ++ newLine (depth + 1) ++ memberText (depth + 1) member ++ moreMembers depth rest

end

def pretty (j : Json) : String := indented 0 j

end Json
end HugePools
