import HugePools.TomlScalar
import HugePools.TomlString

/-! TOML documents. Lines become statements, and statements in order build nested tables,
where each key is given once and a table is opened once. -/
namespace HugePools.Toml

inductive Shape where
  | implied | dotted | opened | inline
  deriving DecidableEq, Repr

/-- A value. Numbers, dates and arrays are checked when they are read, and not kept. -/
inductive Node where
  | text (s : String)
  | boolean (b : Bool)
  | other
  | table (shape : Shape) (entries : List (String × Node))
  | tables (items : List (List (String × Node)))

abbrev Entries : Type := List (String × Node)

namespace Entries

def get? (entries : Entries) (key : String) : Option Node :=
  (entries.find? fun e => e.1 = key).map Prod.snd

def put (entries : Entries) (key : String) (node : Node) : Entries :=
  if (entries.get? key).isSome then
    entries.map fun e => if e.1 = key then (key, node) else e
  else entries ++ [(key, node)]

/-- Changes the table at the end of a path, making the tables on the way that are missing.
A path of a pair (`dotted`) does not enter opened tables; an array of tables stands for its
last one. -/
def change (dotted : Bool) (f : Shape → Entries → Option Entries) :
    Shape → List String → Entries → Option Entries
  | shape, [], entries => f shape entries
  | _, key :: path, entries =>
    match entries.get? key with
    | none => do
      let fresh := if dotted then Shape.dotted else Shape.implied
      let inner ← change dotted f fresh path []
      return entries.put key (.table fresh inner)
    | some (.table shape inner) => do
      if shape = .inline ∨ (dotted ∧ shape = .opened) then none
      let inner ← change dotted f shape path inner
      return entries.put key (.table shape inner)
    | some (.tables items) => do
      let last ← items.getLast?
      let last ← change dotted f .opened path last
      return entries.put key (.tables (items.dropLast ++ [last]))
    | some _ => none

/-- Adds a pair. The table it goes to was made by dotted keys exactly if its own key is
dotted. -/
def addPair (path : List String) (key : String) (node : Node) (entries : Entries) :
    Option Entries :=
  change true
    (fun shape inner =>
      if decide (shape = .dotted) = path.isEmpty ∨ (inner.get? key).isSome then none
      else some (inner.put key node))
    .opened path entries

def openTable (path : List String) (key : String) (entries : Entries) : Option Entries :=
  change false
    (fun _ inner =>
      match inner.get? key with
      | none => some (inner.put key (.table .opened []))
      | some (.table .implied held) => some (inner.put key (.table .opened held))
      | some _ => none)
    .opened path entries

def openItem (path : List String) (key : String) (entries : Entries) : Option Entries :=
  change false
    (fun _ inner =>
      match inner.get? key with
      | none => some (inner.put key (.tables [[]]))
      | some (.tables items) => some (inner.put key (.tables (items ++ [[]])))
      | some _ => none)
    .opened path entries

end Entries

structure Key where
  path : List String
  last : String
  deriving DecidableEq, Repr

def isBareChar (c : Char) : Bool := c.isAlphanum || c = '_' || c = '-'

def simpleKey (s : List Char) : Option (String × List Char) :=
  match s.head? with
  | some '"' => (shortString s).map fun (cs, rest) => (String.ofList cs, rest)
  | some '\'' => (shortString s).map fun (cs, rest) => (String.ofList cs, rest)
  | _ =>
    let bare := s.takeWhile isBareChar
    if bare = [] then none else some (String.ofList bare, s.dropWhile isBareChar)

def key : Nat → List Char → Option (Key × List Char)
  | 0, _ => none
  | limit + 1, s => do
    let (name, rest) ← simpleKey (skipBlanks s)
    match skipBlanks rest with
    | '.' :: more => do
      let (k, after) ← key limit more
      return (⟨name :: k.path, k.last⟩, after)
    | after => return (⟨[], name⟩, after)

def depthLimit : Nat := 79

def skipGap : Bool → List Char → List Char
  | _, '\n' :: rest => skipGap false rest
  | _, '\r' :: '\n' :: rest => skipGap false rest
  | true, c :: rest => if isPlain c then skipGap true rest else c :: rest
  | false, c :: rest =>
    if isBlank c then skipGap false rest
    else if c = '#' then skipGap true rest
    else c :: rest
  | _, [] => []

def elements (value : List Char → Option (Node × List Char)) (s : List Char) :
    Option (List Char) :=
  match skipGap false s with
  | ']' :: rest => some rest
  | t => do
    let (_, rest) ← value t
    match skipGap false rest with
    | ']' :: after => some after
    | ',' :: more => if more.length < s.length then elements value more else none
    | _ => none
termination_by s.length

def inlinePairs (value : List Char → Option (Node × List Char)) (entries : Entries)
    (s : List Char) : Option (Entries × List Char) := do
  let (k, rest) ← key depthLimit s
  match rest with
  | '=' :: rest => do
    let (node, rest) ← value (skipBlanks rest)
    let entries ← entries.addPair k.path k.last node
    match skipBlanks rest with
    | '}' :: after => some (entries, after)
    | ',' :: more => if more.length < s.length then inlinePairs value entries more else none
    | _ => none
  | _ => none
termination_by s.length

def value : Nat → List Char → Option (Node × List Char)
  | depth, s =>
    match s.head? with
    | some '"' => (string s).map fun (cs, rest) => (.text (String.ofList cs), rest)
    | some '\'' => (string s).map fun (cs, rest) => (.text (String.ofList cs), rest)
    | some '[' =>
      match depth with
      | 0 => none
      | depth + 1 => (elements (value depth) s.tail).map fun rest => (.other, rest)
    | some '{' =>
      match depth with
      | 0 => none
      | depth + 1 =>
        match skipBlanks s.tail with
        | '}' :: rest => some (.table .inline [], rest)
        | t => (inlinePairs (value depth) [] t).map fun (entries, rest) =>
            (.table .inline entries, rest)
    | _ =>
      let token := s.takeWhile isScalarChar
      if token = ['t', 'r', 'u', 'e'] then some (.boolean true, s.dropWhile isScalarChar)
      else if token = ['f', 'a', 'l', 's', 'e'] then
        some (.boolean false, s.dropWhile isScalarChar)
      else (afterScalar s).map fun rest => (.other, rest)

def lineEnd (s : List Char) : Option (List Char) :=
  match skipBlanks s with
  | [] => some []
  | '#' :: rest =>
    match rest.dropWhile isPlain with
    | [] => some []
    | more => afterBreak more
  | more => afterBreak more

inductive Statement where
  | pair (key : Key) (node : Node)
  | table (key : Key)
  | item (key : Key)

def statement (s : List Char) : Option (Option Statement × List Char) :=
  match skipBlanks s with
  | '[' :: '[' :: rest => do
    let (k, rest) ← key depthLimit rest
    match rest with
    | ']' :: ']' :: rest => (lineEnd rest).map fun next => (some (.item k), next)
    | _ => none
  | '[' :: rest => do
    let (k, rest) ← key depthLimit rest
    match rest with
    | ']' :: rest => (lineEnd rest).map fun next => (some (.table k), next)
    | _ => none
  | t =>
    match lineEnd t with
    | some next => some (none, next)
    | none => do
      let (k, rest) ← key depthLimit t
      match rest with
      | '=' :: rest => do
        let (node, rest) ← value depthLimit (skipBlanks rest)
        (lineEnd rest).map fun next => (some (.pair k node), next)
      | _ => none

/-- The statements of all lines. Every line takes a character, so a line that takes none
is never met. -/
def statements (s : List Char) : Option (List Statement) :=
  if s = [] then some []
  else
    match statement s with
    | none => none
    | some (found, next) =>
      if next.length < s.length then (statements next).map fun more => found.toList ++ more
      else none
termination_by s.length

structure Building where
  root : Entries
  current : List String

def Building.add (b : Building) : Statement → Option Building
  | .pair k node =>
    (Entries.change false (fun _ inner => Entries.addPair k.path k.last node inner) .opened
      b.current b.root).map fun root => ⟨root, b.current⟩
  | .table k => (b.root.openTable k.path k.last).map fun root => ⟨root, k.path ++ [k.last]⟩
  | .item k => (b.root.openItem k.path k.last).map fun root => ⟨root, k.path ++ [k.last]⟩

def parse (s : List Char) : Option Entries := do
  let s := if s.head? = some '\uFEFF' then s.tail else s
  let built ← (← statements s).foldlM Building.add ⟨[], []⟩
  return built.root

end HugePools.Toml
