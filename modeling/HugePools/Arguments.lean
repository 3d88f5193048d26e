/-! The arguments of the command line: options of the program before or after the name of
a subcommand, and the subcommand's own options after it. Arguments are taken from left to
right, and the first one that does not fit decides. -/
namespace HugePools

inductive Action where
  | convert | check | inspect
  deriving DecidableEq, Repr

structure Request where
  action : Action
  input : String
  output : Option String
  exact : Bool
  json : Bool
  config : Option String
  verbosity : Nat
  deriving DecidableEq, Repr

inductive Invocation where
  | version
  | request (r : Request)
  deriving DecidableEq, Repr

namespace Arguments

inductive Flag where
  | verbose | version | noPadding | json
  deriving DecidableEq, Repr

inductive Valued where
  | config | input | output
  deriving DecidableEq, Repr

inductive Switch where
  | flag (f : Flag)
  | valued (v : Valued)
  deriving DecidableEq, Repr

structure Seen where
  config : Option String := none
  input : Option String := none
  output : Option String := none
  verbose : Nat := 0
  noPadding : Bool := false
  json : Bool := false
  deriving DecidableEq, Repr

def allowed : Option Action → Switch → Bool
  | _, .valued .config => true
  | _, .flag .verbose => true
  | none, s => s = .flag .version
  | some _, .valued .input => true
  | some a, .valued .output => a = .convert
  | some a, .flag .noPadding => a = .convert
  | some a, .flag .json => a = .inspect
  | some _, .flag .version => false

def long? : String → Option Switch
  | "config" => some (.valued .config)
  | "input" => some (.valued .input)
  | "output" => some (.valued .output)
  | "verbose" => some (.flag .verbose)
  | "version" => some (.flag .version)
  | "no-padding" => some (.flag .noPadding)
  | "json" => some (.flag .json)
  | _ => none

def short? : Char → Option Switch
  | 'c' => some (.valued .config)
  | 'i' => some (.valued .input)
  | 'o' => some (.valued .output)
  | 'v' => some (.flag .verbose)
  | 'V' => some (.flag .version)
  | _ => none

def action? : String → Option Action
  | "convert" => some .convert
  | "check" => some .check
  | "inspect" => some .inspect
  | _ => none

def setValue (v : Valued) (value : String) (seen : Seen) : Option Seen :=
  if value = "" then none
  else
    match v with
    | .config => if seen.config.isSome then none else some { seen with config := some value }
    | .input => if seen.input.isSome then none else some { seen with input := some value }
    | .output => if seen.output.isSome then none else some { seen with output := some value }

def setFlag (f : Flag) (seen : Seen) : Option Seen :=
  match f with
  | .verbose => some { seen with verbose := seen.verbose + 1 }
  | .version => some seen
  | .noPadding => if seen.noPadding then none else some { seen with noPadding := true }
  | .json => if seen.json then none else some { seen with json := true }

inductive Step where
  | version
  | next (seen : Seen)
  | needs (v : Valued) (seen : Seen)
  deriving DecidableEq, Repr

def cluster (side : Option Action) (seen : Seen) : List Char → Option Step
  | [] => some (.next seen)
  | c :: rest => do
    let s ← short? c
    if allowed side s then
      match s with
      | .flag .version => some .version
      | .flag f => cluster side (← setFlag f seen) rest
      | .valued v =>
        match rest with
        | [] => some (.needs v seen)
        | '=' :: value => (setValue v (String.ofList value) seen).map .next
        | value => (setValue v (String.ofList value) seen).map .next
    else none

def longStep (side : Option Action) (seen : Seen) (s : List Char) : Option Step := do
  let name := s.takeWhile (· ≠ '=')
  let switch ← long? (String.ofList name)
  if allowed side switch then
    match switch, s.dropWhile (· ≠ '=') with
    | .flag .version, [] => some .version
    | .flag f, [] => (setFlag f seen).map .next
    | .flag _, _ => none
    | .valued v, [] => some (.needs v seen)
    | .valued v, _ :: value => (setValue v (String.ofList value) seen).map .next
  else none

def step (side : Option Action) (seen : Seen) (argument : String) : Option Step :=
  match argument.toList with
  | '-' :: '-' :: s => longStep side seen s
  | '-' :: c :: s => cluster side seen (c :: s)
  | _ => none

def isValue (argument : String) : Bool := argument.toList.head? ≠ some '-' || argument = "-"

inductive Ending where
  | version
  | finished (seen : Seen)
  | entered (seen : Seen) (action : Action) (rest : List String)
  deriving DecidableEq, Repr

def scan (side : Option Action) (seen : Seen) : List String → Option Ending
  | [] => some (.finished seen)
  | argument :: rest =>
    match side, action? argument with
    | none, some action => some (.entered seen action rest)
    | _, _ =>
      if argument = "--" then if rest = [] then some (.finished seen) else none
      else
        match step side seen argument, rest with
        | none, _ => none
        | some .version, _ => some .version
        | some (.next seen), rest => scan side seen rest
        | some (.needs _ _), [] => none
        | some (.needs v seen), value :: rest =>
          if isValue value then
            match setValue v value seen with
            | some seen => scan side seen rest
            | none => none
          else none

def parse (arguments : List String) : Option Invocation :=
  match scan none {} arguments with
  | none => none
  | some .version => some .version
  | some (.finished _) => none
  | some (.entered before action rest) =>
    match scan (some action) {} rest with
    | some (.finished after) =>
      after.input.map fun input => .request {
        action := action
        input := input
        output := after.output
        exact := after.noPadding
        json := after.json
        config := after.config <|> before.config
        verbosity := if after.verbose = 0 then before.verbose else after.verbose }
    | _ => none

end Arguments
end HugePools
