import HugePools.Pool

/-! What an operation reports while it runs. A journal keeps the events of the steps
that ran, also where a later step fails. -/
namespace HugePools

inductive Level where
  | error | warn | info | debug
  deriving DecidableEq, Repr

namespace Level

def rank : Level → Nat
  | .error => 0
  | .warn => 1
  | .info => 2
  | .debug => 3

def label : Level → String
  | .error => "ERROR"
  | .warn => "WARN"
  | .info => "INFO"
  | .debug => "DEBUG"

end Level

inductive Event where
  | detected (source : String) (schema : Schema)
  | repeatedPages (pool : PoolKind) (page : PageSize) (list : String) (pages : PageSet)
  | poolRead (pool : Pool)
  | repeatedPool (pool : PoolKind) (rows : Nat)
  | validating (pool : PoolKind)
  | validated (pages2MB pages1GB : Nat)
  | regionRead (pool : PoolKind) (intervals size pages2MB pages1GB : Nat)
  | written (rows : Nat) (path : String)
  | settingsRead (path shown : String)
  | accepted (path schema : String)
  | summarized (summary : String)
  | outputIgnored
  deriving DecidableEq, Repr

namespace Event

def level : Event → Level
  | .detected _ _ => .debug
  | .repeatedPages _ _ _ _ => .warn
  | .poolRead _ => .debug
  | .repeatedPool _ _ => .warn
  | .validating _ => .debug
  | .validated _ _ => .info
  | .regionRead _ _ _ _ _ => .debug
  | .written _ _ => .info
  | .settingsRead _ _ => .debug
  | .accepted _ _ => .info
  | .summarized _ => .info
  | .outputIgnored => .warn

def text : Event → String
  | .detected source schema => s!"'{source}': detected {schema.name} schema"
  | .repeatedPages pool page list pages =>
    s!"{pool.name} pool: duplicate {page.label} page indices in '{list}', using {pages.encode}"
  | .poolRead p =>
    s!"{p.kind.name} pool: size {p.size.text}, " ++
      s!"2MB pages [{p.large.pages.encode}] @ {p.large.offset.bytes}, " ++
      s!"1GB pages [{p.huge.pages.encode}] @ {p.huge.offset.bytes}"
  | .repeatedPool pool rows => s!"{pool.name} pool defined {rows} times, using the first row"
  | .validating pool => s!"validating {pool.name} pool"
  | .validated pages2MB pages1GB =>
    s!"layout validated: {pages2MB} x 2MB, {pages1GB} x 1GB huge pages"
  | .regionRead pool intervals size pages2MB pages1GB =>
    s!"{pool.name} pool: {intervals} legacy intervals, size {size}, " ++
      s!"{pages2MB} x 2MB, {pages1GB} x 1GB"
  | .written rows path => s!"wrote {rows} legacy rows to '{path}'"
  | .settingsRead path shown => s!"loaded settings from '{path}': {shown}"
  | .accepted path schema => s!"'{path}' is a valid {schema} layout"
  | .summarized summary => summary
  | .outputIgnored => "input is already a legacy layout; --output ignored"

def line (e : Event) : String := s!"{e.level.label} {e.text}"

def reaches (threshold : Level) (e : Event) : Bool := e.level.rank ≤ threshold.rank

end Event

structure Journal (ε α : Type) where
  events : List Event
  result : Except ε α

namespace Journal

variable {ε α β : Type}

def done (value : α) : Journal ε α := ⟨[], .ok value⟩

def fail (fault : ε) : Journal ε α := ⟨[], .error fault⟩

def tell (events : List Event) : Journal ε Unit := ⟨events, .ok ()⟩

def ofExcept (result : Except ε α) : Journal ε α := ⟨[], result⟩

/-- Runs the next step only after a success; the events of the first one stay either way. -/
def andThen (j : Journal ε α) (next : α → Journal ε β) : Journal ε β :=
  match j.result with
  | .error fault => ⟨j.events, .error fault⟩
  | .ok value => ⟨j.events ++ (next value).events, (next value).result⟩

instance : Monad (Journal ε) where
  pure := done
  bind := andThen

def mapFault {δ : Type} (change : ε → δ) (j : Journal ε α) : Journal δ α :=
  ⟨j.events, j.result.mapError change⟩

def lines (threshold : Level) (j : Journal ε α) : List String :=
  (j.events.filter (Event.reaches threshold)).map Event.line

theorem andThenOk {j : Journal ε α} {value : α} (ok : j.result = .ok value)
    (next : α → Journal ε β) :
    j.andThen next = ⟨j.events ++ (next value).events, (next value).result⟩ := by
  simp [andThen, ok]

theorem andThenError {j : Journal ε α} {fault : ε} (bad : j.result = .error fault)
    (next : α → Journal ε β) : j.andThen next = ⟨j.events, .error fault⟩ := by
  simp [andThen, bad]

end Journal
end HugePools
