import HugePools.Run

/-! Sets of page indices, kept as ascending runs with a gap between each two, together
with a note whether the source named an index twice. -/
namespace HugePools

structure PageSet where
  runs : List Run
  duplicates : Bool
  canonical : runs.Pairwise Run.Apart
  deriving DecidableEq, Repr

namespace PageSet

/-- Joins runs that come in order of their first index. `cur` is the run still open. -/
def joinFrom (cur : Run) : List Run → List Run
  | [] => [cur]
  | r :: rest =>
    if r.first ≤ cur.last + 1 then joinFrom (cur.extend r) rest
    else cur :: joinFrom r rest

def join : List Run → List Run
  | [] => []
  | r :: rest => joinFrom r rest

/-- Whether one of the ordered runs begins at or before the furthest index reached. -/
def sharesFrom (reach : Nat) : List Run → Bool
  | [] => false
  | r :: rest => r.first ≤ reach || sharesFrom (max reach r.last) rest

def shares : List Run → Bool
  | [] => false
  | r :: rest => sharesFrom r.last rest

theorem joinFromStart {cur s : Run} {rest : List Run} (mem : s ∈ joinFrom cur rest) :
    cur.first ≤ s.first := by
  induction rest generalizing cur with
  | nil =>
    rw [joinFrom, List.mem_singleton] at mem
    exact mem ▸ Nat.le_refl _
  | cons r rest ih =>
    rw [joinFrom] at mem
    split at mem
    · have := ih mem
      exact this
    · rcases List.mem_cons.mp mem with same | later
      · exact same ▸ Nat.le_refl _
      · have := ih later
        have := cur.ordered
        omega

theorem joinFromApart (cur : Run) (rest : List Run) :
    (joinFrom cur rest).Pairwise Run.Apart := by
  induction rest generalizing cur with
  | nil => simp [joinFrom]
  | cons r rest ih =>
    rw [joinFrom]
    split
    · exact ih _
    · refine List.pairwise_cons.mpr ⟨fun s mem => ?_, ih r⟩
      have := joinFromStart mem
      simp only [Run.Apart]
      omega

theorem joinApart (runs : List Run) : (join runs).Pairwise Run.Apart := by
  cases runs with
  | nil => simp [join]
  | cons r rest => exact joinFromApart r rest

def ofRuns (runs : List Run) : PageSet :=
  let sorted := runs.mergeSort Run.before
  ⟨join sorted, shares sorted, joinApart sorted⟩

def empty : PageSet := ⟨[], false, .nil⟩

def ofIndices (indices : List Word) : PageSet := ofRuns (indices.map Run.single)

def ofTokens (tokens : List String) : Except QuantityError PageSet :=
  (tokens.mapM Run.parse).map ofRuns

def interior : List Char → List Char
  | '[' :: rest => if rest.getLast? = some ']' then Text.trim rest.dropLast else '[' :: rest
  | s => s

def parse (text : String) : Except QuantityError PageSet :=
  let body := interior (Text.trim text.toList)
  if body = [] then .ok empty
  else ofTokens ((Text.pieces ',' body).map String.ofList)

def encode (s : PageSet) : String := String.ofList ([','].intercalate (s.runs.map Run.chars))

def isEmpty (s : PageSet) : Bool := s.runs.isEmpty

def indices (s : PageSet) : List Nat := s.runs.flatMap Run.indices

def Has (s : PageSet) (index : Nat) : Prop := ∃ r ∈ s.runs, r.Has index

def firstOf : Nat → List Run → List Nat
  | 0, _ => []
  | _, [] => []
  | limit, r :: rest =>
    let taken := min limit r.count
    List.range' r.first taken ++ firstOf (limit - taken) rest

def firstIndices (s : PageSet) (limit : Nat) : List Nat := firstOf limit s.runs

def search (index : Nat) (runs : List Run) : Bool :=
  match found : runs.drop (runs.length / 2) with
  | [] => false
  | mid :: above =>
    if index < mid.first then search index (runs.take (runs.length / 2))
    else if mid.last < index then search index above
    else true
termination_by runs.length
decreasing_by
  all_goals
    have := congrArg List.length found
    simp only [List.length_drop, List.length_cons, List.length_take] at *
    omega

def contains (s : PageSet) (index : Nat) : Bool := search index s.runs

def count (s : PageSet) : Nat :=
  s.runs.foldl (fun total r => saturate (total + saturate r.count)) 0

def byteRanges (pageSize offset : Nat) (s : PageSet) : Except QuantityError (List ByteRange) :=
  s.runs.mapM (Run.byteRange pageSize offset)

end PageSet
end HugePools
