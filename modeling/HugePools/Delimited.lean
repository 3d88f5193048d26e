import HugePools.LayoutError

/-! Comma-separated records, byte by byte. A field that opens with a quote runs to the
next quote that is not doubled; what follows that quote still belongs to the field. Lines
without a byte are no records. Every reading step keeps what it took, so that positions
are counted and not guessed. -/
namespace HugePools.Delimited

def comma : UInt8 := 0x2C

def quote : UInt8 := 0x22

def lineFeed : UInt8 := 0x0A

def isBreak (b : UInt8) : Bool := b = lineFeed || b = 0x0D

def blanks (field : List UInt8) : Nat :=
  (field.takeWhile fun b =>
    b = 0x20 || b = 0x09 || b = lineFeed || b = 0x0C || b = 0x0D).length

inductive Ending where
  | comma | record | input
  deriving DecidableEq, Repr

structure Field where
  content : List UInt8
  ending : Ending
  taken : List UInt8
  rest : List UInt8
  deriving DecidableEq, Repr

def Field.push (content taken : List UInt8) (f : Field) : Field :=
  { f with content := content ++ f.content, taken := taken ++ f.taken }

def plain : List UInt8 → Field
  | [] => ⟨[], .input, [], []⟩
  | b :: rest =>
    if b = comma then ⟨[], .comma, [b], rest⟩
    else if isBreak b then ⟨[], .record, [b], rest⟩
    else (plain rest).push [b] [b]

def quoted : List UInt8 → Field
  | [] => ⟨[], .input, [], []⟩
  | [b] => if b = quote then (plain []).push [] [b] else (plain []).push [b] [b]
  | b :: c :: rest =>
    if b = quote then
      if c = quote then (quoted rest).push [quote] [b, c]
      else (plain (c :: rest)).push [] [b]
    else (quoted (c :: rest)).push [b] [b]

def field : List UInt8 → Field
  | [] => plain []
  | b :: rest => if b = quote then (quoted rest).push [] [b] else plain (b :: rest)

theorem plainTaken (bytes : List UInt8) : (plain bytes).taken ++ (plain bytes).rest = bytes := by
  induction bytes with
  | nil => rfl
  | cons b rest ih =>
    simp only [plain]
    split
    · rfl
    · split
      · rfl
      · simp [Field.push, ih]

theorem quotedTaken (bytes : List UInt8) :
    (quoted bytes).taken ++ (quoted bytes).rest = bytes := by
  fun_induction quoted bytes with
  | case1 => rfl
  | case2 => simp [Field.push, plain]
  | case3 b different => simp [Field.push, plain]
  | case4 rest ih => simp [Field.push, ih]
  | case5 c rest different => simp [Field.push, plainTaken]
  | case6 b c rest different ih => simp [Field.push, ih]

theorem fieldTaken (bytes : List UInt8) : (field bytes).taken ++ (field bytes).rest = bytes := by
  cases bytes with
  | nil => rfl
  | cons b rest =>
    simp only [field]
    split
    · simp [Field.push, quotedTaken]
    · exact plainTaken (b :: rest)

theorem fieldTakes {bytes : List UInt8} (some : bytes ≠ []) : (field bytes).taken ≠ [] := by
  cases bytes with
  | nil => contradiction
  | cons b rest =>
    simp only [field, plain]
    split
    · simp [Field.push]
    · split
      · simp
      · split <;> simp [Field.push]

theorem fieldShorter {bytes : List UInt8} (some : bytes ≠ []) :
    (field bytes).rest.length < bytes.length := by
  have all := congrArg List.length (fieldTaken bytes)
  have takes := List.length_pos_iff.mpr (fieldTakes some)
  rw [List.length_append] at all
  omega

theorem commaNonempty {bytes : List UInt8} (more : (field bytes).ending = .comma) :
    bytes ≠ [] := by
  intro none
  subst none
  cases more

structure Row where
  contents : List (List UInt8)
  taken : List UInt8
  rest : List UInt8
  deriving DecidableEq, Repr

def row (bytes : List UInt8) : Row :=
  if _more : (field bytes).ending = .comma then
    let others := row (field bytes).rest
    ⟨(field bytes).content :: others.contents, (field bytes).taken ++ others.taken, others.rest⟩
  else ⟨[(field bytes).content], (field bytes).taken, (field bytes).rest⟩
termination_by bytes.length
decreasing_by exact fieldShorter (commaNonempty (by assumption))

theorem rowTaken (bytes : List UInt8) : (row bytes).taken ++ (row bytes).rest = bytes := by
  fun_induction row bytes with
  | case1 bytes more others ih => simp [others, ih, fieldTaken]
  | case2 bytes last => exact fieldTaken bytes

theorem rowTakes {bytes : List UInt8} (some : bytes ≠ []) : (row bytes).taken ≠ [] := by
  rw [row]
  split
  · simp [fieldTakes some]
  · exact fieldTakes some

theorem rowShorter {bytes : List UInt8} (some : bytes ≠ []) :
    (row bytes).rest.length < bytes.length := by
  have all := congrArg List.length (rowTaken bytes)
  have takes := List.length_pos_iff.mpr (rowTakes some)
  rw [List.length_append] at all
  omega

structure Record where
  place : Position
  contents : List (List UInt8)
  deriving DecidableEq, Repr

def advance (place : Position) (taken : List UInt8) : Position :=
  ⟨place.record + 1, place.line + taken.count lineFeed, place.byte + taken.length⟩

def recordsFrom (place : Position) (bytes : List UInt8) : List Record :=
  if _some : bytes.dropWhile isBreak ≠ [] then
    let r := row (bytes.dropWhile isBreak)
    ⟨place, r.contents⟩ ::
      recordsFrom (advance place (bytes.takeWhile isBreak ++ r.taken)) r.rest
  else []
termination_by bytes.length
decreasing_by
  have shorter : (row (bytes.dropWhile isBreak)).rest.length < _ := rowShorter (by assumption)
  have := (List.dropWhile_suffix isBreak (l := bytes)).length_le
  omega

def byteOrderMark : List UInt8 := [0xEF, 0xBB, 0xBF]

def records (bytes : List UInt8) : List Record :=
  if byteOrderMark.isPrefixOf bytes then
    match recordsFrom ⟨0, 1, 3⟩ (bytes.drop 3) with
    | [] => []
    | first :: rest => { first with place := ⟨0, 1, 0⟩ } :: rest
  else recordsFrom ⟨0, 1, 0⟩ bytes

end HugePools.Delimited
