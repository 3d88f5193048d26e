import HugePools.Integer

/-! TOML strings, read and written. Basic strings know escapes and literal ones do not;
both come in one line between single quote marks and over lines between triple ones. The
writer takes the plainest form that can hold the text. -/
namespace HugePools.Toml

inductive Quote where
  | basic | literal
  deriving DecidableEq, Repr

def Quote.mark : Quote → Char
  | .basic => '"'
  | .literal => '\''

def isPlain (c : Char) : Bool := c = '\t' || (0x20 ≤ c.toNat && c.toNat ≠ 0x7F)

def isBlank (c : Char) : Bool := c = ' ' || c = '\t'

def skipBlanks (s : List Char) : List Char := s.dropWhile isBlank

def afterBreak : List Char → Option (List Char)
  | '\n' :: rest => some rest
  | '\r' :: '\n' :: rest => some rest
  | _ => none

def codePoint (count : Nat) (s : List Char) : Option (Char × List Char) := do
  let digits ← (s.take count).mapM (Integer.digit? 16)
  let n := digits.foldl (fun n d => 16 * n + d) 0
  if digits.length = count ∧ n.isValidChar then some (Char.ofNat n, s.drop count) else none

def escape : List Char → Option (Char × List Char)
  | 'b' :: rest => some ('\x08', rest)
  | 't' :: rest => some ('\t', rest)
  | 'n' :: rest => some ('\n', rest)
  | 'f' :: rest => some ('\x0c', rest)
  | 'r' :: rest => some ('\r', rest)
  | '"' :: rest => some ('"', rest)
  | '\\' :: rest => some ('\\', rest)
  | 'u' :: rest => codePoint 4 rest
  | 'U' :: rest => codePoint 8 rest
  | _ => none

theorem codePointShorter {count : Nat} {s rest : List Char} {c : Char}
    (found : codePoint count s = some (c, rest)) : rest.length ≤ s.length := by
  simp only [codePoint, Option.bind_eq_bind, Option.bind_eq_some_iff] at found
  obtain ⟨digits, _, found⟩ := found
  split at found
  · cases found
    simp
  · contradiction

theorem escapeShorter {s rest : List Char} {c : Char}
    (found : escape s = some (c, rest)) : rest.length < s.length := by
  unfold escape at found
  split at found
  case h_8 tail =>
    have := codePointShorter found
    simp only [List.length_cons]
    omega
  case h_9 tail =>
    have := codePointShorter found
    simp only [List.length_cons]
    omega
  case h_10 => contradiction
  all_goals
    cases found
    simp

def lineUnit (q : Quote) : List Char → Option (Char × List Char)
  | [] => none
  | c :: rest =>
    if c = '\\' ∧ q = .basic then escape rest
    else if isPlain c ∧ c ≠ q.mark then some (c, rest)
    else none

theorem lineUnitShorter {q : Quote} {s rest : List Char} {c : Char}
    (found : lineUnit q s = some (c, rest)) : rest.length < s.length := by
  cases s with
  | nil => contradiction
  | cons d tail =>
    simp only [lineUnit] at found
    split at found
    · have := escapeShorter found
      simp only [List.length_cons]
      omega
    · split at found
      · cases found
        simp
      · contradiction

def line (q : Quote) (s : List Char) : Option (List Char × List Char) :=
  if s.head? = some q.mark then some ([], s.tail)
  else
    match _found : lineUnit q s with
    | none => none
    | some (c, rest) => (line q rest).map fun (cs, after) => (c :: cs, after)
termination_by s.length
decreasing_by exact lineUnitShorter (by assumption)

def skipSpace : List Char → List Char
  | '\n' :: rest => skipSpace rest
  | '\r' :: '\n' :: rest => skipSpace rest
  | ' ' :: rest => skipSpace rest
  | '\t' :: rest => skipSpace rest
  | s => s

/-- After a backslash: a line that ends there goes on at the next visible character. -/
def continued (s : List Char) : Option (List Char) := (afterBreak (skipBlanks s)).map skipSpace

/-- One step in a string over lines: a line break, a character, or a line joined to the
next one, which adds nothing. -/
def linesUnit (q : Quote) : List Char → Option (List Char × List Char)
  | [] => none
  | c :: rest =>
    if c = '\\' ∧ q = .basic then
      match continued rest with
      | some after => some ([], after)
      | none => (escape rest).map fun (d, after) => ([d], after)
    else
      match afterBreak (c :: rest) with
      | some after => some (['\n'], after)
      | none => if isPlain c then some ([c], rest) else none

theorem afterBreakShorter {s rest : List Char} (found : afterBreak s = some rest) :
    rest.length < s.length := by
  unfold afterBreak at found
  split at found <;> try contradiction
  · cases found
    simp
  · cases found
    simp only [List.length_cons]
    omega

theorem skipSpaceLe (s : List Char) : (skipSpace s).length ≤ s.length := by
  fun_induction skipSpace s <;> simp_all <;> omega

theorem continuedShorter {s rest : List Char} (found : continued s = some rest) :
    rest.length < s.length := by
  simp only [continued, Option.map_eq_some_iff] at found
  obtain ⟨after, broken, rfl⟩ := found
  have := afterBreakShorter broken
  have := skipSpaceLe after
  have := (List.dropWhile_suffix isBlank (l := s)).length_le
  unfold skipBlanks at *
  omega

theorem linesUnitShorter {q : Quote} {s rest cs : List Char}
    (found : linesUnit q s = some (cs, rest)) : rest.length < s.length := by
  cases s with
  | nil => contradiction
  | cons c tail =>
    simp only [linesUnit] at found
    split at found
    · split at found
      · rename_i after joined
        cases found
        have := continuedShorter joined
        simp only [List.length_cons]
        omega
      · simp only [Option.map_eq_some_iff, Prod.exists, Prod.mk.injEq] at found
        obtain ⟨d, after, escaped, _, rfl⟩ := found
        have := escapeShorter escaped
        simp only [List.length_cons]
        omega
    · split at found
      · rename_i after broken
        cases found
        exact afterBreakShorter broken
      · split at found
        · cases found
          simp
        · contradiction

/-- The text up to the closing quote marks. Three marks close; of a longer run the first
one or two still belong to the text. -/
def lines (q : Quote) (s : List Char) : Option (List Char × List Char) :=
  let run := (s.takeWhile (· = q.mark)).length
  if 3 ≤ run then some (List.replicate (min run 5 - 3) q.mark, s.drop (min run 5))
  else
    match _found : linesUnit q s with
    | none => none
    | some (cs, rest) => (lines q rest).map fun (more, after) => (cs ++ more, after)
termination_by s.length
decreasing_by exact linesUnitShorter (by assumption)

def skipFirstBreak (s : List Char) : List Char := (afterBreak s).getD s

def shortString : List Char → Option (List Char × List Char)
  | '"' :: rest => line .basic rest
  | '\'' :: rest => line .literal rest
  | _ => none

def string : List Char → Option (List Char × List Char)
  | '"' :: '"' :: '"' :: rest => lines .basic (skipFirstBreak rest)
  | '\'' :: '\'' :: '\'' :: rest => lines .literal (skipFirstBreak rest)
  | s => shortString s

structure Form where
  quote : Quote
  long : Bool
  deriving DecidableEq, Repr

def isControl (c : Char) : Bool :=
  c ≠ '\t' && c ≠ '\n' && (c.toNat < 0x20 || c.toNat = 0x7F)

def hasRun (c : Char) : List Char → Bool
  | [] => false
  | d :: rest => [c, c, c].isPrefixOf (d :: rest) || hasRun c rest

def form (s : List Char) : Form :=
  if s.any isControl then ⟨.basic, '\n' ∈ s⟩
  else if '\n' ∉ s ∧ '"' ∉ s ∧ '\\' ∉ s then ⟨.basic, false⟩
  else if '\n' ∉ s ∧ '\'' ∉ s then ⟨.literal, false⟩
  else if '\\' ∉ s ∧ hasRun '"' s = false then ⟨.basic, true⟩
  else if hasRun '\'' s = false then ⟨.literal, true⟩
  else ⟨.basic, '\n' ∈ s⟩

def hexDigit (n : Nat) : Char := if n < 10 then Char.ofNat (48 + n) else Char.ofNat (55 + n)

def escapeChar (c : Char) : List Char :=
  if c = '\x08' then ['\\', 'b']
  else if c = '\t' then ['\\', 't']
  else if c = '\x0c' then ['\\', 'f']
  else if c = '\r' then ['\\', 'r']
  else if c = '\\' then ['\\', '\\']
  else if isControl c then
    ['\\', 'u', '0', '0', hexDigit (c.toNat / 16), hexDigit (c.toNat % 16)]
  else [c]

/-- The inside of a basic string. Quote marks stand as they are while fewer than `allowed`
of them were written since the last escape or other character. -/
def escaped (allowed : Nat) : Nat → List Char → List Char
  | _, [] => []
  | run, c :: rest =>
    if c ≠ '"' then escapeChar c ++ escaped allowed 0 rest
    else if run < allowed then '"' :: escaped allowed (run + 1) rest
    else '\\' :: '"' :: escaped allowed 0 rest

def inside (f : Form) (s : List Char) : List Char :=
  match f.quote with
  | .literal => s
  | .basic => escaped (if f.long then 2 else 0) 0 s

def surround (f : Form) (s : List Char) : List Char :=
  let marks := List.replicate (if f.long then 3 else 1) f.quote.mark
  marks ++ (if f.long ∧ '\n' ∈ s then ['\n'] else []) ++ inside f s ++ marks

def writeString (s : List Char) : List Char := surround (form s) s

end HugePools.Toml
