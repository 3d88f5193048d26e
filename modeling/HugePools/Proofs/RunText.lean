import HugePools.Proofs.BareText
import HugePools.Proofs.JoinedRuns

/-! Runs and lists of runs as text. A run is read back from its text, and a list of runs is cut
into the texts that it was joined from. -/
namespace HugePools

namespace Text

theorem piecesSplitOn (sep : Char) (s : List Char) : pieces sep s = s.splitOn sep := by
  induction s with
  | nil => rfl
  | cons c rest ih =>
    rw [pieces, List.splitOn_cons_eq_if_modifyHead, ← ih]
    simp only [beq_iff_eq]
    split
    · rfl
    · cases first : pieces sep rest with
      | nil => exact absurd first (piecesNonempty sep rest)
      | cons piece more => rfl

theorem piecesJoined {sep : Char} {parts : List (List Char)} (clean : ∀ part ∈ parts, sep ∉ part)
    (some : parts ≠ []) : pieces sep ([sep].intercalate parts) = parts := by
  rw [piecesSplitOn, List.splitOn_intercalate _ clean some]

theorem piecesLast {sep : Char} {s : List Char} (some : s ≠ [])
    (other : s.getLast? ≠ Option.some sep) : (pieces sep s).getLast? ≠ Option.some [] := by
  induction s with
  | nil => exact absurd rfl some
  | cons c rest ih =>
    cases rest with
    | nil =>
      have different : c ≠ sep := fun same => other (congrArg Option.some same)
      simp [pieces, different]
    | cons b more =>
      rw [List.getLast?_cons_cons] at other
      have later := ih (List.cons_ne_nil b more) other
      unfold pieces
      cases first : pieces sep (b :: more) with
      | nil => exact absurd first (piecesNonempty sep _)
      | cons piece others =>
        rw [first] at later
        split
        · rwa [List.getLast?_cons_cons]
        · cases others with
          | nil => simp
          | cons next tail => rwa [List.getLast?_cons_cons] at later ⊢

theorem cutAbsent {sep : Char} {s : List Char} (absent : sep ∉ s) : cut sep s = none := by
  induction s with
  | nil => rfl
  | cons c rest ih =>
    obtain ⟨other, later⟩ := not_or.mp (List.mem_cons.not.mp absent)
    rw [cut, if_neg (Ne.symm other), ih later]
    rfl

theorem cutFirst {sep : Char} {before : List Char} (absent : sep ∉ before) (after : List Char) :
    cut sep (before ++ sep :: after) = some (before, after) := by
  induction before with
  | nil => exact if_pos rfl
  | cons c rest ih =>
    obtain ⟨other, later⟩ := not_or.mp (List.mem_cons.not.mp absent)
    rw [List.cons_append, cut, if_neg (Ne.symm other), ih later]
    rfl

theorem digitsAll {n : Nat} : ∀ c ∈ digits n, c.isDigit = true := Integer.digitsOnly

theorem digitsDashless (n : Nat) : '-' ∉ digits n := fun mem =>
  absurd (digitsAll '-' mem) (by decide)

theorem digitsBare (n : Nat) : Bare (digits n) := fun c mem => digitBare (digitsAll c mem)

theorem numberRead (n : Nat) : number? (digits n) = some n :=
  decimalIff.mpr ⟨Nat.toDigits_ne_nil, digitsAll, numberOfDigits n⟩

end Text

namespace Run

theorem indexRead {index : Nat} (fits : index < wordLimit) :
    index? (Text.digits index) = some ⟨index, fits⟩ := by
  unfold index?
  rw [Text.trimBare (Text.digitsBare index), Text.numberRead]
  exact dif_pos fits

theorem charsKnown (r : Run) : ∀ c ∈ r.chars, c.isDigit = true ∨ c = '-' := by
  intro c mem
  unfold chars at mem
  split at mem
  · exact .inl (Text.digitsAll c mem)
  · rcases List.mem_append.mp mem with front | back
    · exact .inl (Text.digitsAll c front)
    · rcases List.mem_cons.mp back with dash | later
      · exact .inr dash
      · exact .inl (Text.digitsAll c later)

theorem charsBare (r : Run) : Text.Bare r.chars := by
  intro c mem
  rcases r.charsKnown c mem with digit | rfl
  · exact Text.digitBare digit
  · rfl

theorem charsSome (r : Run) : r.chars ≠ [] := by
  unfold chars
  split
  · exact Nat.toDigits_ne_nil
  · simp

theorem parseText (r : Run) : parse r.text = .ok r := by
  have first : r.first < wordLimit := Nat.lt_of_le_of_lt r.ordered r.bounded
  have last : r.last < wordLimit := r.bounded
  have token : Text.trim r.text.toList = r.chars := by
    rw [text, String.toList_ofList, Text.trimBare r.charsBare]
  unfold parse
  rw [token]
  by_cases same : r.first = r.last
  · have written : r.chars = Text.digits r.first := if_pos same
    rw [written]
    simp only [Text.cutAbsent (Text.digitsDashless r.first), indexRead first]
    cases r
    cases same
    rfl
  · have written : r.chars = Text.digits r.first ++ '-' :: Text.digits r.last := if_neg same
    rw [written]
    simp only [Text.cutFirst (Text.digitsDashless r.first), indexRead first, indexRead last]
    exact dif_pos r.ordered

end Run

namespace PageSet

def chars (s : PageSet) : List Char := [','].intercalate (s.runs.map Run.chars)

variable (s : PageSet)

theorem charsCut (some : s.runs ≠ []) : Text.pieces ',' s.chars = s.runs.map Run.chars := by
  refine Text.piecesJoined (fun part mem comma => ?_) (by simpa using some)
  obtain ⟨r, _, rfl⟩ := List.mem_map.mp mem
  exact (Text.bareIff.mp (r.charsBare ',' comma)).2.2.1 rfl

theorem charsSome (some : s.runs ≠ []) : s.chars ≠ [] := by
  intro none
  have parts := s.charsCut some
  rw [none] at parts
  have mem : [] ∈ s.runs.map Run.chars := parts ▸ List.mem_singleton_self _
  obtain ⟨r, _, empty⟩ := List.mem_map.mp mem
  exact r.charsSome empty

theorem charsKnown : ∀ c ∈ s.chars, c.isDigit = true ∨ c = '-' ∨ c = ',' := by
  refine intercalateAll (fun c => c.isDigit = true ∨ c = '-' ∨ c = ',') (.inr (.inr rfl)) ?_
  intro part mem c held
  obtain ⟨r, _, rfl⟩ := List.mem_map.mp mem
  exact (r.charsKnown c held).imp_right .inl

theorem charsSolid : ∀ c ∈ s.chars, Text.isBlank c = false := by
  intro c mem
  rcases s.charsKnown c mem with digit | rfl | rfl
  · exact (Text.bareIff.mp (Text.digitBare digit)).2.1
  · rfl
  · rfl

theorem charsTrimmed : Text.trim s.chars = s.chars := Text.trimSolid s.charsSolid

theorem interiorPlain {text : List Char} (plain : '[' ∉ text) : interior text = text := by
  unfold interior
  split
  · exact absurd List.mem_cons_self plain
  · rfl

theorem charsInterior : interior s.chars = s.chars := by
  refine interiorPlain fun mem => ?_
  rcases s.charsKnown '[' mem with digit | dash | comma
  · exact absurd digit (by decide)
  · exact absurd dash (by decide)
  · exact absurd comma (by decide)

theorem textsRead (runs : List Run) :
    ((runs.map Run.chars).map String.ofList).mapM Run.parse = .ok runs := by
  induction runs with
  | nil => rfl
  | cons r rest ih => exact Results.mapMCons.mpr ⟨r, rest, r.parseText, ih, rfl⟩

theorem parseChars {list : String} (body : interior (Text.trim list.toList) = s.chars) :
    parse list = .ok s.plain := by
  unfold parse
  rw [body]
  by_cases none : s.runs = []
  · have blank : s.chars = [] := by rw [chars, none]; rfl
    have same : empty = s.plain := plainRuns none.symm rfl
    exact (if_pos blank).trans (congrArg Except.ok same)
  · simp only [if_neg (s.charsSome none), s.charsCut none, ← s.ofRunsPlain]
    exact Results.mapOk.mpr ⟨s.runs, textsRead s.runs, rfl⟩

theorem parseEncode : parse s.encode = .ok s.plain := by
  refine s.parseChars ?_
  change interior (Text.trim (String.ofList s.chars).toList) = s.chars
  rw [String.toList_ofList, s.charsTrimmed, s.charsInterior]

theorem parseBracketed : parse ("[" ++ s.encode ++ "]") = .ok s.plain := by
  have text : ("[" ++ s.encode ++ "]").toList = '[' :: (s.chars ++ [']']) := by
    simp [encode, chars]
  have solid : ∀ c ∈ '[' :: (s.chars ++ [']']), Text.isBlank c = false := by
    refine List.forall_mem_cons.mpr ⟨rfl, fun c mem => ?_⟩
    rcases List.mem_append.mp mem with own | mark
    · exact s.charsSolid c own
    · exact List.mem_singleton.mp mark ▸ rfl
  refine s.parseChars ?_
  rw [text, Text.trimSolid solid, interior, if_pos List.getLast?_concat,
    List.dropLast_concat, s.charsTrimmed]

end PageSet
end HugePools
