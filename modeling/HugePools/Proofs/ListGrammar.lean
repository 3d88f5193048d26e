import HugePools.Proofs.RunText
import HugePools.Proofs.Trimming

/-! The written form of a set of pages. A text is accepted exactly if it follows the grammar below,
and a text that does not is blamed on the first piece that breaks it. -/
namespace HugePools

namespace Text

structure Numeral (s : List Char) (n : Nat) : Prop where
  some : s ≠ []
  digits : ∀ c ∈ s, c.isDigit = true
  value : Nat.ofDigitChars 10 s 0 = n
  fits : n < 2 ^ 64

theorem Numeral.decimal {s : List Char} {n : Nat} (number : Numeral s n) : Decimal s n :=
  ⟨number.some, number.digits, number.value⟩

theorem Numeral.dashless {s : List Char} {n : Nat} (number : Numeral s n) : '-' ∉ s :=
  fun mem => absurd (number.digits '-' mem) (by decide)

theorem numeralIff {s : List Char} {n : Word} :
    (number? s).bind Word.of? = some n ↔ Numeral s n.val := by
  unfold Word.of?
  constructor
  · intro read
    obtain ⟨value, given, fits⟩ := Option.bind_eq_some_iff.mp read
    obtain ⟨below, same⟩ := Option.dite_none_right_eq_some.mp fits
    cases Option.some.inj same
    have decimal := decimalIff.mp given
    exact ⟨decimal.some, decimal.digits, decimal.value, below⟩
  · intro number
    rw [decimalIff.mpr number.decimal]
    exact dif_pos n.isLt

end Text

namespace Run

theorem betweenOk {m n : Word} {r : Run} : between m n = .ok r ↔
    ∃ ordered : m.val ≤ n.val, r = ⟨m.val, n.val, ordered, n.isLt⟩ := by
  unfold between
  split
  · rename_i ordered
    simp [ordered, eq_comm]
  · rename_i wrong
    simp [wrong]

theorem betweenFails {m n : Word} {fault : QuantityError} : between m n = .error fault ↔
    n.val < m.val ∧ fault = .reversedRange m.val n.val := by
  unfold between
  split
  · rename_i ordered
    simp [Nat.not_lt.mpr ordered]
  · rename_i wrong
    simp [Nat.lt_of_not_le wrong, eq_comm]

open Text (Padded Trims Numeral)

/-- What one piece of a list says: one number, or the two ends of a run around one dash. -/
inductive Spells (piece : List Char) : Nat → Nat → Prop
  | one {s n} (padded : Padded piece s) (number : Numeral s n) : Spells piece n n
  | two {left right s t m n} (padded : Padded piece (left ++ '-' :: right))
      (before : Padded left s) (first : Numeral s m)
      (after : Padded right t) (last : Numeral t n) : Spells piece m n

inductive Blames (piece : List Char) : QuantityError → Prop
  | reversed {m n} (spelled : Spells piece m n) (wrong : n < m) : Blames piece (.reversedRange m n)
  | invalid {token} (unspelled : ∀ m n, ¬ Spells piece m n) (trims : Trims piece token) :
      Blames piece (.invalidToken (String.ofList token))

def ends? (piece : List Char) : Option (Word × Word) :=
  match Text.cut '-' (Text.trim piece) with
  | none => (index? (Text.trim piece)).map fun n => (n, n)
  | some (before, after) => (index? before).bind fun m => (index? after).map fun n => (m, n)

theorem parseEnds (piece : List Char) : parse (String.ofList piece) =
    match ends? piece with
    | some (m, n) => between m n
    | none => .error (.invalidToken (String.ofList (Text.trim piece))) := by
  unfold parse ends?
  rw [String.toList_ofList]
  generalize Text.trim piece = token
  dsimp only
  cases Text.cut '-' token with
  | none =>
    cases index? token with
    | none => rfl
    | some n => simp [between, single]
  | some parts =>
    obtain ⟨before, after⟩ := parts
    dsimp only
    cases index? before with
    | none => rfl
    | some m => cases index? after <;> rfl

theorem indexAlike {part other : List Char} (same : Text.trim part = Text.trim other) :
    index? part = index? other := by
  unfold index?
  rw [same]

theorem indexIff {part : List Char} {n : Word} :
    index? part = some n ↔ ∃ s, Padded part s ∧ Numeral s n.val := by
  unfold index?
  rw [Text.numeralIff]
  constructor
  · exact fun number => ⟨_, Text.paddedTrim part, number⟩
  · intro given
    obtain ⟨s, padded, number⟩ := given
    rwa [Text.trimPadded padded, number.decimal.trimmed]

theorem endsIff {piece : List Char} {m n : Word} :
    ends? piece = some (m, n) ↔ Spells piece m.val n.val := by
  have whole := Text.paddedTrim piece
  constructor
  · intro read
    unfold ends? at read
    split at read
    · obtain ⟨_, index, same⟩ := Option.map_eq_some_iff.mp read
      cases same
      obtain ⟨s, padded, number⟩ := indexIff.mp index
      exact .one (whole.trans padded) number
    · rename_i before after found
      obtain ⟨_, first, more⟩ := Option.bind_eq_some_iff.mp read
      obtain ⟨_, last, same⟩ := Option.map_eq_some_iff.mp more
      cases same
      rw [(Text.cutRejoins found).1] at whole
      obtain ⟨s, left, low⟩ := indexIff.mp first
      obtain ⟨t, right, high⟩ := indexIff.mp last
      exact .two whole left low right high
  · intro spelled
    generalize low : m.val = a at spelled
    generalize high : n.val = b at spelled
    cases spelled with
    | @one s _ padded number =>
      have same : m = n := Fin.ext (low.trans high.symm)
      subst same low
      have token : Text.trim piece = s := (Text.trimPadded padded).trans number.decimal.trimmed
      have index : index? s = some m := indexIff.mpr ⟨s, ⟨[], [], by simp⟩, number⟩
      simp only [ends?, token, Text.cutAbsent number.dashless, index, Option.map_some]
    | @two left right s t _ _ padded before first after last =>
      subst low high
      have token : Text.trim piece = Text.trimLeft left ++ '-' :: Text.trimRight right :=
        (Text.trimPadded padded).trans (Text.trimAround left rfl right)
      have start : Text.cut '-' (Text.trimLeft left ++ '-' :: Text.trimRight right) =
          some (Text.trimLeft left, Text.trimRight right) := by
        refine Text.cutFirst (fun mem => ?_) _
        exact before.absent rfl first.dashless (List.dropWhile_subset _ mem)
      have low : index? (Text.trimLeft left) = some m :=
        (indexAlike (Text.trimPadded (Text.paddedLeft left)).symm).trans
          (indexIff.mpr ⟨s, before, first⟩)
      have high : index? (Text.trimRight right) = some n :=
        (indexAlike (Text.trimPadded (Text.paddedRight right)).symm).trans
          (indexIff.mpr ⟨t, after, last⟩)
      simp only [ends?, token, start, low, high, Option.bind_some, Option.map_some]

theorem Spells.fits {piece : List Char} {m n : Nat} (spelled : Spells piece m n) :
    m < wordLimit ∧ n < wordLimit := by
  cases spelled with
  | one _ number => exact ⟨number.fits, number.fits⟩
  | two _ _ first _ last => exact ⟨first.fits, last.fits⟩

theorem Spells.read {piece : List Char} {m n : Nat} (spelled : Spells piece m n) :
    ends? piece = some (⟨m, spelled.fits.1⟩, ⟨n, spelled.fits.2⟩) := endsIff.mpr spelled

theorem parseOk {piece : List Char} {r : Run} :
    parse (String.ofList piece) = .ok r ↔ Spells piece r.first r.last := by
  rw [parseEnds]
  constructor
  · intro read
    split at read
    · rename_i m n found
      obtain ⟨ordered, rfl⟩ := betweenOk.mp read
      exact endsIff.mp found
    · cases read
  · intro spelled
    rw [spelled.read]
    exact dif_pos r.ordered

theorem parseFails {piece : List Char} {fault : QuantityError} :
    parse (String.ofList piece) = .error fault ↔ Blames piece fault := by
  rw [parseEnds]
  constructor
  · intro read
    split at read
    · rename_i m n found
      obtain ⟨wrong, rfl⟩ := betweenFails.mp read
      exact .reversed (endsIff.mp found) wrong
    · rename_i none
      cases read
      refine .invalid (fun m n spelled => ?_) (Text.trimsIff.mpr rfl)
      cases none.symm.trans spelled.read
  · intro blamed
    cases blamed with
    | reversed spelled wrong =>
      rw [spelled.read]
      exact betweenFails.mpr ⟨wrong, rfl⟩
    | invalid unspelled trims =>
      rw [← Text.trimsIff.mp trims]
      cases found : ends? piece with
      | none => rfl
      | some ends => exact absurd (endsIff.mp found) (unspelled _ _)

theorem parseToken {token : String} {r : Run} :
    parse token = .ok r ↔ Spells token.toList r.first r.last := by
  rw [← parseOk, String.ofList_toList]

def Spelled (piece : List Char) : Prop := ∃ m n, Spells piece m n ∧ m ≤ n

theorem parseSpelled {piece : List Char} :
    (∃ r, parse (String.ofList piece) = .ok r) ↔ Spelled piece := by
  constructor
  · intro read
    obtain ⟨r, read⟩ := read
    exact ⟨_, _, parseOk.mp read, r.ordered⟩
  · intro named
    obtain ⟨m, n, spelled, ordered⟩ := named
    exact ⟨⟨m, n, ordered, spelled.fits.2⟩, parseOk.mpr spelled⟩

end Run

namespace PageSet

open Text (Trims)

/-- The list in a text: blanks around it do not count, and one pair of brackets with the blanks
inside it does not. -/
inductive Body (text : List Char) : List Char → Prop
  | bracketed {inner body} (outer : Trims text ('[' :: (inner ++ [']']))) (trims : Trims inner body) :
      Body text body
  | bare {body} (trims : Trims text body) (pair : ∀ inner, body ≠ '[' :: (inner ++ [']'])) :
      Body text body

theorem interiorBracketed (inner : List Char) :
    interior ('[' :: (inner ++ [']'])) = Text.trim inner := by
  rw [interior, if_pos List.getLast?_concat, List.dropLast_concat]

theorem interiorBare {s : List Char} (bare : ∀ inner, s ≠ '[' :: (inner ++ [']'])) :
    interior s = s := by
  unfold interior
  split
  · rename_i rest
    refine if_neg fun last => ?_
    obtain ⟨inner, rfl⟩ := List.getLast?_eq_some_iff.mp last
    exact bare inner rfl
  · rfl

theorem bodyIff {text body : List Char} : Body text body ↔ interior (Text.trim text) = body := by
  constructor
  · intro held
    cases held with
    | bracketed outer trims =>
      rw [Text.trimsIff.mp outer, interiorBracketed, Text.trimsIff.mp trims]
    | bare trims bare => rw [Text.trimsIff.mp trims, interiorBare bare]
  · rintro rfl
    by_cases pair : ∃ inner, Text.trim text = '[' :: (inner ++ [']'])
    · obtain ⟨inner, same⟩ := pair
      rw [same, interiorBracketed]
      exact .bracketed (Text.trimsIff.mpr same) (Text.trimsIff.mpr rfl)
    · have bare (inner) : Text.trim text ≠ '[' :: (inner ++ [']']) := fun same => pair ⟨inner, same⟩
      rw [interiorBare bare]
      exact .bare (Text.trimsIff.mpr rfl) bare

theorem bodyFound (text : List Char) : ∃ body, Body text body := ⟨_, bodyIff.mpr rfl⟩

theorem Body.unique {text body other : List Char} (held : Body text body) (also : Body text other) :
    body = other := (bodyIff.mp held).symm.trans (bodyIff.mp also)

def Places (body : List Char) (place : Nat) (r : Run) : Prop :=
  ∃ piece, (body.splitOn ',')[place]? = some piece ∧ Run.Spells piece r.first r.last

theorem parseBody {text : String} {body : List Char} (held : Body text.toList body) :
    parse text = if body = [] then .ok empty
      else ((body.splitOn ',').mapM (Run.parse ∘ String.ofList)).map ofRuns := by
  unfold parse ofTokens
  simp only [bodyIff.mp held, Text.piecesSplitOn, List.mapM_map]

theorem parseRuns {text : String} {body : List Char} (held : Body text.toList body) {s : PageSet}
    (built : parse text = .ok s) :
    ∃ runs, s = ofRuns runs ∧ ∀ place r, Places body place r ↔ runs[place]? = some r := by
  rw [parseBody held] at built
  split at built
  · rename_i none
    cases built
    subst none
    have nothing : empty = ofRuns [] := by cbv
    refine ⟨[], nothing, fun place r => iff_of_false (fun given => ?_) (by simp)⟩
    obtain ⟨piece, found, spelled⟩ := given
    obtain rfl : [] = piece := by simpa using List.mem_of_getElem? found
    cases Run.parseOk.mpr spelled
  · obtain ⟨runs, read, rfl⟩ := Results.mapOk.mp built
    refine ⟨runs, rfl, fun place r => ?_⟩
    rw [← Results.mapMGet read]
    simp only [Places, List.getElem?_map, Option.map_eq_some_iff, Function.comp_apply, Run.parseOk]

/-- A text is accepted exactly if its list is empty or all pieces between commas are runs in order.
The set then holds what the pieces say; otherwise the first piece that is no such run is named. -/
theorem acceptsGrammar (text : String) : (∃ body, Body text.toList body) ∧
    ∀ body, Body text.toList body →
      ((∃ s, parse text = .ok s) ↔ body = [] ∨ ∀ piece ∈ body.splitOn ',', Run.Spelled piece) ∧
      (∀ s, parse text = .ok s → ∀ index, s.Has index ↔ ∃ piece ∈ body.splitOn ',',
        ∃ m n, Run.Spells piece m n ∧ m ≤ index ∧ index ≤ n) ∧
      ∀ fault, parse text = .error fault ↔ body ≠ [] ∧ ∃ earlier piece later,
        body.splitOn ',' = earlier ++ piece :: later ∧ (∀ other ∈ earlier, Run.Spelled other) ∧
        Run.Blames piece fault := by
  refine ⟨bodyFound _, fun body held => ⟨?_, fun s read index => ?_, fun fault => ?_⟩⟩
  · rw [parseBody held]
    by_cases none : body = []
    · rw [if_pos none]
      exact iff_of_true ⟨empty, rfl⟩ (.inl none)
    · rw [if_neg none, Results.mapDone, Results.mapMDone, or_iff_right none]
      exact forall₂_congr fun piece _ => Run.parseSpelled
  · obtain ⟨runs, rfl, placed⟩ := parseRuns held read
    rw [ofRunsHas]
    constructor
    · intro given
      obtain ⟨r, mem, inside⟩ := given
      obtain ⟨place, found⟩ := List.mem_iff_getElem?.mp mem
      obtain ⟨piece, stands, spelled⟩ := (placed place r).mpr found
      exact ⟨piece, List.mem_of_getElem? stands, r.first, r.last, spelled, inside⟩
    · intro given
      obtain ⟨piece, mem, m, n, spelled, low, high⟩ := given
      obtain ⟨place, stands⟩ := List.mem_iff_getElem?.mp mem
      let r : Run := ⟨m, n, Nat.le_trans low high, spelled.fits.2⟩
      exact ⟨r, List.mem_of_getElem? ((placed place r).mp ⟨piece, stands, spelled⟩), low, high⟩
  · rw [parseBody held]
    by_cases none : body = []
    · rw [if_pos none]
      exact iff_of_false (fun same => nomatch same) fun given => given.1 none
    · rw [if_neg none, Results.mapFails, Results.mapMFails]
      simp only [Function.comp_apply, Run.parseSpelled, Run.parseFails, ne_eq, none,
        not_false_eq_true, true_and]

end PageSet

def spacedList : String := " [007 ,3 -5] "

def brokenList : String := "8,6-5,x"

theorem spacedAccepted :
    (∃ s, PageSet.parse spacedList = .ok s ∧ s.Has 4 ∧ s.Has 7) ∧
    PageSet.parse brokenList = .error (.reversedRange 6 5) := by
  have plain (s : List Char) : Text.Padded s s := ⟨[], [], by simp⟩
  have blankAfter (s : List Char) : Text.Padded (s ++ [' ']) s := ⟨[], [' '], by simp [Text.isBlank]⟩
  have number {s : List Char} {n : Nat} (read : (Text.number? s).bind Word.of? = some (Fin.ofNat _ n))
      (small : n < 10) : Text.Numeral s n := by
    have same : n % wordLimit = n := Nat.mod_eq_of_lt (Nat.lt_trans small (by decide))
    exact same ▸ Text.numeralIff.mp read
  have seven : Run.Spells ['0', '0', '7', ' '] 7 7 :=
    .one (blankAfter ['0', '0', '7']) (number rfl (by decide))
  have both : Run.Spells ['3', ' ', '-', '5'] 3 5 :=
    .two (plain (['3', ' '] ++ ['-', '5'])) (blankAfter ['3']) (number rfl (by decide)) (plain _)
      (number rfl (by decide))
  have eight : Run.Spells ['8'] 8 8 := .one (plain _) (number rfl (by decide))
  have wrong : Run.Spells ['6', '-', '5'] 6 5 :=
    .two (plain (['6'] ++ ['-', '5'])) (plain _) (number rfl (by decide)) (plain _)
      (number rfl (by decide))
  have bracketed : PageSet.Body spacedList.toList ['0', '0', '7', ' ', ',', '3', ' ', '-', '5'] :=
    PageSet.bodyIff.mpr (by rfl)
  have bare : PageSet.Body brokenList.toList ['8', ',', '6', '-', '5', ',', 'x'] :=
    PageSet.bodyIff.mpr (by rfl)
  obtain ⟨accepted, denoted, _⟩ := (PageSet.acceptsGrammar spacedList).2 _ bracketed
  obtain ⟨_, _, blamed⟩ := (PageSet.acceptsGrammar brokenList).2 _ bare
  have all : ∀ piece ∈ [['0', '0', '7', ' '], ['3', ' ', '-', '5']], Run.Spelled piece :=
    List.forall_mem_cons.mpr
      ⟨⟨7, 7, seven, by decide⟩, List.forall_mem_singleton.mpr ⟨3, 5, both, by decide⟩⟩
  obtain ⟨s, read⟩ := accepted.mpr (.inr all)
  refine ⟨⟨s, read, ?_, ?_⟩, ?_⟩
  · exact (denoted s read 4).mpr ⟨_, .tail _ (.head _), 3, 5, both, by decide⟩
  · exact (denoted s read 7).mpr ⟨_, .head _, 7, 7, seven, by decide⟩
  · refine (blamed _).mpr ⟨by decide, [['8']], ['6', '-', '5'], [['x']], rfl, ?_, ?_⟩
    · exact List.forall_mem_singleton.mpr ⟨8, 8, eight, by decide⟩
    · exact .reversed wrong (by decide)

end HugePools
