import HugePools.Proofs.Results
import HugePools.Table

/-! What each step of reading a table takes to succeed, and what it gives then: the texts of one
record, the cells under the columns that are asked for, one row, the whole file. -/
namespace HugePools

theorem Schema.trimmedAll {columns : List String} (solid : ∀ s ∈ columns, Text.trimmed s = s) :
    columns.map Text.trimmed = columns := by
  rw [List.map_congr_left solid, List.map_id']

namespace Table

variable {α : Type}

section

variable {margin : List UInt8 → Nat} {place : Position} {index : Nat} {fields : List (List UInt8)}
  {out : List String}

theorem textsOk : texts margin place index fields = .ok out ↔
    List.Forall₂ (fun field s => ∃ cs, Utf8.decode field = .ok cs ∧ s = String.ofList (Text.trim cs))
      fields out := by
  induction fields generalizing index out with
  | nil => simp [texts, eq_comm]
  | cons field rest ih =>
    rw [texts, List.forall₂_cons_left_iff]
    cases Utf8.decode field with
    | error bad => simp
    | ok cs =>
      change (texts margin place (index + 1) rest >>= _) = _ ↔ _
      rw [Results.bindOk]
      simp [Results.pureOk, ih, eq_comm (a := out), and_comm]

theorem textsPlaced (read : texts margin place index fields = .ok out)
    (other : List UInt8 → Nat) (elsewhere : Position) (start : Nat) :
    texts other elsewhere start fields = .ok out := textsOk.mpr (textsOk.mp read)

theorem textsLength (read : texts margin place index fields = .ok out) :
    out.length = fields.length := (textsOk.mp read).length_eq.symm

end

def asked (needed : List String) (row : List (String × String)) : List (String × String) :=
  row.filter fun e => e.1 ∈ needed

def cell (read : String → String → Except Integer.Fault α) (e : String × String) :
    Except Integer.Fault (Cell α) := (read e.1 e.2).map (Cell.mk e.1)

theorem cellsCons {place : Position} {needed seen : List String}
    {read : String → String → Except Integer.Fault α} {index : Nat} {e : String × String}
    {rest : List (String × String)} {out : List (Cell α)} (known : e.1 ∈ needed) :
    cells place needed read index seen (e :: rest) = .ok out ↔
      e.1 ∉ seen ∧ ∃ head tail, cell read e = .ok head ∧
        cells place needed read (index + 1) (e.1 :: seen) rest = .ok tail ∧ out = head :: tail := by
  obtain ⟨column, text⟩ := e
  rw [cells, if_neg (not_not_intro known)]
  by_cases before : column ∈ seen
  · simp [before]
  · rw [if_neg before, cell]
    cases read column text with
    | error fault => simp [Except.map]
    | ok value =>
      change (cells place needed read (index + 1) (column :: seen) rest >>= _) = _ ↔ _
      rw [Results.bindOk]
      simp [before, Results.pureOk, Except.map, eq_comm (a := out)]

theorem cellsOk {place : Position} {needed seen : List String}
    {read : String → String → Except Integer.Fault α} {index : Nat}
    {row : List (String × String)} {out : List (Cell α)} :
    cells place needed read index seen row = .ok out ↔
      ((asked needed row).map Prod.fst).Nodup ∧ (∀ e ∈ asked needed row, e.1 ∉ seen) ∧
        (asked needed row).mapM (cell read) = .ok out := by
  induction row generalizing index seen out with
  | nil => simp [cells, asked, pure, Except.pure, eq_comm]
  | cons e rest ih =>
    by_cases known : e.1 ∈ needed
    · have front : asked needed (e :: rest) = e :: asked needed rest :=
        List.filter_cons_of_pos (by simpa using known)
      rw [cellsCons known, front, List.map_cons, List.nodup_cons, List.forall_mem_cons,
        Results.mapMCons]
      simp only [ih, List.mem_map, List.mem_cons, not_or, not_exists, not_and]
      constructor
      · rintro ⟨fresh, head, tail, first, ⟨apart, new, others⟩, whole⟩
        exact ⟨⟨fun d mem same => (new d mem).1 same, apart⟩, ⟨fresh, fun d mem => (new d mem).2⟩,
          head, tail, first, others, whole⟩
      · rintro ⟨⟨absent, apart⟩, ⟨fresh, unseen⟩, head, tail, first, others, whole⟩
        exact ⟨fresh, head, tail, first,
          ⟨apart, fun d mem => ⟨fun same => absent d mem same, unseen d mem⟩, others⟩, whole⟩
    · have same : asked needed (e :: rest) = asked needed rest :=
        List.filter_cons_of_neg (by simpa using known)
      rw [cells, if_pos known, same, ih]

def cellsOf (r : Delimited.Record) : Except TableError (List String) :=
  texts Delimited.blanks r.place 0 r.contents

theorem dataRowOk {header : List String}
    {read : Position → List (String × String) → Except TableError α} {r : Delimited.Record} {a : α} :
    dataRow header read r = .ok a ↔ ∃ cells, cellsOf r = .ok cells ∧
      cells.length = header.length ∧ read r.place (header.zip cells) = .ok a := by
  unfold dataRow
  by_cases fits : r.contents.length = header.length
  · rw [if_neg (not_not_intro fits)]
    change (texts _ _ _ _ >>= _) = _ ↔ _
    rw [Results.bindOk]
    refine exists_congr fun cells => and_congr_right fun known => ?_
    exact (and_iff_right ((textsLength known).trans fits)).symm
  · rw [if_pos fits]
    refine iff_of_false (fun same => by cases same) ?_
    rintro ⟨cells, known, length, _⟩
    exact fits ((textsLength known).symm.trans length)

theorem ofBytesOk {source : String} {bytes : List UInt8} {t : Table} :
    (ofBytes source bytes).result = .ok t ↔ ∃ names schema,
      header (Delimited.records bytes) = .ok names ∧ Schema.detect source names = .ok schema ∧
        rows schema names (Delimited.records bytes).tail = .ok t := by
  unfold ofBytes
  constructor
  · intro read
    obtain ⟨names, named, rest⟩ := Journal.bindOk.mp read
    obtain ⟨schema, found, more⟩ := Journal.bindOk.mp rest
    obtain ⟨_, _, last⟩ := Journal.bindOk.mp more
    exact ⟨names, schema, Results.mapErrorOk.mp named, found, Results.mapErrorOk.mp last⟩
  · rintro ⟨names, schema, named, found, last⟩
    refine Journal.bindOk.mpr ⟨names, Results.mapErrorOk.mpr named, ?_⟩
    refine Journal.bindOk.mpr ⟨schema, found, ?_⟩
    exact Journal.bindOk.mpr ⟨(), rfl, Results.mapErrorOk.mpr last⟩

end Table
end HugePools
