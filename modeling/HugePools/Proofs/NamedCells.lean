import HugePools.Proofs.TableReading

/-! The cells of one row, found by the names of their columns. What is read of a row does not depend
on the order of its cells, nor on cells under other names, nor on where the row stands. -/
namespace HugePools.Table

variable {α : Type}

/-- The cells of a row under their names, in some order among cells under names that are not
needed. -/
def Among (needed : List String) (row others : List (String × String)) : Prop :=
  ∃ extra, others.Perm (row ++ extra) ∧ ∀ e ∈ extra, e.1 ∉ needed

theorem Among.asked {needed : List String} {row others : List (String × String)}
    (among : Among needed row others) : (asked needed others).Perm (asked needed row) := by
  obtain ⟨extra, perm, foreign⟩ := among
  have none : extra.filter (fun e => e.1 ∈ needed) = [] :=
    List.filter_eq_nil_iff.mpr fun e mem => by simpa using foreign e mem
  have kept := perm.filter fun e => e.1 ∈ needed
  rw [List.filter_append, none, List.append_nil] at kept
  exact kept

theorem cellsAmong {needed : List String} {read : String → String → Except Integer.Fault α}
    {row others : List (String × String)} (among : Among needed row others) {place : Position}
    {index : Nat} {out : List (Cell α)} (known : cells place needed read index [] row = .ok out)
    (other : Position) (start : Nat) :
    ∃ also, cells other needed read start [] others = .ok also ∧ also.Perm out ∧
      (out.map Cell.column).Nodup := by
  obtain ⟨distinct, _, own⟩ := cellsOk.mp known
  obtain ⟨also, got, perm⟩ := Results.mapMPerm among.asked own
  have names : out.map Cell.column = (asked needed row).map Prod.fst := by
    refine Results.mapMImage (fun e c ok => ?_) own
    obtain ⟨v, _, rfl⟩ := Results.mapOk.mp ok
    rfl
  refine ⟨also, cellsOk.mpr ⟨(among.asked.map _).nodup_iff.mpr distinct, by simp, got⟩, perm, ?_⟩
  rwa [names]

theorem valueOk {place : Position} {row : List (Cell α)} (distinct : (row.map Cell.column).Nodup)
    {column : String} {v : α} : value place row column = .ok v ↔ ⟨column, v⟩ ∈ row := by
  unfold value
  split
  · rename_i c found
    have held := List.mem_of_find?_eq_some found
    have named : c.column = column := by simpa using List.find?_some found
    constructor
    · rintro ⟨⟩
      rwa [← named]
    · intro mem
      rw [List.inj_on_of_nodup_map distinct held mem named]
  · rename_i none
    simp only [reduceCtorEq, false_iff]
    intro mem
    simpa using List.find?_eq_none.mp none _ mem

theorem valueKept {row others : List (Cell α)} (perm : others.Perm row)
    (distinct : (row.map Cell.column).Nodup) {place : Position} (other : Position)
    {column : String} (v : α) (read : value place row column = .ok v) :
    value other others column = .ok v :=
  (valueOk ((perm.map _).nodup_iff.mpr distinct)).mpr
    (perm.mem_iff.mpr ((valueOk distinct).mp read))

theorem poolRowAmong {row others : List (String × String)}
    (among : Among Schema.pools.columns row others) {place : Position} {r : PoolRow}
    (read : poolRow place row = .ok r) (other : Position) : poolRow other others = .ok r := by
  obtain ⟨out, known, rest⟩ := Results.bindOk.mp read
  obtain ⟨also, got, perm, distinct⟩ := cellsAmong among known other 0
  refine Results.bindOk.mpr ⟨also, got, ?_⟩
  revert rest
  refine Results.bindKept (valueKept perm distinct other) fun _ => ?_
  refine Results.bindKept (valueKept perm distinct other) fun _ => ?_
  refine Results.bindKept (valueKept perm distinct other) fun _ => ?_
  refine Results.bindKept (valueKept perm distinct other) fun _ => ?_
  refine Results.bindKept (valueKept perm distinct other) fun _ => ?_
  exact Results.bindKept (valueKept perm distinct other) fun _ => id

section

variable {row others : List (Cell LegacyValue)} {place : Position} {column : String}
  (perm : others.Perm row) (distinct : (row.map Cell.column).Nodup) (other : Position)

include perm distinct

theorem textKept (s : String) :
    textOf place row column = .ok s → textOf other others column = .ok s := by
  refine Results.bindKept (valueKept perm distinct other) fun v read => ?_
  cases v with
  | text => exact read
  | integer => cases read

theorem integerKept (n : Int64) :
    integerOf place row column = .ok n → integerOf other others column = .ok n := by
  refine Results.bindKept (valueKept perm distinct other) fun v read => ?_
  cases v with
  | text => cases read
  | integer => exact read

end

theorem legacyRowAmong {row others : List (String × String)}
    (among : Among Schema.legacy.columns row others) {place : Position} {r : LegacyRow}
    (read : legacyRow place row = .ok r) (other : Position) : legacyRow other others = .ok r := by
  obtain ⟨out, known, rest⟩ := Results.bindOk.mp read
  obtain ⟨also, got, perm, distinct⟩ := cellsAmong among known other 0
  refine Results.bindOk.mpr ⟨also, got, ?_⟩
  revert rest
  refine Results.bindKept (textKept perm distinct other) fun _ => ?_
  refine Results.bindKept (integerKept perm distinct other) fun _ => ?_
  refine Results.bindKept (integerKept perm distinct other) fun _ => ?_
  exact Results.bindKept (integerKept perm distinct other) fun _ => id

end HugePools.Table
