import HugePools.Delimited
import Mathlib

/-! Lines of bare fields, read back as records. A bare field has no comma, no quote and no
line break in it, so its bytes are its content. -/
namespace HugePools

theorem intercalateAll {α : Type} (good : α → Prop) {sep : α} (mark : good sep)
    {parts : List (List α)} (all : ∀ part ∈ parts, ∀ a ∈ part, good a) :
    ∀ a ∈ [sep].intercalate parts, good a := by
  induction parts with
  | nil => exact List.forall_mem_nil _
  | cons part more ih =>
    obtain ⟨first, others⟩ := List.forall_mem_cons.mp all
    cases more with
    | nil => simpa using first
    | cons next rest =>
      rw [List.intercalate_cons_cons]
      intro a mem
      rcases List.mem_append.mp mem with front | back
      · rcases List.mem_append.mp front with own | between
        · exact first a own
        · exact List.mem_singleton.mp between ▸ mark
      · exact ih others a back

namespace Delimited

def Bare (field : List UInt8) : Prop := ∀ b ∈ field, b ≠ comma ∧ b ≠ quote ∧ isBreak b = false

def joined (fields : List (List UInt8)) : List UInt8 := [comma].intercalate fields

def line (fields : List (List UInt8)) : List UInt8 := joined fields ++ [lineFeed]

structure Written (fields : List (List UInt8)) : Prop where
  bare : ∀ f ∈ fields, Bare f
  nonempty : joined fields ≠ []

theorem plainBare {f : List UInt8} (bare : Bare f) {mark : UInt8}
    (ends : mark = comma ∨ isBreak mark = true) (rest : List UInt8) :
    plain (f ++ mark :: rest) =
      ⟨f, if mark = comma then .comma else .record, f ++ [mark], rest⟩ := by
  induction f with
  | nil =>
    rw [List.nil_append, plain]
    rcases ends with rfl | stop
    · rfl
    · split
      · rfl
      · simp
  | cons b more ih =>
    obtain ⟨first, others⟩ := List.forall_mem_cons.mp bare
    rw [List.cons_append, plain, if_neg first.1, ih others]
    simp [first.2.2, Field.push]

theorem fieldBare {f : List UInt8} (bare : Bare f) {mark : UInt8}
    (ends : mark = comma ∨ isBreak mark = true) (rest : List UInt8) :
    field (f ++ mark :: rest) =
      ⟨f, if mark = comma then .comma else .record, f ++ [mark], rest⟩ := by
  rw [← plainBare bare ends]
  cases f with
  | nil =>
    have other : mark ≠ quote := by
      intro same
      subst same
      exact absurd ends (by decide)
    exact if_neg other
  | cons b more => exact if_neg (bare b List.mem_cons_self).2.1

theorem rowWritten {fields : List (List UInt8)} (some : fields ≠ [])
    (bare : ∀ f ∈ fields, Bare f) (rest : List UInt8) :
    row (line fields ++ rest) = ⟨fields, line fields, rest⟩ := by
  induction fields with
  | nil => contradiction
  | cons f more ih =>
    obtain ⟨first, others⟩ := List.forall_mem_cons.mp bare
    cases more with
    | nil =>
      have read := fieldBare first (.inr rfl : lineFeed = comma ∨ isBreak lineFeed = true) rest
      have whole : line [f] ++ rest = f ++ lineFeed :: rest := by simp [line, joined]
      rw [whole, row, read]
      simp [line, joined, comma, lineFeed]
    | cons g later =>
      have read := fieldBare first (.inl rfl) (line (g :: later) ++ rest)
      have whole : line (f :: g :: later) ++ rest = f ++ comma :: (line (g :: later) ++ rest) := by
        simp [line, joined]
      rw [whole, row, read, ih (by simp) others]
      simp [line, joined]

theorem joinedUnbroken {fields : List (List UInt8)} (bare : ∀ f ∈ fields, Bare f) :
    ∀ b ∈ joined fields, isBreak b = false :=
  intercalateAll (fun b => isBreak b = false) rfl fun f mem b held => (bare f mem b held).2.2

theorem recordsFromLines {table : List (List (List UInt8))}
    (written : ∀ fields ∈ table, Written fields) (place : Position) :
    (recordsFrom place (table.flatMap line)).map Record.contents = table := by
  induction table generalizing place with
  | nil =>
    rw [List.flatMap_nil, recordsFrom]
    rfl
  | cons fields more ih =>
    obtain ⟨first, others⟩ := List.forall_mem_cons.mp written
    have whole : (fields :: more).flatMap line = line fields ++ more.flatMap line := rfl
    have kept : (line fields ++ more.flatMap line).dropWhile isBreak =
        line fields ++ more.flatMap line := by
      have unbroken := joinedUnbroken first.bare
      have some := first.nonempty
      unfold line
      cases bytes : joined fields with
      | nil => contradiction
      | cons b rest =>
        rw [bytes] at unbroken
        simp [unbroken b List.mem_cons_self]
    have nonempty : line fields ++ more.flatMap line ≠ [] := by simp [line]
    have fieldsSome : fields ≠ [] := by
      intro none
      exact first.nonempty (none ▸ rfl)
    rw [whole, recordsFrom, kept, dif_pos nonempty, rowWritten fieldsSome first.bare]
    simp [ih others]

end Delimited
end HugePools
