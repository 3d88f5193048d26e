import HugePools.Proofs.IntervalRows
import HugePools.Proofs.TableText

/-! The text of a legacy table, read back as the rows that were written. -/
namespace HugePools

theorem PoolKind.nameBare (kind : PoolKind) : Text.Bare kind.name.toList := by
  cases kind <;> decide

namespace LegacyTable

theorem encodeLine (r : LegacyRow) :
    Utf8.encode (line r) = Delimited.line (r.texts.map Utf8.encode) := by
  have joined := Utf8.encodeJoined r.texts
  unfold line Delimited.line
  rw [Utf8.encodeAppend, ← joined]
  rfl

theorem encodeChars (rows : List LegacyRow) :
    Utf8.encode (header ++ rows.flatMap line) = Schema.legacy.bytes (rows.map LegacyRow.texts) := by
  have lines : Utf8.encode (rows.flatMap line) =
      ((rows.map LegacyRow.texts).map fun row => row.map Utf8.encode).flatMap Delimited.line := by
    induction rows with
    | nil => rfl
    | cons r more ih =>
      simp only [List.flatMap_cons, List.map_cons, Utf8.encodeAppend, encodeLine, ih]
  rw [Utf8.encodeAppend, lines]
  rfl

theorem charsOk {intervals : List Interval} {s : List Char} : chars intervals = .ok s ↔
    (∀ i ∈ intervals, i.Storable) ∧ s = header ++ (intervals.map Interval.record).flatMap line := by
  unfold chars
  rw [Results.mapOk]
  constructor
  · intro written
    obtain ⟨table, stored, rfl⟩ := written
    obtain ⟨fits, rfl⟩ := rowsOk.mp stored
    exact ⟨fits, rfl⟩
  · intro all
    obtain ⟨fits, rfl⟩ := all
    exact ⟨_, rowsOk.mpr ⟨fits, rfl⟩, rfl⟩

theorem charsRead (source : String) {intervals : List Interval} {s : List Char}
    (written : chars intervals = .ok s) :
    (Table.ofBytes source (Utf8.encode s)).result =
      .ok (.legacy (intervals.map Interval.record)) := by
  obtain ⟨_, rfl⟩ := charsOk.mp written
  rw [encodeChars]
  refine Table.legacyRead source fun r mem => ?_
  obtain ⟨i, _, rfl⟩ := List.mem_map.mp mem
  exact i.pool.nameBare

end LegacyTable
end HugePools
