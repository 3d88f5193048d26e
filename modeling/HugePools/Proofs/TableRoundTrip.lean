import HugePools.Proofs.LegacyText

/-! Intervals handed over as a table and read back one by one. A table is handed over whole or
not at all. -/
namespace HugePools

namespace LegacyTable

theorem foldLines (rows : List LegacyRow) (sent : List UInt8) :
    rows.foldl (fun sent r => sent ++ Utf8.encode (line r)) sent =
      sent ++ Utf8.encode (rows.flatMap line) := by
  induction rows generalizing sent with
  | nil => exact (List.append_nil _).symm
  | cons r rest ih =>
    rw [List.foldl_cons, ih, List.flatMap_cons, Utf8.encodeAppend, List.append_assoc]

theorem writeRows {intervals : List Interval} {table : List LegacyRow}
    (stored : rows intervals = .ok table) (sink : List UInt8) : write intervals sink =
      (.ok (), sink ++ Utf8.encode (header ++ table.flatMap line)) := by
  unfold write
  rw [stored]
  simp only [foldLines, Utf8.encodeAppend, List.append_assoc]

theorem charsWritten {intervals : List Interval} {chars : List Char}
    (made : LegacyTable.chars intervals = .ok chars) (sink : List UInt8) :
    write intervals sink = (.ok (), sink ++ Utf8.encode chars) := by
  obtain ⟨table, stored, rfl⟩ := Results.mapOk.mp made
  exact writeRows stored sink

theorem writeFails {intervals : List Interval} {fault : LayoutError}
    (refused : rows intervals = .error fault) (sink : List UInt8) :
    write intervals sink = (.error fault, sink) := by
  unfold write
  rw [refused]

end LegacyTable

end HugePools
