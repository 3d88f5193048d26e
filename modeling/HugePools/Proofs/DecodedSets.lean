import HugePools.Interchange
import HugePools.Proofs.CanonicalForm

/-! Sets of pages read back from their text. The text keeps the indices and not the note that the
source named one of them twice. -/
namespace HugePools

namespace PageSet

variable (s : PageSet)

theorem readWritten : Interchange.readPageSet (Interchange.pageSet s) = .ok s.plain := by
  change (parse s.encode).mapError some = _
  rw [s.parseEncode]
  rfl

theorem recoded {text list : String} (read : (parse text).map encode = .ok list) :
    (parse list).map encode = .ok list := by
  obtain ⟨s, _, rfl⟩ := Results.mapOk.mp read
  rw [s.parseEncode]
  rfl

/-- A set comes back from its text, bare, in brackets or as a string of the interchange format,
with its runs and without its duplicates; what was written once is written again; and every run
comes back from its own text. -/
theorem decodedBack :
    (∀ (source : PageSource) (s : PageSet), source.set = .ok s →
      ∃ t, parse s.encode = .ok t ∧ parse ("[" ++ s.encode ++ "]") = .ok t ∧
        Interchange.readPageSet (Interchange.pageSet s) = .ok t ∧
        t.runs = s.runs ∧ t.duplicates = false ∧ (t = s ↔ s.duplicates = false)) ∧
    (∀ text list, (parse text).map encode = .ok list → (parse list).map encode = .ok list) ∧
    ∀ r : Run, Run.parse r.text = .ok r := by
  refine ⟨fun source s _ => ?_, fun text list => recoded, Run.parseText⟩
  exact ⟨s.plain, s.parseEncode, s.parseBracketed, s.readWritten, rfl, rfl, plainSelf⟩

end PageSet

def spelled : PageSource := .tokens ["8-18446744073709551615", " 007-9 ", "4"]

def spelledSet : PageSet where
  runs := [⟨4, 4, by decide, by decide⟩, ⟨7, 18446744073709551615, by decide, by decide⟩]
  duplicates := true
  canonical := by decide

theorem spelledDecoded : spelled.set = .ok spelledSet ∧
    spelledSet.encode = "4,7-18446744073709551615" ∧
    ∃ t, PageSet.parse spelledSet.encode = .ok t ∧
      PageSet.parse ("[" ++ spelledSet.encode ++ "]") = .ok t ∧ t.runs = spelledSet.runs ∧
      t ≠ spelledSet := by
  have built : spelled.set = .ok spelledSet := by cbv
  have written : spelledSet.encode = "4,7-18446744073709551615" := by cbv
  obtain ⟨t, bare, bracketed, _, runs, _, equal⟩ := PageSet.decodedBack.1 spelled spelledSet built
  have marked : ¬ spelledSet.duplicates = false := by decide
  exact ⟨built, written, t, bare, bracketed, runs, fun same => marked (equal.mp same)⟩

end HugePools
