import HugePools.Proofs.Conversion
import HugePools.Proofs.TableRoundTrip

/-! Storing the table of an accepted layout. Its intervals are always there, and all of their ends
have a place in the signed columns but for the sizes of the pools; a size that has none is found in
the markers, before any page is looked at. -/
namespace HugePools

def Layout.oversized? (l : Layout) : Option PoolKind :=
  PoolKind.all.find? fun kind => 2 ^ 63 ≤ (l.pool kind).size.bytes

theorem Layout.oversizedNone {l : Layout} :
    l.oversized? = none ↔ ∀ kind, (l.pool kind).size.bytes < 2 ^ 63 := by
  unfold oversized?
  rw [List.find?_eq_none]
  constructor
  · intro none kind
    simpa using none kind kind.memAll
  · intro fits kind _
    simpa using fits kind

theorem Layout.oversizedSome {l : Layout} :
    (∃ kind, l.oversized? = some kind) ↔ ∃ kind, 2 ^ 63 ≤ (l.pool kind).size.bytes := by
  rw [← Option.ne_none_iff_exists', Ne, oversizedNone]
  simp

namespace ValidLayout

variable {v : ValidLayout} {intervals : List Interval} {kind : PoolKind}

theorem charsFit (emitted : v.intervals = .ok intervals) (fits : v.oversized? = none) :
    ∃ chars, LegacyTable.chars intervals = .ok chars := by
  cases v.intervalsOk.symm.trans emitted
  exact ⟨_, LegacyTable.charsOk.mpr ⟨v.storable (Layout.oversizedNone.mp fits), rfl⟩⟩

theorem rowsOversized (emitted : v.intervals = .ok intervals) (found : v.oversized? = some kind) :
    LegacyTable.rows intervals = .error (.offsetOverflow kind (v.pool kind).size.bytes) := by
  cases v.intervalsOk.symm.trans emitted
  obtain ⟨beyond, before, after, split, small⟩ := List.find?_eq_some_iff_append.mp found
  have large : 2 ^ 63 ≤ (v.pool kind).size.bytes := by simpa using beyond
  let marker (k : PoolKind) : Interval := .marker k (v.pool k).size.bytes
  -- The markers come first, in the order of the pools, so no row of a page is looked at.
  have cut : LegacyTable.markers v.toLayout =
      before.map marker ++ marker kind :: after.map marker := by
    unfold LegacyTable.markers
    rw [split, List.map_append, List.map_cons]
  refine Results.mapMFails.mpr ⟨before.map marker, marker kind,
    after.map marker ++ v.brk.pageRows ++ v.mmap.pageRows, ?_, ?_, ?_⟩
  · rw [cut, List.append_assoc, List.append_assoc]
    simp
  · intro i mem
    obtain ⟨k, held, rfl⟩ := List.mem_map.mp mem
    have fits : (v.pool k).size.bytes < 2 ^ 63 := by simpa using small k held
    exact ⟨_, Interval.rowOk.mpr ⟨⟨Nat.two_pow_pos 63, fits⟩, rfl⟩⟩
  · exact Interval.rowFails.mpr ⟨fun fits => Nat.not_lt_of_le large fits.2, rfl⟩

theorem writeOversized (emitted : v.intervals = .ok intervals) (found : v.oversized? = some kind)
    {σ : Type} [FileSystem σ] (w : World σ) (path : String) :
    v.write path w = (.error (.offsetOverflow kind (v.pool kind).size.bytes), w) := by
  have refused := rowsOversized emitted found
  unfold write LegacyTable.chars
  rw [Job.andThenOk (Job.ofExceptOk.mpr ⟨emitted, rfl⟩), refused]
  rfl

theorem writeFits (emitted : v.intervals = .ok intervals) (fits : v.oversized? = none)
    {σ : Type} [FileSystem σ] {w : World σ} {path : String}
    (takes : FileSystem.Takes w.files path (LegacyTable.write intervals []).2) :
    (v.write path w).1 = .ok () := by
  obtain ⟨chars, written⟩ := charsFit emitted fits
  rw [LegacyTable.charsWritten written] at takes
  obtain ⟨made, created, filled⟩ := takes
  have done := writeOk.mpr
    ⟨intervals, chars, made, _, emitted, written, created, Prod.ext filled rfl, rfl⟩
  exact congrArg Prod.fst done

end ValidLayout

/-- An accepted layout always has its intervals. They are stored unless a pool is too large for the
signed columns, the file pool included; then the first such pool is reported with its size, and
neither a sink nor a file is touched. -/
theorem Layout.storedUnlessOversized {l : Layout} {v : ValidLayout}
    (valid : l.validate.result = .ok v) : ∃ intervals, v.intervals = .ok intervals ∧
      (∀ sink, ((∃ fault, (LegacyTable.write intervals sink).1 = .error fault) ↔
          ∃ kind, 2 ^ 63 ≤ (l.pool kind).size.bytes) ∧
        ∀ kind, l.oversized? = some kind → LegacyTable.write intervals sink =
          (.error (.offsetOverflow kind (l.pool kind).size.bytes), sink)) ∧
      ∀ (σ : Type) [FileSystem σ] (w : World σ) (path : String),
        (FileSystem.Takes w.files path (LegacyTable.write intervals []).2 →
          ((∃ fault, (v.write path w).1 = .error fault) ↔
            ∃ kind, 2 ^ 63 ≤ (l.pool kind).size.bytes)) ∧
        ∀ kind, l.oversized? = some kind →
          v.write path w = (.error (.offsetOverflow kind (l.pool kind).size.bytes), w) := by
  obtain rfl := validateOk valid
  have emitted := v.intervalsOk
  refine ⟨_, emitted, fun sink => ⟨?_, fun kind found => ?_⟩, fun σ _ w path =>
    ⟨fun takes => ?_, fun kind found => ValidLayout.writeOversized emitted found w path⟩⟩
  · rw [← oversizedSome]
    cases found : v.oversized? with
    | none =>
      obtain ⟨chars, written⟩ := ValidLayout.charsFit emitted found
      rw [LegacyTable.charsWritten written]
      simp
    | some kind =>
      rw [LegacyTable.writeFails (ValidLayout.rowsOversized emitted found)]
      simp
  · exact LegacyTable.writeFails (ValidLayout.rowsOversized emitted found) sink
  · rw [← oversizedSome]
    cases found : v.oversized? with
    | none => simp [ValidLayout.writeFits emitted found takes]
    | some kind => simp [ValidLayout.writeOversized emitted found]

def vastRows : List PoolRow := [
  ⟨"file", "17179869183GB", "", "0", "", "0"⟩,
  ⟨"mmap", "8796093022208MB", "23", "8796093022160MB", "", "0"⟩,
  ⟨"brk", "40MB", "19", "0", "", "0"⟩]

def vastLayout : Layout where
  brk := ⟨.brk, { bytes := 40 * 2 ^ 20 },
    ⟨⟨[⟨19, 19, by decide, by decide⟩], false, by decide⟩, .zero⟩, .none⟩
  mmap := ⟨.mmap, { bytes := 2 ^ 63 },
    ⟨⟨[⟨23, 23, by decide, by decide⟩], false, by decide⟩, { bytes := 2 ^ 63 - 48 * 2 ^ 20 }⟩, .none⟩
  file := .ofSize .file { bytes := 2 ^ 64 - 2 ^ 30 }

def vastValid : ValidLayout := ⟨vastLayout, by rfl, by rfl⟩

theorem vastBuilt : (Layout.ofRows vastRows).result = .ok vastLayout := by cbv

theorem vastRefused : (Layout.ofRows vastRows).result = .ok vastLayout ∧
    ∃ intervals, vastValid.intervals = .ok intervals ∧
      LegacyTable.write intervals [0x23] =
        (.error (.offsetOverflow .mmap (2 ^ 63)), [0x23]) ∧
      vastValid.write "new.csv" { files := offsetDirectory } =
        (.error (.offsetOverflow .mmap (2 ^ 63)), { files := offsetDirectory }) := by
  have passed : vastLayout.validate.result = .ok vastValid := by rfl
  have first : vastLayout.oversized? = some .mmap := by decide
  obtain ⟨intervals, emitted, sent, saved⟩ := Layout.storedUnlessOversized passed
  exact ⟨vastBuilt, intervals, emitted, (sent [0x23]).2 .mmap first,
    (saved Directory { files := offsetDirectory } "new.csv").2 .mmap first⟩

end HugePools
