import HugePools.LegacyTable
import HugePools.Loading
import HugePools.Proofs.Emission
import HugePools.Proofs.JoinedRuns
import HugePools.Proofs.Selection
import HugePools.Reservation

/-! What a layout means. Cells that stand for the same values give the same layout up to the notes
on duplicates, and nothing that follows the reading of the rows looks at those notes. -/
namespace HugePools

/-- Two pools with the same pages in the same places, wherever their lists came from. -/
structure Pool.Alike (p q : Pool) : Prop where
  kind : p.kind = q.kind
  size : p.size.bytes = q.size.bytes
  largeOffset : p.large.offset.bytes = q.large.offset.bytes
  hugeOffset : p.huge.offset.bytes = q.huge.offset.bytes
  largePages : ∀ index, p.large.pages.Has index ↔ q.large.pages.Has index
  hugePages : ∀ index, p.huge.pages.Has index ↔ q.huge.pages.Has index

def PoolRow.Alike (r s : PoolRow) : Prop :=
  ∃ p q : Pool, r.pool = .ok p ∧ s.pool = .ok q ∧ p.Alike q

def Placement.plain (place : Placement) : Placement := { place with pages := place.pages.plain }

def Pool.plain (p : Pool) : Pool := { p with large := p.large.plain, huge := p.huge.plain }

def Layout.plain (l : Layout) : Layout := ⟨l.brk.plain, l.mmap.plain, l.file.plain⟩

theorem Placement.plainSame {place other : Placement}
    (offset : place.offset.bytes = other.offset.bytes)
    (pages : ∀ index, place.pages.Has index ↔ other.pages.Has index) :
    place.plain = other.plain := by
  have same : place.pages.plain = other.pages.plain :=
    PageSet.plainRuns (PageSet.runsUnique pages) rfl
  unfold plain
  rw [same, Size.ext offset]

theorem Pool.Alike.plain {p q : Pool} (alike : p.Alike q) : p.plain = q.plain := by
  have large := Placement.plainSame alike.largeOffset alike.largePages
  have huge := Placement.plainSame alike.hugeOffset alike.hugePages
  unfold Pool.plain
  rw [large, huge, alike.kind, Size.ext alike.size]

namespace PoolRow

theorem alikeSelf {r : PoolRow} {p : Pool} (read : r.pool = .ok p) : r.Alike r :=
  ⟨p, p, read, read, rfl, rfl, rfl, rfl, fun _ => Iff.rfl, fun _ => Iff.rfl⟩

theorem plainRead {rows others : List PoolRow} (alike : List.Forall₂ PoolRow.Alike rows others) :
    ∃ pools more, rows.mapM PoolRow.pool = .ok pools ∧ others.mapM PoolRow.pool = .ok more ∧
      pools.map Pool.plain = more.map Pool.plain := by
  induction alike with
  | nil => exact ⟨[], [], rfl, rfl, rfl⟩
  | cons row _ ih =>
    obtain ⟨p, q, first, second, same⟩ := row
    obtain ⟨pools, more, read, also, plain⟩ := ih
    refine ⟨p :: pools, q :: more, ?_, ?_, ?_⟩
    · exact Results.mapMCons.mpr ⟨p, pools, first, read, rfl⟩
    · exact Results.mapMCons.mpr ⟨q, more, second, also, rfl⟩
    · rw [List.map_cons, List.map_cons, same.plain, plain]

end PoolRow

namespace Layout

theorem selectPlain (pools : List Pool) (kind : PoolKind) :
    (select (pools.map Pool.plain) kind).result = (select pools kind).result.map Pool.plain := by
  have kept : (pools.map Pool.plain).find? (fun p => p.kind = kind) =
      (pools.find? fun p => p.kind = kind).map Pool.plain := by
    rw [List.find?_map]
    rfl
  rw [selectResult, selectResult, kept]
  cases pools.find? fun p => p.kind = kind <;> rfl

theorem chosenPlain (pools : List Pool) :
    chosen (pools.map Pool.plain) = (chosen pools).map plain := by
  unfold chosen
  rw [selectPlain, selectPlain, selectPlain]
  cases (select pools .brk).result with
  | error fault => rfl
  | ok brk =>
    cases (select pools .mmap).result with
    | error fault => rfl
    | ok mmap => cases (select pools .file).result <;> rfl

theorem ofRowsPlain {rows others : List PoolRow}
    (alike : List.Forall₂ PoolRow.Alike rows others) :
    (ofRows rows).result.map plain = (ofRows others).result.map plain := by
  obtain ⟨pools, more, read, also, same⟩ := PoolRow.plainRead alike
  rw [ofRowsResult, ofRowsResult, read, also]
  change (chosen pools).map plain = (chosen more).map plain
  rw [← chosenPlain, ← chosenPlain, same]

variable {l m : Layout}

theorem plainVerdict (same : l.plain = m.plain) :
    l.validate.result.map (fun _ => ()) = m.validate.result.map (fun _ => ()) := by
  have checked (n : Layout) : n.validate.result.map (fun _ => ()) =
      n.plain.brk.check >>= fun _ => n.plain.mmap.check := n.validateResult
  rw [checked, checked, same]

theorem plainIntervals {v w : ValidLayout} (same : v.toLayout.plain = w.toLayout.plain) :
    v.intervals = w.intervals := by
  have emitted (u : ValidLayout) : u.intervals = do
      let brk ← LegacyTable.poolIntervals u.toLayout.plain.brk
      let mmap ← LegacyTable.poolIntervals u.toLayout.plain.mmap
      return LegacyTable.markers u.toLayout.plain ++ brk ++ mmap := rfl
  rw [emitted, emitted, same]

theorem plainWrite {σ : Type} [FileSystem σ] {v w : ValidLayout} (same : v.intervals = w.intervals)
    (path : String) : (v.write path : Job σ LayoutError Unit) = w.write path := by
  unfold ValidLayout.write
  rw [same]

/-- Rows that denote the same pools give layouts that differ in the notes on duplicates alone, and
from then on the same verdict, fault, intervals, table, totals, summary and reservation. -/
theorem meaningKept {rows others : List PoolRow}
    (alike : List.Forall₂ PoolRow.Alike rows others) :
    (ofRows rows).result.map plain = (ofRows others).result.map plain ∧
    ∀ l m, (ofRows rows).result = .ok l → (ofRows others).result = .ok m →
      l.plain = m.plain ∧
      l.validate.result.map (fun _ => ()) = m.validate.result.map (fun _ => ()) ∧
      (∀ v w, l.validate.result = .ok v → m.validate.result = .ok w →
        v.intervals = w.intervals ∧
        (v.intervals >>= LegacyTable.chars) = (w.intervals >>= LegacyTable.chars) ∧
        ∀ (σ : Type) [FileSystem σ] (path : String),
          (v.write path : Job σ LayoutError Unit) = w.write path) ∧
      l.total2MB = m.total2MB ∧ l.total1GB = m.total1GB ∧ l.summary = m.summary ∧
      l.text = m.text ∧ Reservation.ofLayout l = Reservation.ofLayout m := by
  refine ⟨ofRowsPlain alike, fun l m built also => ?_⟩
  have same : l.plain = m.plain := by
    have read := ofRowsPlain alike
    rw [built, also] at read
    exact Except.ok.inj read
  refine ⟨same, plainVerdict same, fun v w valid passed => ?_, ?_⟩
  · obtain rfl := validateOk valid
    obtain rfl := validateOk passed
    have intervals := plainIntervals same
    exact ⟨intervals, by rw [intervals], fun _ _ => plainWrite intervals⟩
  · have kept {α : Type} (read : Layout → α) : read l.plain = read m.plain := congrArg read same
    exact ⟨kept total2MB, kept total1GB, kept summary, kept text, kept Reservation.ofLayout⟩

end Layout

def respelled : PoolRow := ⟨" BRK ", "8192mb", "7,07", "4KB", "2-2", "1073745920"⟩

def respelledRows : List PoolRow := respelled :: offsetRows.tail

def respelledLayout : Layout :=
  let marked : Placement :=
    { offsetLayout.brk.large with pages := { offsetLayout.brk.large.pages with duplicates := true } }
  { offsetLayout with brk := { offsetLayout.brk with large := marked } }

theorem respelledRead : respelled.pool = .ok respelledLayout.brk := by
  have pieces : PageSet.parse "7,07" = PageSet.ofTokens ["7", "07"] := by rfl
  have marked : PageSet.ofTokens ["7", "07"] = .ok respelledLayout.brk.large.pages := by cbv
  unfold PoolRow.pool PoolRow.cell respelled
  rw [pieces, marked]
  decide +kernel

theorem respelledAlike : List.Forall₂ PoolRow.Alike offsetRows respelledRows := by
  have brk : PoolRow.Alike ⟨"brk", "8GB", "7", "4096", "2", "1073745920"⟩ respelled :=
    ⟨offsetLayout.brk, respelledLayout.brk, by decide +kernel, respelledRead,
      ⟨rfl, rfl, rfl, rfl, fun _ => Iff.rfl, fun _ => Iff.rfl⟩⟩
  have file : PoolRow.pool ⟨"file", "1GB", "", "0", "", "0"⟩ = .ok offsetLayout.file := by
    decide +kernel
  have mmap : PoolRow.pool ⟨"MMAP", "4GB", "5", "0", "2", "0"⟩ = .ok offsetLayout.mmap := by
    decide +kernel
  exact .cons brk (.cons (PoolRow.alikeSelf file) (.cons (PoolRow.alikeSelf mmap) .nil))

theorem respelledBuilt : (Layout.ofRows respelledRows).result = .ok respelledLayout := by
  have others : offsetRows.tail.mapM PoolRow.pool = .ok [offsetLayout.file, offsetLayout.mmap] := by
    decide +kernel
  have read := Results.mapMCons.mpr ⟨_, _, respelledRead, others, rfl⟩
  rw [Layout.ofRowsResult]
  exact Results.bindOk.mpr ⟨_, read, rfl⟩

theorem respelledKept : offsetLayout ≠ respelledLayout ∧
    offsetLayout.plain = respelledLayout.plain ∧
    offsetLayout.validate.result.map (fun _ => ()) =
      respelledLayout.validate.result.map (fun _ => ()) ∧
    offsetLayout.summary = respelledLayout.summary ∧
    Reservation.ofLayout offsetLayout = Reservation.ofLayout respelledLayout := by
  obtain ⟨same, verdict, _, _, _, summary, _, reserved⟩ :=
    (Layout.meaningKept respelledAlike).2 offsetLayout respelledLayout offsetBuilt respelledBuilt
  exact ⟨by decide, same, verdict, summary, reserved⟩

end HugePools
