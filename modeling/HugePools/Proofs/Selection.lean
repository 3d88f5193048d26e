import HugePools.Proofs.Results
import HugePools.Validation

/-! Layouts that come from rows: each slot holds a pool of its own type, and a layout
that is accepted stays as it was read. -/
namespace HugePools

namespace PoolRow

theorem readResult (r : PoolRow) : r.read.result = r.pool := by
  unfold read
  split
  · rename_i p good
    exact good.symm
  · rename_i fault bad
    exact bad.symm

theorem readAllResult (rows : List PoolRow) :
    (readAll rows).result = rows.mapM PoolRow.pool := by
  induction rows with
  | nil => rfl
  | cons r rest ih =>
    rw [readAll, Journal.bindResult, readResult, List.mapM_cons]
    simp only [Journal.bindResult, ih]
    rfl

end PoolRow

namespace Layout

def chosen (pools : List Pool) : Except LayoutError Layout := do
  let brk ← (select pools .brk).result
  let mmap ← (select pools .mmap).result
  let file ← (select pools .file).result
  return ⟨brk, mmap, file⟩

theorem ofRowsResult (rows : List PoolRow) :
    (ofRows rows).result = rows.mapM PoolRow.pool >>= chosen := by
  unfold ofRows
  simp only [Journal.bindResult, PoolRow.readAllResult]
  rfl

def Slotted (l : Layout) : Prop := ∀ kind, (l.pool kind).kind = kind

theorem selectResult (pools : List Pool) (kind : PoolKind) : (select pools kind).result =
    match pools.find? fun p => p.kind = kind with
    | some p => .ok p
    | none => .error (.missingPool kind) := by
  unfold select
  rw [← List.head?_filter]
  cases pools.filter fun p => p.kind = kind with
  | nil => rfl
  | cons p more => cases more <;> rfl

theorem selectOk {pools : List Pool} {kind : PoolKind} {p : Pool} :
    (select pools kind).result = .ok p ↔ (pools.find? fun p => p.kind = kind) = some p := by
  rw [selectResult]
  cases pools.find? fun p => p.kind = kind <;> simp

theorem selectFails {pools : List Pool} {kind : PoolKind}
    (none : (pools.find? fun p => p.kind = kind) = none) :
    (select pools kind).result = .error (.missingPool kind) := by
  rw [selectResult, none]

theorem chosenOk {pools : List Pool} {l : Layout} : chosen pools = .ok l ↔
    ∀ kind, (pools.find? fun p => p.kind = kind) = some (l.pool kind) := by
  constructor
  · intro built kind
    obtain ⟨brk, first, rest⟩ := Results.bindOk.mp built
    obtain ⟨mmap, second, rest⟩ := Results.bindOk.mp rest
    obtain ⟨file, third, last⟩ := Results.bindOk.mp rest
    cases Results.pureOk.mp last
    cases kind with
    | brk => exact selectOk.mp first
    | mmap => exact selectOk.mp second
    | file => exact selectOk.mp third
  · intro held
    refine Results.bindOk.mpr ⟨l.brk, selectOk.mpr (held .brk), ?_⟩
    refine Results.bindOk.mpr ⟨l.mmap, selectOk.mpr (held .mmap), ?_⟩
    exact Results.bindOk.mpr ⟨l.file, selectOk.mpr (held .file), rfl⟩

theorem chosenPools (pools : List Pool) : (chosen pools).map Layout.pools =
    PoolKind.all.mapM fun kind => (select pools kind).result := by
  unfold chosen PoolKind.all
  rw [List.mapM_cons, List.mapM_cons, List.mapM_cons, List.mapM_nil]
  cases (select pools .brk).result with
  | error fault => rfl
  | ok brk =>
    cases (select pools .mmap).result with
    | error fault => rfl
    | ok mmap => cases (select pools .file).result <;> rfl

theorem ofRowsSlotted {rows : List PoolRow} {l : Layout} (built : (ofRows rows).result = .ok l) :
    l.Slotted := by
  rw [ofRowsResult] at built
  obtain ⟨pools, _, held⟩ := Results.bindOk.mp built
  intro kind
  simpa using List.find?_some (chosenOk.mp held kind)

theorem validateOk {l : Layout} {v : ValidLayout} (valid : l.validate.result = .ok v) :
    v.toLayout = l := by
  unfold validate at valid
  split at valid
  · cases valid
  · split at valid
    · cases valid
    · cases valid
      rfl

theorem validateResult (l : Layout) : l.validate.result.map (fun _ => ()) =
    l.brk.check >>= fun _ => l.mmap.check := by
  unfold validate
  split
  · rename_i fault first
    rw [first]
    rfl
  · rename_i first
    split
    · rename_i fault second
      change Except.error fault = _
      rw [first, second]
      rfl
    · rename_i second
      change Except.ok () = _
      rw [first, second]
      rfl

theorem validateFails {l : Layout} {fault : LayoutError} : l.validate.result = .error fault ↔
    l.brk.check = .error fault ∨ l.brk.check = .ok () ∧ l.mmap.check = .error fault := by
  rw [← Results.mapFails (f := fun _ => ()), validateResult, Results.bindFails]
  exact or_congr_right ⟨fun ⟨_, both⟩ => both, fun both => ⟨(), both⟩⟩

end Layout
end HugePools
