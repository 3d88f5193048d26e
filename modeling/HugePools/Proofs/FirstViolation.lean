import HugePools.Proofs.Geometry

/-! What is told of a layout that is refused. The rules of a pool stand in a fixed order; the fault
is that of the first rule which is broken, and it carries a range, an offset or a pair of ranges
that breaks it. -/
namespace HugePools

namespace Pool

inductive Rule where
  | expansion (page : PageSize)
  | bounds (page : PageSize)
  | offset (page : PageSize)
  | distance
  | meeting
  deriving DecidableEq, Repr

def Rule.all : List Rule := [.expansion .large, .expansion .huge, .bounds .large, .bounds .huge,
  .offset .large, .offset .huge, .distance, .meeting]

/-- A rule is broken by single pages, and these are placed in exact arithmetic. -/
def Breaks (p : Pool) : Rule → Prop
  | .expansion page => ∃ place i, p.placement page = .ok place ∧ place.pages.Has i ∧
      2 ^ 64 ≤ (place.pageAt page i).stop
  | .bounds page => ∃ place i, p.placement page = .ok place ∧ place.pages.Has i ∧
      p.size.bytes < (place.pageAt page i).stop
  | .offset page => ∃ place, p.placement page = .ok place ∧ ¬ 4096 ∣ place.offset.bytes
  | .distance => 0 < p.large.offset.bytes ∧ 0 < p.huge.offset.bytes ∧
      ¬ 2 ^ 30 ∣ Nat.dist p.huge.offset.bytes p.large.offset.bytes
  | .meeting => ∃ i j x, p.large.pages.Has i ∧ p.huge.pages.Has j ∧
      (p.large.pageAt .large i).Has x ∧ (p.huge.pageAt .huge j).Has x

/-- The lowest range of one list that shares a byte with the other, and the lowest range of the
other that shares one with it. -/
structure LowestMeeting (large huge : List ByteRange) (r s : ByteRange) : Prop where
  low : r ∈ large
  high : s ∈ huge
  shared : ∃ x, r.Has x ∧ s.Has x
  lowest : ∀ t ∈ large, t.start < r.start → ∀ u ∈ huge, ∀ x, ¬ (t.Has x ∧ u.Has x)
  least : ∀ u ∈ huge, u.start < s.start → ∀ x, ¬ (r.Has x ∧ u.Has x)

inductive Told (kind : PoolKind) (p : Pool) : Rule → LayoutError → Prop where
  | expansion {page place index i} (found : p.placement page = .ok place)
      (held : place.pages.Has i) (beyond : 2 ^ 64 ≤ (place.pageAt page i).stop)
      (named : index = i ∨ index = i + 1) :
      Told kind p (.expansion page) (.invalidField kind (listColumn page)
        (.addressOverflow index page.bytes place.offset.bytes))
  | bounds {page ranges r} (expanded : p.ranges page = .ok ranges) (mem : r ∈ ranges)
      (beyond : p.size.bytes < r.stop) :
      Told kind p (.bounds page) (.outOfBounds kind page r p.size.bytes)
  | offset {page place} (found : p.placement page = .ok place) :
      Told kind p (.offset page) (.misalignedOffset kind page place.offset.bytes)
  | distance : Told kind p .distance
      (.misalignedOffsetDelta kind p.large.offset.bytes p.huge.offset.bytes)
  | meeting {large huge r s} (first : p.ranges .large = .ok large)
      (second : p.ranges .huge = .ok huge) (meet : LowestMeeting large huge r s) :
      Told kind p .meeting (.interleave kind r s)

/-- A fault that tells of the first rule which a pool breaks. -/
def Refused (kind : PoolKind) (p : Pool) (fault : LayoutError) : Prop :=
  ∃ earlier rule later, Rule.all = earlier ++ rule :: later ∧ (∀ r ∈ earlier, ¬ p.Breaks r) ∧
    p.Breaks rule ∧ p.Told kind rule fault

def test (p : Pool) : Rule → Except LayoutError Unit
  | .expansion page => (p.ranges page).map fun _ => ()
  | .bounds page => p.ranges page >>= p.checkBounds page
  | .offset page => p.offset page >>= p.checkOffset page
  | .distance => p.checkDelta p.large.offset.bytes p.huge.offset.bytes
  | .meeting => p.ranges .large >>= fun large => p.ranges .huge >>= p.checkInterleave large

theorem checkRules (p : Pool) : p.check = Rule.all.forM p.test := by
  change p.check = (do
    (p.ranges .large).map fun _ => ()
    (p.ranges .huge).map fun _ => ()
    p.ranges .large >>= p.checkBounds .large
    p.ranges .huge >>= p.checkBounds .huge
    p.checkOffset .large p.large.offset.bytes
    p.checkOffset .huge p.huge.offset.bytes
    p.checkDelta p.large.offset.bytes p.huge.offset.bytes
    p.ranges .large >>= fun large => p.ranges .huge >>= p.checkInterleave large
    pure ())
  rw [bind_pure_unit]
  unfold check
  cases p.ranges .large with
  | error fault => rfl
  | ok large => cases p.ranges .huge <;> rfl

variable {p : Pool} {page : PageSize} {place : Placement} {fault : LayoutError}

theorem testBreaks {rule : Rule} (passed : p.test rule = .ok ()) : ¬ p.Breaks rule := by
  cases rule with
  | expansion page =>
    intro ⟨place, i, found, held, beyond⟩
    obtain ⟨ranges, expanded, _⟩ := Results.mapOk.mp passed
    have below := ((rangesOk found _).mp expanded).1
    have within := (place.spansWithin page (2 ^ 64 - 1)).mp fun r mem =>
      Nat.le_pred_of_lt (below r mem)
    have top := within i held
    omega
  | bounds page =>
    intro ⟨place, i, found, held, beyond⟩
    obtain ⟨ranges, expanded, bounded⟩ := Results.bindOk.mp passed
    obtain ⟨_, rfl⟩ := (rangesOk found _).mp expanded
    have within := (checkBoundsOk (place.spansBefore page) (place.spansNonempty page)).mp bounded
    exact Nat.not_le_of_lt beyond ((place.spansWithin page _).mp within i held)
  | offset page =>
    intro ⟨place, found, odd⟩
    have known : p.offset page = .ok place.offset.bytes := Results.mapOk.mpr ⟨place, found, rfl⟩
    obtain ⟨_, same, aligned⟩ := Results.bindOk.mp passed
    cases known.symm.trans same
    exact odd (checkOffsetOk.mp aligned)
  | distance =>
    intro ⟨first, second, odd⟩
    exact odd (checkDeltaOk.mp passed first second)
  | meeting =>
    intro ⟨i, j, x, held, also, shared⟩
    obtain ⟨large, low, more⟩ := Results.bindOk.mp passed
    obtain ⟨huge, high, clear⟩ := Results.bindOk.mp more
    obtain ⟨_, rfl⟩ := (rangesOk (rfl : p.placement .large = .ok p.large) _).mp low
    obtain ⟨_, rfl⟩ := (rangesOk (rfl : p.placement .huge = .ok p.huge) _).mp high
    have apart := (p.large.spansApartIff p.huge .large .huge).mp (checkInterleaveOk.mp clear)
    exact apart i j x held also shared

theorem lowestMeeting {large huge : List ByteRange} {r s : ByteRange}
    (ascending : large.Pairwise ByteRange.Before) (nonempty : ∀ r ∈ large, r.Nonempty)
    (hugeAscending : huge.Pairwise ByteRange.Before) (hugeNonempty : ∀ s ∈ huge, s.Nonempty)
    (found : firstMeeting large huge = some (r, s)) : LowestMeeting large huge r s := by
  obtain ⟨earlier, t, later, split, own, clear⟩ := List.findSome?_eq_some_iff.mp found
  obtain ⟨u, first, same⟩ := Option.map_eq_some_iff.mp own
  cases same
  obtain ⟨meets, front, back, cut, free⟩ := List.find?_eq_some_iff_append.mp first
  have low : r ∈ large := by simp [split]
  have high : s ∈ huge := by simp [cut]
  refine ⟨low, high, ?_, ?_, ?_⟩
  · exact (ByteRange.sharedIff (nonempty r low) (hugeNonempty s high)).mp meets
  · intro t mem lower u held x
    rw [split] at mem ascending
    have none := clear t (ByteRange.startsBefore ascending (nonempty r low) mem lower)
    have apart := List.find?_eq_none.mp (Option.map_eq_none_iff.mp none) u held
    exact ((ByteRange.interleavesIff t u).mp (by simpa using apart)).noneShared x
  · intro u held lower x
    rw [cut] at held hugeAscending
    have apart := free u (ByteRange.startsBefore hugeAscending (hugeNonempty s high) held lower)
    exact ((ByteRange.interleavesIff r u).mp (by simpa using apart)).noneShared x

theorem expansionFails (found : p.placement page = .ok place)
    (failed : p.test (.expansion page) = .error fault) :
    p.Breaks (.expansion page) ∧ p.Told p.kind (.expansion page) fault := by
  have refused : p.ranges page = .error fault := Results.mapFails.mp failed
  unfold ranges at refused
  rw [found] at refused
  obtain ⟨cause, overflow, rfl⟩ := Results.mapErrorFails.mp refused
  obtain ⟨index, i, rfl, named, held, beyond⟩ :=
    place.pages.byteRangesOverflow page.bytesPos overflow
  exact ⟨⟨place, i, found, held, beyond⟩, .expansion found held beyond named⟩

theorem boundsFails (found : p.placement page = .ok place) {ranges : List ByteRange}
    (expanded : p.ranges page = .ok ranges) (failed : p.test (.bounds page) = .error fault) :
    p.Breaks (.bounds page) ∧ p.Told p.kind (.bounds page) fault := by
  change (p.ranges page >>= p.checkBounds page) = _ at failed
  rw [expanded] at failed
  change p.checkBounds page ranges = _ at failed
  unfold checkBounds at failed
  split at failed
  · cases failed
  · rename_i r outer
    cases failed
    have mem := outerMem (List.mem_of_find?_eq_some outer)
    obtain ⟨_, rfl⟩ := (rangesOk found _).mp expanded
    have beyond : p.size.bytes < r.stop := by
      refine Nat.lt_of_not_le fun within => ?_
      have fits := (ByteRange.fitsIff (place.spansNonempty page r mem)).mpr within
      simpa [fits] using List.find?_some outer
    obtain ⟨run, held, rfl⟩ := List.mem_map.mp mem
    have last : place.pages.Has run.last := ⟨run, held, run.ordered, Nat.le_refl _⟩
    exact ⟨⟨place, run.last, found, last, beyond⟩, .bounds expanded mem beyond⟩

theorem offsetFails (found : p.placement page = .ok place)
    (failed : p.test (.offset page) = .error fault) :
    p.Breaks (.offset page) ∧ p.Told p.kind (.offset page) fault := by
  have known : p.offset page = .ok place.offset.bytes := Results.mapOk.mpr ⟨place, found, rfl⟩
  change (p.offset page >>= p.checkOffset page) = _ at failed
  rw [known] at failed
  change p.checkOffset page place.offset.bytes = _ at failed
  have odd : ¬ 4096 ∣ place.offset.bytes := fun aligned => by
    cases failed.symm.trans (checkOffsetOk.mpr aligned)
  unfold checkOffset at failed
  split at failed
  · cases failed
  · cases failed
    exact ⟨⟨place, found, odd⟩, .offset found⟩

theorem distanceFails (failed : p.test .distance = .error fault) :
    p.Breaks .distance ∧ p.Told p.kind .distance fault := by
  change p.checkDelta _ _ = _ at failed
  have broken : p.Breaks .distance := by
    by_contra whole
    refine nomatch failed.symm.trans (checkDeltaOk.mpr fun first second => ?_)
    by_contra odd
    exact whole ⟨first, second, odd⟩
  unfold checkDelta at failed
  split at failed
  · cases failed
    exact ⟨broken, .distance⟩
  · cases failed

theorem meetingFails {large huge : List ByteRange} (first : p.ranges .large = .ok large)
    (second : p.ranges .huge = .ok huge) (failed : p.test .meeting = .error fault) :
    p.Breaks .meeting ∧ p.Told p.kind .meeting fault := by
  change (p.ranges .large >>= fun large => p.ranges .huge >>= p.checkInterleave large) = _ at failed
  rw [first, second] at failed
  change p.checkInterleave large huge = _ at failed
  unfold checkInterleave at failed
  split at failed
  · cases failed
  · rename_i r s found
    cases failed
    obtain ⟨_, rfl⟩ := (rangesOk (rfl : p.placement .large = .ok p.large) _).mp first
    obtain ⟨_, rfl⟩ := (rangesOk (rfl : p.placement .huge = .ok p.huge) _).mp second
    have meet := lowestMeeting (p.large.spansBefore .large) (p.large.spansNonempty .large)
      (p.huge.spansBefore .huge) (p.huge.spansNonempty .huge) found
    obtain ⟨x, low, high⟩ := meet.shared
    obtain ⟨i, held, inside⟩ := (p.large.spansHasPage .large x).mp ⟨r, meet.low, low⟩
    obtain ⟨j, also, within⟩ := (p.huge.spansHasPage .huge x).mp ⟨s, meet.high, high⟩
    exact ⟨⟨i, j, x, held, also, inside, within⟩, .meeting first second meet⟩

theorem placed (mem : .expansion page ∈ Rule.all ∨ .bounds page ∈ Rule.all ∨
    .offset page ∈ Rule.all) : ∃ place, p.placement page = .ok place := by
  cases page with
  | base => exact absurd mem (by decide)
  | large => exact ⟨p.large, rfl⟩
  | huge => exact ⟨p.huge, rfl⟩

theorem Rule.expandedFirst {earlier later : List Rule} {rule : Rule}
    (split : all = earlier ++ rule :: later) : (∃ page, rule = .expansion page) ∨
      .expansion .large ∈ earlier ∧ .expansion .huge ∈ earlier := by
  unfold all at split
  cases earlier with
  | nil => exact .inl ⟨.large, (List.cons.inj split).1.symm⟩
  | cons first more =>
    obtain ⟨rfl, rest⟩ := List.cons.inj split
    cases more with
    | nil => exact .inl ⟨.huge, (List.cons.inj rest).1.symm⟩
    | cons second others =>
      obtain ⟨rfl, _⟩ := List.cons.inj rest
      exact .inr ⟨by simp, by simp⟩

theorem checkRefused (failed : p.check = .error fault) : p.Refused p.kind fault := by
  rw [checkRules] at failed
  obtain ⟨earlier, rule, later, split, passed, last⟩ := Results.forMFails.mp failed
  have mem : rule ∈ Rule.all := by rw [split]; simp
  refine ⟨earlier, rule, later, split, fun r held => testBreaks (passed r held), ?_⟩
  rcases Rule.expandedFirst split with ⟨page, rfl⟩ | ⟨low, high⟩
  · obtain ⟨place, found⟩ := placed (p := p) (.inl mem)
    exact expansionFails found last
  · obtain ⟨large, first, _⟩ := Results.mapOk.mp (passed _ low)
    obtain ⟨huge, second, _⟩ := Results.mapOk.mp (passed _ high)
    cases rule with
    | expansion page =>
      obtain ⟨place, found⟩ := placed (p := p) (.inl mem)
      exact expansionFails found last
    | bounds page =>
      obtain ⟨place, found⟩ := placed (p := p) (.inr (.inl mem))
      cases page with
      | base => cases found
      | large => exact boundsFails found first last
      | huge => exact boundsFails found second last
    | offset page =>
      obtain ⟨place, found⟩ := placed (p := p) (.inr (.inr mem))
      exact offsetFails found last
    | distance => exact distanceFails last
    | meeting => exact meetingFails first second last

theorem Refused.broken {kind : PoolKind} (refused : p.Refused kind fault) :
    ∃ rule ∈ Rule.all, p.Breaks rule := by
  obtain ⟨earlier, rule, later, split, _, broken, _⟩ := refused
  exact ⟨rule, by rw [split]; simp, broken⟩

theorem checkFails : (∃ fault, p.check = .error fault) ↔ ∃ rule ∈ Rule.all, p.Breaks rule := by
  constructor
  · intro failed
    obtain ⟨fault, failed⟩ := failed
    exact (checkRefused failed).broken
  · intro broken
    obtain ⟨rule, mem, broken⟩ := broken
    cases verdict : p.check with
    | error fault => exact ⟨fault, rfl⟩
    | ok _ => exact absurd broken (testBreaks (Results.forMOk.mp (p.checkRules ▸ verdict) rule mem))

end Pool

/-- A layout is refused where brk or mmap breaks a rule. It is refused for brk, if brk breaks one,
and for mmap otherwise; and the fault tells of the first rule that this pool breaks. -/
theorem Layout.firstViolation {rows : List PoolRow} {l : Layout}
    (built : (Layout.ofRows rows).result = .ok l) :
    ((∃ fault, l.validate.result = .error fault) ↔
      (∃ rule ∈ Pool.Rule.all, l.brk.Breaks rule) ∨ ∃ rule ∈ Pool.Rule.all, l.mmap.Breaks rule) ∧
    ∀ fault, l.validate.result = .error fault →
      ((∃ rule ∈ Pool.Rule.all, l.brk.Breaks rule) → l.brk.Refused .brk fault) ∧
      ((¬ ∃ rule ∈ Pool.Rule.all, l.brk.Breaks rule) → l.mmap.Refused .mmap fault) := by
  have slotted := ofRowsSlotted built
  have brk : l.brk.kind = .brk := slotted .brk
  have mmap : l.mmap.kind = .mmap := slotted .mmap
  refine ⟨?_, fun fault failed => ?_⟩
  · simp only [validateFails, ← Pool.checkFails]
    cases l.brk.check with
    | error fault => simp
    | ok _ => simp
  · rcases validateFails.mp failed with first | ⟨passed, second⟩
    · have refused := Pool.checkRefused first
      exact ⟨fun _ => brk ▸ refused, fun whole => absurd refused.broken whole⟩
    · have whole : ¬ ∃ rule ∈ Pool.Rule.all, l.brk.Breaks rule := by
        rw [← Pool.checkFails, passed]
        exact fun ⟨_, failed⟩ => nomatch failed
      exact ⟨fun broken => absurd broken whole, fun _ => mmap ▸ Pool.checkRefused second⟩

def crowdedRows : List PoolRow := [
  ⟨"mmap", "0", "", "0", "17", "17179869166GB"⟩, ⟨"brk", "14MB", "6,9", "0", "", "77"⟩,
  ⟨"file", "0", "", "0", "", "0"⟩]

def crowdedLayout : Layout where
  brk := ⟨.brk, { bytes := 14 * 2 ^ 20 },
    ⟨⟨[⟨6, 6, by decide, by decide⟩, ⟨9, 9, by decide, by decide⟩], false, by decide⟩, .zero⟩,
    ⟨.empty, { bytes := 77 }⟩⟩
  mmap := ⟨.mmap, .zero, .none,
    ⟨⟨[⟨17, 17, by decide, by decide⟩], false, by decide⟩, { bytes := 17179869166 * 2 ^ 30 }⟩⟩
  file := .ofSize .file .zero

def crowdedFault : LayoutError := .outOfBounds .brk .large ⟨18874368, 20971520⟩ 14680064

theorem crowdedReported : (Layout.ofRows crowdedRows).result = .ok crowdedLayout ∧
    crowdedLayout.validate.result = .error crowdedFault ∧
    crowdedLayout.mmap.Breaks (.expansion .huge) ∧ crowdedLayout.brk.Breaks (.offset .huge) ∧
    crowdedLayout.brk.Refused .brk crowdedFault := by
  have built : (Layout.ofRows crowdedRows).result = .ok crowdedLayout := by cbv
  have refused : crowdedLayout.validate.result = .error crowdedFault := by cbv
  have beyond : crowdedLayout.brk.Breaks (.bounds .large) :=
    ⟨crowdedLayout.brk.large, 9, rfl, by decide, by decide⟩
  refine ⟨built, refused, ⟨crowdedLayout.mmap.huge, 17, rfl, by decide, by decide⟩,
    ⟨crowdedLayout.brk.huge, rfl, by decide⟩, ?_⟩
  exact ((Layout.firstViolation built).2 _ refused).1 ⟨.bounds .large, by decide, beyond⟩

end HugePools
