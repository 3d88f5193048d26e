import HugePools.World
import Mathlib

/-! Chains of steps that can fail: what the success of a whole says of its parts. -/
namespace HugePools.Results

variable {ε δ α β : Type}

theorem bindOk {x : Except ε α} {next : α → Except ε β} {b : β} :
    x >>= next = .ok b ↔ ∃ a, x = .ok a ∧ next a = .ok b := by
  cases x with
  | error fault => simp [bind, Except.bind]
  | ok a => simp [bind, Except.bind]

theorem bindFails {x : Except ε α} {next : α → Except ε β} {fault : ε} :
    x >>= next = .error fault ↔
      x = .error fault ∨ ∃ a, x = .ok a ∧ next a = .error fault := by
  cases x with
  | error other => simp [bind, Except.bind]
  | ok a => simp [bind, Except.bind]

theorem thenOk {x : Except ε Unit} {rest : Except ε β} {b : β} :
    (x >>= fun _ => rest) = .ok b ↔ x = .ok () ∧ rest = .ok b := by
  rw [bindOk]
  exact ⟨fun ⟨_, passed, last⟩ => ⟨passed, last⟩, fun ⟨passed, last⟩ => ⟨(), passed, last⟩⟩

theorem bindKept {x y : Except ε α} {f g : α → Except ε β} {b : β}
    (first : ∀ a, x = .ok a → y = .ok a) (next : ∀ a, f a = .ok b → g a = .ok b)
    (read : (x >>= f) = .ok b) : (y >>= g) = .ok b := by
  obtain ⟨a, own, rest⟩ := bindOk.mp read
  exact bindOk.mpr ⟨a, first a own, next a rest⟩

theorem pureOk {a b : α} : (pure a : Except ε α) = .ok b ↔ a = b := by
  simp [pure, Except.pure]

theorem mapOk {x : Except ε α} {f : α → β} {b : β} :
    x.map f = .ok b ↔ ∃ a, x = .ok a ∧ f a = b := by
  cases x with
  | error fault => simp [Except.map]
  | ok a => simp [Except.map]

theorem mapDone {x : Except ε α} {f : α → β} : (∃ b, x.map f = .ok b) ↔ ∃ a, x = .ok a := by
  simp [mapOk]

theorem mapFails {x : Except ε α} {f : α → β} {fault : ε} :
    x.map f = .error fault ↔ x = .error fault := by
  cases x with
  | error other => simp [Except.map]
  | ok a => simp [Except.map]

theorem mapErrorOk {x : Except ε α} {f : ε → δ} {a : α} :
    x.mapError f = .ok a ↔ x = .ok a := by
  cases x with
  | error fault => simp [Except.mapError]
  | ok b => simp [Except.mapError]

theorem mapErrorFails {x : Except ε α} {f : ε → δ} {fault : δ} :
    x.mapError f = .error fault ↔ ∃ cause, x = .error cause ∧ f cause = fault := by
  cases x with
  | error other => simp [Except.mapError]
  | ok a => simp [Except.mapError]

def fault? : Except ε α → Option ε
  | .ok _ => none
  | .error fault => some fault

theorem faultNone {x : Except ε α} : fault? x = none ↔ ∃ a, x = .ok a := by
  cases x <;> simp [fault?]

theorem faultSome {x : Except ε α} {fault : ε} : fault? x = some fault ↔ x = .error fault := by
  cases x <;> simp [fault?]

theorem bindFault {x : Except ε α} {next : α → Except ε β} {rest : Option ε}
    (same : ∀ a, fault? (next a) = rest) : fault? (x >>= next) = (fault? x).or rest := by
  cases x with
  | error fault => rfl
  | ok a => exact same a

theorem findSomeCons {f : α → Option β} {x : α} {xs : List α} :
    (x :: xs).findSome? f = (f x).or (xs.findSome? f) := by
  cases found : f x <;> simp [found]

theorem mapMCons {f : α → Except ε β} {x : α} {xs : List α} {ys : List β} :
    (x :: xs).mapM f = .ok ys ↔
      ∃ head tail, f x = .ok head ∧ xs.mapM f = .ok tail ∧ ys = head :: tail := by
  rw [List.mapM_cons, bindOk]
  constructor
  · intro given
    obtain ⟨head, first, more⟩ := given
    obtain ⟨tail, rest, last⟩ := bindOk.mp more
    exact ⟨head, tail, first, rest, (pureOk.mp last).symm⟩
  · intro given
    obtain ⟨head, tail, first, rest, rfl⟩ := given
    exact ⟨head, first, bindOk.mpr ⟨tail, rest, rfl⟩⟩

theorem mapMOk {f : α → Except ε β} {good : α → Prop} {g : α → β}
    (exact : ∀ a b, f a = .ok b ↔ good a ∧ b = g a) {xs : List α} {ys : List β} :
    xs.mapM f = .ok ys ↔ (∀ a ∈ xs, good a) ∧ ys = xs.map g := by
  induction xs generalizing ys with
  | nil =>
    rw [List.mapM_nil, pureOk]
    simp [eq_comm]
  | cons x xs ih =>
    rw [mapMCons, List.forall_mem_cons]
    constructor
    · intro given
      obtain ⟨head, tail, first, rest, rfl⟩ := given
      obtain ⟨passed, rfl⟩ := (exact x head).mp first
      obtain ⟨others, rfl⟩ := ih.mp rest
      exact ⟨⟨passed, others⟩, rfl⟩
    · intro given
      obtain ⟨⟨passed, others⟩, rfl⟩ := given
      exact ⟨g x, xs.map g, (exact x _).mpr ⟨passed, rfl⟩, ih.mpr ⟨others, rfl⟩, rfl⟩

theorem mapMMap {f : α → Except ε β} {xs : List α} {ys : List β} :
    xs.mapM f = .ok ys ↔ xs.map f = ys.map .ok := by
  induction xs generalizing ys with
  | nil =>
    rw [List.mapM_nil, pureOk]
    simp [eq_comm]
  | cons x xs ih =>
    rw [mapMCons, List.map_cons]
    constructor
    · intro given
      obtain ⟨head, tail, first, rest, rfl⟩ := given
      rw [List.map_cons, first, ih.mp rest]
    · intro given
      obtain ⟨head, tail, rfl, first, rest⟩ := List.map_eq_cons_iff.mp given.symm
      exact ⟨head, tail, first.symm, ih.mpr rest.symm, rfl⟩

theorem mapMGet {f : α → Except ε β} {xs : List α} {ys : List β} (read : xs.mapM f = .ok ys)
    (place : Nat) (b : β) : (xs.map f)[place]? = some (.ok b) ↔ ys[place]? = some b := by
  rw [mapMMap.mp read]
  simp

theorem mapMMem {f : α → Except ε β} {xs : List α} {ys : List β} (read : xs.mapM f = .ok ys)
    (b : β) : b ∈ ys ↔ ∃ a ∈ xs, f a = .ok b := by
  rw [← List.mem_map, mapMMap.mp read]
  simp

theorem mapMConsFails {f : α → Except ε β} {x : α} {xs : List α} {fault : ε} :
    (x :: xs).mapM f = .error fault ↔
      f x = .error fault ∨ (∃ head, f x = .ok head) ∧ xs.mapM f = .error fault := by
  rw [List.mapM_cons, bindFails]
  refine or_congr_right ⟨fun given => ?_, fun given => ?_⟩
  · obtain ⟨head, first, more⟩ := given
    rcases bindFails.mp more with rest | ⟨_, _, last⟩
    · exact ⟨⟨head, first⟩, rest⟩
    · cases last
  · obtain ⟨⟨head, first⟩, rest⟩ := given
    exact ⟨head, first, bindFails.mpr (.inl rest)⟩

theorem mapMFails {f : α → Except ε β} {xs : List α} {fault : ε} :
    xs.mapM f = .error fault ↔ ∃ earlier x later, xs = earlier ++ x :: later ∧
      (∀ y ∈ earlier, ∃ b, f y = .ok b) ∧ f x = .error fault := by
  induction xs with
  | nil => simp [pure, Except.pure]
  | cons x xs ih =>
    rw [mapMConsFails, ih]
    constructor
    · intro given
      rcases given with first | ⟨passed, earlier, y, later, rfl, others, last⟩
      · exact ⟨[], x, xs, rfl, List.forall_mem_nil _, first⟩
      · exact ⟨x :: earlier, y, later, rfl, List.forall_mem_cons.mpr ⟨passed, others⟩, last⟩
    · intro given
      obtain ⟨earlier, y, later, split, passed, last⟩ := given
      cases earlier with
      | nil =>
        cases split
        exact .inl last
      | cons z more =>
        cases split
        obtain ⟨first, others⟩ := List.forall_mem_cons.mp passed
        exact .inr ⟨first, more, y, later, rfl, others, last⟩

theorem mapMDone {f : α → Except ε β} {xs : List α} :
    (∃ ys, xs.mapM f = .ok ys) ↔ ∀ x ∈ xs, ∃ y, f x = .ok y := by
  induction xs with
  | nil => exact iff_of_true ⟨[], rfl⟩ (List.forall_mem_nil _)
  | cons x xs ih =>
    rw [List.forall_mem_cons, ← ih]
    constructor
    · intro given
      obtain ⟨ys, read⟩ := given
      obtain ⟨head, tail, first, rest, _⟩ := mapMCons.mp read
      exact ⟨⟨head, first⟩, ⟨tail, rest⟩⟩
    · intro given
      obtain ⟨⟨head, first⟩, ⟨tail, rest⟩⟩ := given
      exact ⟨_, mapMCons.mpr ⟨head, tail, first, rest, rfl⟩⟩

theorem mapMFind {f : α → Except ε β} {p : α → Bool} {q : β → Bool} {xs : List α} {ys : List β}
    (same : ∀ a b, f a = .ok b → q b = p a) (read : xs.mapM f = .ok ys) :
    (xs.find? p).map f = (ys.find? q).map .ok := by
  induction xs generalizing ys with
  | nil =>
    cases pureOk.mp read
    rfl
  | cons x xs ih =>
    obtain ⟨head, tail, first, rest, rfl⟩ := mapMCons.mp read
    rw [List.find?_cons, List.find?_cons, same x head first]
    cases p x with
    | true => exact congrArg some first
    | false => exact ih rest

theorem mapMImage {γ : Type} {f : α → Except ε β} {g : α → γ} {h : β → γ}
    (same : ∀ a b, f a = .ok b → h b = g a) {xs : List α} {ys : List β}
    (read : xs.mapM f = .ok ys) : ys.map h = xs.map g := by
  induction xs generalizing ys with
  | nil =>
    cases pureOk.mp read
    rfl
  | cons x xs ih =>
    obtain ⟨head, tail, first, rest, rfl⟩ := mapMCons.mp read
    rw [List.map_cons, List.map_cons, same x head first, ih rest]

theorem mapMFilter {f : α → Except ε β} {keep : α → Bool} {kept : β → Bool}
    (same : ∀ a b, f a = .ok b → kept b = keep a) {xs : List α}
    (read : ∀ a ∈ xs, keep a = false → ∃ b, f a = .ok b) :
    (xs.filter keep).mapM f = (xs.mapM f).map (List.filter kept) := by
  induction xs with
  | nil => rfl
  | cons x xs ih =>
    obtain ⟨first, others⟩ := List.forall_mem_cons.mp read
    have rest := ih others
    cases held : keep x with
    | false =>
      obtain ⟨b, ok⟩ := first held
      have left : kept b = false := (same x b ok).trans held
      rw [List.filter_cons_of_neg (by simp [held]), rest, List.mapM_cons, ok]
      cases xs.mapM f with
      | error fault => rfl
      | ok ys => exact congrArg Except.ok (List.filter_cons_of_neg (by simp [left])).symm
    | true =>
      rw [List.filter_cons_of_pos held, List.mapM_cons, List.mapM_cons, rest]
      cases ok : f x with
      | error fault => rfl
      | ok b =>
        have stays : kept b = true := (same x b ok).trans held
        cases xs.mapM f with
        | error fault => rfl
        | ok ys => exact congrArg Except.ok (List.filter_cons_of_pos stays).symm

theorem forMMap {f : α → Except ε Unit} (xs : List α) :
    xs.forM f = (xs.mapM f).map fun _ => () := by
  induction xs with
  | nil => rfl
  | cons x xs ih =>
    change (f x >>= fun _ => xs.forM f) = _
    rw [List.mapM_cons, ih]
    cases f x with
    | error fault => rfl
    | ok _ => cases xs.mapM f <;> rfl

theorem unitOk {x : Except ε Unit} : (∃ u, x = .ok u) ↔ x = .ok () :=
  ⟨fun ⟨_, ok⟩ => ok, fun ok => ⟨(), ok⟩⟩

theorem forMOk {f : α → Except ε Unit} {xs : List α} :
    xs.forM f = .ok () ↔ ∀ x ∈ xs, f x = .ok () := by
  rw [forMMap, ← unitOk, mapDone, mapMDone]
  exact forall₂_congr fun _ _ => unitOk

theorem forMFails {f : α → Except ε Unit} {xs : List α} {fault : ε} :
    xs.forM f = .error fault ↔ ∃ earlier x later, xs = earlier ++ x :: later ∧
      (∀ y ∈ earlier, f y = .ok ()) ∧ f x = .error fault := by
  rw [forMMap, mapFails, mapMFails]
  simp only [unitOk]

theorem mapMPerm {f : α → Except ε β} {xs ys : List α} (perm : xs.Perm ys) {zs : List β}
    (ok : ys.mapM f = .ok zs) : ∃ ws, xs.mapM f = .ok ws ∧ ws.Perm zs := by
  induction perm generalizing zs with
  | nil => exact ⟨zs, ok, .refl _⟩
  | cons x _ ih =>
    obtain ⟨head, tail, first, rest, rfl⟩ := mapMCons.mp ok
    obtain ⟨ws, own, same⟩ := ih rest
    exact ⟨head :: ws, mapMCons.mpr ⟨head, ws, first, own, rfl⟩, same.cons head⟩
  | swap x y xs =>
    obtain ⟨head, others, first, more, rfl⟩ := mapMCons.mp ok
    obtain ⟨next, tail, second, rest, rfl⟩ := mapMCons.mp more
    refine ⟨next :: head :: tail, ?_, .swap head next tail⟩
    exact mapMCons.mpr ⟨next, _, second, mapMCons.mpr ⟨head, tail, first, rest, rfl⟩, rfl⟩
  | trans _ _ left right =>
    obtain ⟨middle, between, first⟩ := right ok
    obtain ⟨ws, own, second⟩ := left between
    exact ⟨ws, own, second.trans first⟩

end HugePools.Results

namespace HugePools.Journal

variable {ε α β : Type}

theorem bindResult (j : Journal ε α) (next : α → Journal ε β) :
    (j >>= next).result = j.result >>= fun a => (next a).result := by
  change (j.andThen next).result = _
  cases ok : j.result with
  | error fault => rw [andThenError ok]; rfl
  | ok a => rw [andThenOk ok]; rfl

theorem bindOk {j : Journal ε α} {next : α → Journal ε β} {b : β} :
    (j >>= next).result = .ok b ↔ ∃ a, j.result = .ok a ∧ (next a).result = .ok b := by
  rw [bindResult, Results.bindOk]

theorem bindFails {j : Journal ε α} {next : α → Journal ε β} {fault : ε} :
    (j >>= next).result = .error fault ↔
      j.result = .error fault ∨ ∃ a, j.result = .ok a ∧ (next a).result = .error fault := by
  rw [bindResult, Results.bindFails]

theorem pureOk {a b : α} : (pure a : Journal ε α).result = .ok b ↔ a = b := by
  simp [pure, done]

theorem mapFaultOk {δ : Type} {change : ε → δ} {j : Journal ε α} {a : α} :
    (j.mapFault change).result = .ok a ↔ j.result = .ok a := Results.mapErrorOk

end HugePools.Journal

namespace HugePools.Job

variable {σ ε δ α β : Type} {job : Job σ ε α} {w after : World σ}

theorem bindOk {next : α → Job σ ε β} {b : β} : (job >>= next) w = (.ok b, after) ↔
    ∃ a middle, job w = (.ok a, middle) ∧ next a middle = (.ok b, after) := by
  rcases ran : job w with ⟨fault | a, middle⟩
  · simp [andThenError ran]
  · simp [andThenOk ran]

theorem ofExceptOk {result : Except ε α} {a : α} :
    ofExcept result w = (.ok a, after) ↔ result = .ok a ∧ after = w := by
  simp [ofExcept, eq_comm]

theorem readsOk {look : σ → Journal ε α} {a : α} : reads look w = (.ok a, after) ↔
    (look w.files).result = .ok a ∧ after = w.reported (look w.files).events := by
  simp [reads, eq_comm]

theorem readsSucceeds {look : σ → Journal ε α} {next : α → Job σ ε β} {b : β} :
    ((reads look >>= next) w).1 = .ok b ↔ ∃ a, (look w.files).result = .ok a ∧
      (next a (w.reported (look w.files).events)).1 = .ok b := by
  have ran : reads look w = ((look w.files).result, w.reported (look w.files).events) := rfl
  cases seen : (look w.files).result with
  | error fault =>
    rw [seen] at ran
    simp [andThenError ran]
  | ok a =>
    rw [seen] at ran
    simp [andThenOk ran]

theorem mapFaultOk {change : ε → δ} {a : α} :
    job.mapFault change w = (.ok a, after) ↔ job w = (.ok a, after) := by
  rcases ran : job w with ⟨fault | b, middle⟩ <;> simp [mapFault, ran, Except.mapError]

end HugePools.Job
