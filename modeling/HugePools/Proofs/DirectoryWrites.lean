import HugePools.Directory
import HugePools.Proofs.Results
import HugePools.Proofs.RunText

/-! Files that were made. What was handed over to a path that was created is what the same path
leads to afterwards, since no directory on the way goes away. -/
namespace HugePools.Directory

structure Opens (d : Directory) (path : String) (names : List String) : Prop where
  passed : checkPath path = .ok ()
  way : ∃ pieces parent last, split path = pieces ++ [last] ∧ names = parent ++ [last] ∧
    pieces.foldlM d.step (d.start path) = .ok (.directory parent) ∧
    last ≠ "" ∧ last ≠ "." ∧ last ≠ ".." ∧ last.utf8ByteSize ≤ 255

variable {d : Directory} {path piece : String} {here names next parent : List String}
  {bytes : List UInt8} {v : Device}

theorem splitLast (some : path ≠ "") (bare : path.toList.getLast? ≠ Option.some '/') :
    ∃ pieces last, split path = pieces ++ [last] ∧ last ≠ "" := by
  have chars : path.toList ≠ [] := fun none => some (String.toList_eq_nil_iff.mp none)
  have last := Text.piecesLast chars bare
  obtain ⟨init, part, shape⟩ :=
    (List.eq_nil_or_concat _).resolve_left (Text.piecesNonempty '/' path.toList)
  refine ⟨init.map String.ofList, String.ofList part, ?_, fun none => ?_⟩
  · unfold split
    rw [shape, List.concat_eq_append, List.map_append]
    rfl
  · have empty : part = [] := by simpa using congrArg String.toList none
    rw [shape, empty] at last
    simp at last

theorem checkPathSome (passed : checkPath path = .ok ()) : path ≠ "" := by
  rintro rfl
  cases passed

theorem targetOpens {t : Target} (found : d.target path = .ok t) : ∃ names, d.Opens path names ∧
    ((t = .file names ∧ ∀ here, d.enter names ≠ .ok (.directory here)) ∨
      ∃ v, t = .device v ∧ d.enter names = .ok (.device v)) := by
  unfold target at found
  obtain ⟨passed, more⟩ := Results.thenOk.mp found
  obtain ⟨place, walked, rest⟩ := Results.bindOk.mp more
  cases place with
  | file _ _ => cases rest
  | device _ => cases rest
  | directory parent =>
    dsimp only at rest
    split at rest
    · cases rest
    · rename_i plain
      obtain ⟨bare, named⟩ := not_or.mp plain
      obtain ⟨pieces, last, shape, some⟩ := splitLast (checkPathSome passed) bare
      have kept : ((split path).reverse.dropWhile (· = "")).reverse = pieces ++ [last] := by
        rw [shape]
        simp [some]
      rw [kept, List.dropLast_concat] at walked
      rw [kept, List.getLastD_concat] at named rest
      obtain ⟨dot, dots⟩ := not_or.mp named
      split at rest
      · cases rest
      · rename_i short
        have opens : d.Opens path (parent ++ [last]) :=
          ⟨passed, pieces, parent, last, shape, rfl, walked, some, dot, dots, by omega⟩
        refine ⟨_, opens, ?_⟩
        split at rest
        · cases rest
        · rename_i v device
          cases rest
          exact .inr ⟨v, rfl, device⟩
        · rename_i free _
          cases rest
          exact .inl ⟨rfl, free⟩

theorem Opens.located (opens : d.Opens path names) : d.locate path = d.enter names := by
  obtain ⟨pieces, parent, last, shape, rfl, walked, some, dot, dots, short⟩ := opens.way
  have arrives : d.step (.directory parent) last = d.enter (parent ++ [last]) := by
    unfold step
    dsimp only
    rw [if_neg (not_or.mpr ⟨some, dot⟩), if_neg dots, if_neg (Nat.not_lt.mpr short)]
  unfold locate
  rw [opens.passed, shape]
  change (pieces ++ [last]).foldlM d.step (d.start path) = _
  rw [List.foldlM_append, walked, ← arrives]
  change [last].foldlM d.step (.directory parent) = _
  rw [List.foldlM_cons]
  exact bind_pure (d.step (.directory parent) last)

theorem enterDirectory (entered : d.enter here = .ok (.directory next)) : next = here ∧
    (d.files.find? fun f => f.1 = here) = none ∧ Device.find? here = none ∧
    d.hasDirectory here = true := by
  unfold enter at entered
  split at entered
  · cases entered
  · cases entered
  · rename_i file device
    split at entered
    · rename_i known
      cases entered
      exact ⟨rfl, file, device, known⟩
    · cases entered

theorem stepFrom {place : Place} (moved : d.step place piece = .ok (.directory next)) :
    ∃ names, place = .directory names := by
  cases place with
  | directory names => exact ⟨names, rfl⟩
  | file _ _ => cases moved
  | device _ => cases moved

theorem walkFrom {place : Place} {pieces : List String}
    (walked : pieces.foldlM d.step place = .ok (.directory parent)) :
    ∃ names, place = .directory names := by
  induction pieces generalizing place with
  | nil => exact ⟨parent, Except.ok.inj walked⟩
  | cons piece rest ih =>
    obtain ⟨middle, moved, more⟩ := Results.bindOk.mp walked
    obtain ⟨names, rfl⟩ := ih more
    exact stepFrom moved

theorem putFile {f : List String × List UInt8} (other : f.1 ≠ names) :
    f ∈ (d.put names bytes).files ↔ f ∈ d.files := by
  unfold put
  rw [List.mem_append, List.mem_filter, List.mem_singleton]
  constructor
  · rintro (⟨held, _⟩ | rfl)
    · exact held
    · exact absurd rfl other
  · exact fun held => .inl ⟨held, by simpa using other⟩

theorem putTwice {first : List UInt8} :
    (d.put names first).put names bytes = d.put names bytes := by
  unfold put
  simp [List.filter_append, List.filter_filter]

theorem putEntered : (d.put names bytes).enter names = .ok (.file names bytes) := by
  have found : (d.put names bytes).files.find? (fun f => f.1 = names) = some (names, bytes) := by
    unfold put
    have others : (d.files.filter fun f => f.1 ≠ names).find? (fun f => f.1 = names) = none := by
      simp
    rw [List.find?_append, others, Option.none_or]
    exact List.find?_cons_of_pos (decide_eq_true rfl)
  unfold enter
  rw [found]

theorem putKept (other : here ≠ names) (entered : d.enter here = .ok (.directory here)) :
    (d.put names bytes).enter here = .ok (.directory here) := by
  obtain ⟨_, file, device, known⟩ := enterDirectory entered
  have none : (d.put names bytes).files.find? (fun f => f.1 = here) = none := by
    refine List.find?_eq_none.mpr fun f mem => ?_
    by_cases same : f.1 = names
    · simpa [same] using other.symm
    · exact List.find?_eq_none.mp file f ((putFile same).mp mem)
  have still : (d.put names bytes).hasDirectory here = true := by
    unfold hasDirectory at known ⊢
    rw [Bool.or_eq_true, Bool.or_eq_true] at known ⊢
    refine known.imp_left (Or.imp_right fun above => ?_)
    obtain ⟨f, mem, part⟩ := List.any_eq_true.mp above
    rw [List.any_eq_true]
    by_cases same : f.1 = names
    · exact ⟨(names, bytes), List.mem_append_right _ (List.mem_singleton_self _), same ▸ part⟩
    · exact ⟨f, (putFile same).mpr mem, part⟩
  unfold enter
  rw [none, device]
  exact if_pos still

section

variable (free : ∀ top, d.enter names ≠ .ok (.directory top))

include free

theorem stepKept (moved : d.step (.directory here) piece = .ok (.directory next)) :
    (d.put names bytes).step (.directory here) piece = .ok (.directory next) := by
  unfold step at moved ⊢
  dsimp only at moved ⊢
  split
  · rename_i stays
    rwa [if_pos stays] at moved
  · rename_i leaves
    rw [if_neg leaves] at moved
    split
    · rename_i up
      rwa [if_pos up] at moved
    · rename_i down
      rw [if_neg down] at moved
      split
      · rename_i long
        rw [if_pos long] at moved
        cases moved
      · rename_i short
        rw [if_neg short] at moved
        obtain ⟨rfl, _⟩ := enterDirectory moved
        exact putKept (fun same => free _ (same ▸ moved)) moved

theorem walkKept {pieces : List String}
    (walked : pieces.foldlM d.step (.directory here) = .ok (.directory parent)) :
    pieces.foldlM (d.put names bytes).step (.directory here) = .ok (.directory parent) := by
  induction pieces generalizing here with
  | nil => exact walked
  | cons piece rest ih =>
    obtain ⟨place, moved, more⟩ := Results.bindOk.mp walked
    obtain ⟨middle, rfl⟩ := walkFrom more
    exact Results.bindOk.mpr ⟨_, stepKept free moved, ih more⟩

theorem Opens.put (opens : d.Opens path names) : (d.put names bytes).Opens path names := by
  obtain ⟨pieces, parent, last, shape, same, walked, named⟩ := opens.way
  exact ⟨opens.passed, pieces, parent, last, shape, same, walkKept free walked, named⟩

end

theorem locatePut (found : d.target path = .ok (.file names)) :
    (d.put names bytes).locate path = .ok (.file names bytes) := by
  obtain ⟨_, opens, ⟨same, free⟩ | ⟨_, other, _⟩⟩ := targetOpens found
  · cases same
    exact (opens.put free).located.trans putEntered
  · cases other

theorem locateDevice (found : d.target path = .ok (.device v)) :
    d.locate path = .ok (.device v) := by
  obtain ⟨_, opens, ⟨other, _⟩ | ⟨_, same, entered⟩⟩ := targetOpens found
  · cases other
  · cases same
    exact opens.located.trans entered

theorem findPut (found : d.target path = .ok (.file names)) :
    (d.put names bytes).find path = .ok (.file bytes) :=
  Results.mapOk.mpr ⟨_, locatePut found, rfl⟩

theorem fileFilled (found : d.target path = .ok (.file names)) :
    d.create path = .ok (d.put names []) ∧
      (d.put names []).append path bytes = (.ok (), d.put names bytes) := by
  refine ⟨Results.mapOk.mpr ⟨_, found, rfl⟩, ?_⟩
  unfold append
  rw [locatePut found]
  exact congrArg _ putTwice

theorem putOfFilled {made after : Directory} (found : d.target path = .ok (.file names))
    (created : d.create path = .ok made) (filled : made.append path bytes = (.ok (), after)) :
    after = d.put names bytes := by
  obtain ⟨first, second⟩ := fileFilled found
  cases first.symm.trans created
  cases second.symm.trans filled
  rfl

theorem deviceFilled (found : d.target path = .ok (.device v)) :
    d.create path = .ok d ∧ d.append path bytes = d.send bytes v := by
  refine ⟨Results.mapOk.mpr ⟨_, found, rfl⟩, ?_⟩
  unfold append
  rw [locateDevice found]

/-- The bytes stand where the path leads to, and no other file has come or gone. -/
structure Stored (after d : Directory) (path : String) (bytes : List UInt8) : Prop where
  held : ∀ names, d.target path = .ok (.file names) → after.find path = .ok (.file bytes) ∧
    ∀ f, f.1 ≠ names → (f ∈ after.files ↔ f ∈ d.files)
  sent : ∀ v, d.target path = .ok (.device v) → d.send bytes v = (.ok (), after)

theorem storedFilled {made after : Directory} (created : d.create path = .ok made)
    (filled : made.append path bytes = (.ok (), after)) : after.Stored d path bytes := by
  refine ⟨fun names found => ?_, fun v found => ?_⟩
  · cases putOfFilled found created filled
    exact ⟨findPut found, fun f => putFile⟩
  · obtain ⟨same, sent⟩ := deviceFilled found
    cases same.symm.trans created
    exact sent.symm.trans filled

end HugePools.Directory
