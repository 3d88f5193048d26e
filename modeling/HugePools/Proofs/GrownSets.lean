import HugePools.Proofs.DecodedSets
import HugePools.Proofs.Lookup

/-! Sets of pages that grow. In which order the texts of runs come, and in how many steps, does not
show in the runs of the set. -/
namespace HugePools

namespace Run

theorem beforeAntisymm {r s : Run} (first : r.before s = true) (second : s.before r = true) :
    r = s := by
  simp only [before, Bool.or_eq_true, Bool.and_eq_true, decide_eq_true_eq] at first second
  exact sameEnds (by omega) (by omega)

theorem sortedPerm {runs others : List Run} (perm : runs.Perm others) :
    runs.mergeSort before = others.mergeSort before := by
  have sorted (list : List Run) := List.pairwise_mergeSort beforeTrans beforeTotal list
  have same : (runs.mergeSort before).Perm (others.mergeSort before) :=
    (List.mergeSort_perm runs _).trans (perm.trans (List.mergeSort_perm others _).symm)
  exact same.eq_of_pairwise (fun _ _ _ _ => beforeAntisymm) (sorted runs) (sorted others)

end Run

namespace PageSet

theorem ofRunsPerm {runs others : List Run} (perm : runs.Perm others) :
    ofRuns runs = ofRuns others := by
  unfold ofRuns
  simp only [Run.sortedPerm perm]

theorem ofTokensPerm {tokens others : List String} (perm : tokens.Perm others) {s : PageSet}
    (built : ofTokens others = .ok s) : ofTokens tokens = .ok s := by
  obtain ⟨runs, read, rfl⟩ := Results.mapOk.mp built
  obtain ⟨given, parsed, same⟩ := Results.mapMPerm perm read
  exact Results.mapOk.mpr ⟨given, parsed, ofRunsPerm same⟩

theorem ofTokensDone {tokens : List String} :
    (∃ s, ofTokens tokens = .ok s) ↔ ∀ token ∈ tokens, ∃ r, Run.parse token = .ok r :=
  Results.mapDone.trans Results.mapMDone

theorem ofTokensUnion {tokens more : List String} {s t u : PageSet} (first : ofTokens tokens = .ok s)
    (second : ofTokens more = .ok t) (both : ofTokens (tokens ++ more) = .ok u) (index : Nat) :
    u.Has index ↔ s.Has index ∨ t.Has index := by
  rw [ofTokensHas first, ofTokensHas second, ofTokensHas both]
  simp only [List.mem_append, or_and_right, exists_or]

def feed (s : PageSet) (batch : List String) : Except QuantityError PageSet :=
  ofTokens (s.runs.map Run.text ++ batch)

def grow (tokens : List String) (batches : List (List String)) : Except QuantityError PageSet := do
  let s ← ofTokens tokens
  batches.foldlM feed s

theorem tokensAppend (tokens more : List String) : (tokens ++ more).mapM Run.parse =
    tokens.mapM Run.parse >>= fun runs => (more.mapM Run.parse).map (runs ++ ·) := by
  rw [List.mapM_append]
  refine bind_congr fun runs => ?_
  cases more.mapM Run.parse <;> rfl

theorem feedReads (s : PageSet) (batch : List String) :
    feed s batch = (batch.mapM Run.parse).map fun more => ofRuns (s.runs ++ more) := by
  have own : (s.runs.map Run.text).mapM Run.parse = .ok s.runs := by
    have read := textsRead s.runs
    rwa [List.map_map] at read
  unfold feed ofTokens
  rw [tokensAppend, own]
  cases batch.mapM Run.parse <;> rfl

theorem joinedAgain {s : PageSet} {given : List Run} (same : s.runs = (ofRuns given).runs)
    (more : List Run) : (ofRuns (s.runs ++ more)).runs = (ofRuns (given ++ more)).runs := by
  refine runsUnique fun index => ?_
  rw [ofRunsHas, ofRunsHas, Run.amongAppend, Run.amongAppend, ← ofRunsHas given, same]
  rfl

theorem growFrom {s : PageSet} {tokens : List String} {given : List Run}
    (read : tokens.mapM Run.parse = .ok given) (same : s.runs = (ofRuns given).runs)
    (batches : List (List String)) : (batches.foldlM feed s).map runs =
      (ofTokens (tokens ++ batches.flatten)).map runs := by
  -- By induction on the batches, with all the texts so far and what was read of them in view.
  induction batches generalizing s tokens given with
  | nil =>
    rw [List.flatten_nil, List.append_nil, ofTokens, read]
    exact congrArg Except.ok same
  | cons batch rest ih =>
    have sofar := tokensAppend tokens batch
    rw [read] at sofar
    rw [List.foldlM_cons, feedReads, List.flatten_cons, ← List.append_assoc]
    cases parsed : batch.mapM Run.parse with
    | error fault =>
      rw [parsed] at sofar
      unfold ofTokens
      rw [tokensAppend, sofar]
      rfl
    | ok more =>
      rw [parsed] at sofar
      exact ih sofar (joinedAgain same more)

theorem growAlike (tokens : List String) (batches : List (List String)) :
    (grow tokens batches).map runs = (ofTokens (tokens ++ batches.flatten)).map runs := by
  cases read : tokens.mapM Run.parse with
  | error fault =>
    unfold grow ofTokens
    rw [tokensAppend, read]
    rfl
  | ok given =>
    have whole := growFrom read rfl batches
    unfold grow
    rw [ofTokens, read]
    exact whole

/-- Texts of runs make a set together exactly if they do so in parts, and then the union; in any
order they make the same set or none; and a set that is written out and read in again with more
texts, however often, has the runs of all the texts at once. -/
theorem builtInAnyOrder :
    (∀ tokens more, ((∃ s, ofTokens (tokens ++ more) = .ok s) ↔
        (∃ s, ofTokens tokens = .ok s) ∧ ∃ s, ofTokens more = .ok s) ∧
      ∀ s t u, ofTokens tokens = .ok s → ofTokens more = .ok t →
        ofTokens (tokens ++ more) = .ok u → ∀ index, u.Has index ↔ s.Has index ∨ t.Has index) ∧
    (∀ tokens others : List String, tokens.Perm others →
      ∀ s, ofTokens tokens = .ok s ↔ ofTokens others = .ok s) ∧
    ∀ tokens batches, (grow tokens batches).map runs =
      (ofTokens (tokens ++ batches.flatten)).map runs := by
  refine ⟨fun tokens more => ⟨?_, fun s t u => ofTokensUnion⟩, fun tokens others perm s => ?_,
    growAlike⟩
  · simp only [ofTokensDone, List.forall_mem_append]
  · exact ⟨ofTokensPerm perm.symm, ofTokensPerm perm⟩

end PageSet

def outerRuns : List String := ["4-5", "0"]

def innerRuns : List String := [" 1 - 3", "6-18446744073709551615"]

def wholeSet : PageSet where
  runs := [Run.whole]
  duplicates := false
  canonical := List.pairwise_singleton _ _

theorem wholeGrown :
    (∃ s t, PageSet.ofTokens outerRuns = .ok s ∧ PageSet.ofTokens innerRuns = .ok t ∧
      PageSet.ofTokens (innerRuns ++ outerRuns) = .ok wholeSet ∧
      ∀ index, wholeSet.Has index ↔ s.Has index ∨ t.Has index) ∧
    ∃ s, PageSet.grow outerRuns [["7", "4"], [], innerRuns] = .ok s ∧ s.runs = wholeSet.runs := by
  obtain ⟨union, order, steps⟩ := PageSet.builtInAnyOrder
  obtain ⟨done, joined⟩ := union outerRuns innerRuns
  have whole : PageSet.ofTokens (outerRuns ++ innerRuns) = .ok wholeSet := by cbv
  have more : PageSet.ofTokens (outerRuns ++ ["7", "4", " 1 - 3", "6-18446744073709551615"]) =
      .ok { wholeSet with duplicates := true } := by cbv
  obtain ⟨⟨s, first⟩, ⟨t, second⟩⟩ := done.mp ⟨_, whole⟩
  have turned := (order _ (innerRuns ++ outerRuns) List.perm_append_comm _).mp whole
  have grown := steps outerRuns [["7", "4"], [], innerRuns]
  obtain ⟨u, built, runs⟩ := Results.mapOk.mp (grown.trans (congrArg (·.map PageSet.runs) more))
  exact ⟨⟨s, t, first, second, turned, joined s t _ first second whole⟩, u, built, runs⟩

end HugePools
