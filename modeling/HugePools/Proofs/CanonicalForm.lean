import HugePools.Proofs.ListGrammar

/-! Sets of pages by where they come from. Whatever the source, a set has one list of runs and one
text. -/
namespace HugePools

inductive PageSource where
  | tokens (list : List String)
  | indices (list : List Word)
  | text (list : String)

namespace PageSource

def set : PageSource → Except QuantityError PageSet
  | .tokens list => PageSet.ofTokens list
  | .indices list => .ok (PageSet.ofIndices list)
  | .text list => PageSet.parse list

/-- The run that stands at a place of a source, by the grammar of lists where the source is text. -/
def At : PageSource → Nat → Run → Prop
  | .tokens list, place, r =>
    ∃ token, list[place]? = some token ∧ Run.Spells token.toList r.first r.last
  | .indices list, place, r =>
    ∃ index, list[place]? = some index ∧ r.first = index.val ∧ r.last = index.val
  | .text list, place, r => ∃ body, PageSet.Body list.toList body ∧ PageSet.Places body place r

def Names (source : PageSource) (r : Run) : Prop := ∃ place, source.At place r

theorem runsAt {source : PageSource} {s : PageSet} (built : source.set = .ok s) :
    ∃ runs, s = PageSet.ofRuns runs ∧ ∀ place r, source.At place r ↔ runs[place]? = some r := by
  cases source with
  | tokens list =>
    obtain ⟨runs, read, rfl⟩ := Results.mapOk.mp built
    refine ⟨runs, rfl, fun place r => ?_⟩
    rw [← Results.mapMGet read, List.getElem?_map, Option.map_eq_some_iff]
    simp only [At, Run.parseToken]
  | indices list =>
    cases built
    refine ⟨list.map Run.single, rfl, fun place r => ?_⟩
    rw [List.getElem?_map, Option.map_eq_some_iff]
    refine exists_congr fun index => and_congr_right fun _ => ⟨fun ends => ?_, fun same => ?_⟩
    · exact (Run.sameEnds ends.1 ends.2).symm
    · exact same ▸ ⟨rfl, rfl⟩
  | text list =>
    obtain ⟨body, held⟩ := PageSet.bodyFound list.toList
    obtain ⟨runs, rfl, placed⟩ := PageSet.parseRuns held built
    refine ⟨runs, rfl, fun place r => ⟨fun given => ?_, fun found => ?_⟩⟩
    · obtain ⟨other, also, stands⟩ := given
      obtain rfl := held.unique also
      exact (placed place r).mp stands
    · exact ⟨body, held, (placed place r).mpr found⟩

end PageSource

namespace PageSet

theorem ofTokensHas {tokens : List String} {s : PageSet} (built : ofTokens tokens = .ok s)
    (index : Nat) :
    s.Has index ↔ ∃ r, (∃ token ∈ tokens, Run.parse token = .ok r) ∧ r.Has index := by
  obtain ⟨runs, read, rfl⟩ := Results.mapOk.mp built
  rw [ofRunsHas]
  simp only [Run.Among, Results.mapMMem read]

theorem sourceHas {source : PageSource} {s : PageSet} (built : source.set = .ok s) (index : Nat) :
    s.Has index ↔ ∃ r, source.Names r ∧ r.Has index := by
  obtain ⟨runs, rfl, placed⟩ := PageSource.runsAt built
  rw [ofRunsHas]
  simp only [Run.Among, PageSource.Names, placed, List.mem_iff_getElem?]

theorem encodeRuns {s t : PageSet} (same : s.encode = t.encode) : s.runs = t.runs := by
  have read := s.parseEncode
  rw [same, t.parseEncode] at read
  have runs := congrArg PageSet.runs (Except.ok.inj read)
  exact runs.symm

theorem sameIndices (s t : PageSet) :
    ((∀ index, s.Has index ↔ t.Has index) ↔ s.runs = t.runs) ∧
      ((∀ index, s.Has index ↔ t.Has index) ↔ s.encode = t.encode) := by
  have held (same : s.runs = t.runs) (index : Nat) : s.Has index ↔ t.Has index := by
    unfold Has
    rw [same]
  have written (same : s.runs = t.runs) : s.encode = t.encode := by
    unfold encode
    rw [same]
  refine ⟨⟨runsUnique, held⟩, fun same => ?_, fun same => ?_⟩
  · exact written (runsUnique same)
  · exact held (encodeRuns same)

theorem gaps (s : PageSet) {k : Nat} {r t : Run} (first : s.runs[k]? = some r)
    (second : s.runs[k + 1]? = some t) : r.last + 1 < t.first := by
  obtain ⟨below, rfl⟩ := List.getElem?_eq_some_iff.mp first
  obtain ⟨next, rfl⟩ := List.getElem?_eq_some_iff.mp second
  exact List.pairwise_iff_getElem.mp s.canonical k (k + 1) below next (Nat.lt_succ_self k)

/-- The runs of a set have gaps between them and name what its source names; sets of the same
indices have the same runs and the same text, wherever they come from. -/
theorem canonicalForm :
    (∀ (source : PageSource) (s : PageSet), source.set = .ok s →
      (∀ r ∈ s.runs, r.first ≤ r.last) ∧
      (∀ k r t, s.runs[k]? = some r → s.runs[k + 1]? = some t → r.last + 1 < t.first) ∧
      ∀ index, (∃ r ∈ s.runs, r.Has index) ↔ ∃ r, source.Names r ∧ r.Has index) ∧
    ∀ (first second : PageSource) (s t : PageSet), first.set = .ok s → second.set = .ok t →
      ((∀ index, s.Has index ↔ t.Has index) ↔ s.runs = t.runs) ∧
      ((∀ index, s.Has index ↔ t.Has index) ↔ s.encode = t.encode) := by
  refine ⟨fun source s built => ?_, fun first second s t _ _ => s.sameIndices t⟩
  exact ⟨fun r _ => r.ordered, fun k r t => s.gaps, sourceHas built⟩

end PageSet

def scattered : PageSource := .tokens ["8", "3-7", "18446744073709551615", " 4 - 5"]

def adjacent : PageSource := .indices [5, 3, 4, 18446744073709551615, 8, 7, 6]

def scatteredRuns : List Run :=
  [⟨3, 8, by decide, by decide⟩, ⟨2 ^ 64 - 1, 2 ^ 64 - 1, by decide, by decide⟩]

def listed : PageSource := .text " [18446744073709551615, 5 -8,03-04] "

theorem scatteredJoined : ∃ s t u, scattered.set = .ok s ∧ adjacent.set = .ok t ∧
    listed.set = .ok u ∧ u.runs = scatteredRuns ∧ s.encode = t.encode ∧ t.encode = u.encode ∧
    (∀ index, (∃ r ∈ scatteredRuns, r.Has index) ↔ ∃ r, scattered.Names r ∧ r.Has index) ∧
    (∀ index, (∃ r ∈ scatteredRuns, r.Has index) ↔ ∃ r, listed.Names r ∧ r.Has index) ∧
    listed.Names ⟨5, 8, by decide, by decide⟩ := by
  have apart : scatteredRuns.Pairwise Run.Apart := by decide
  have first : scattered.set = .ok ⟨scatteredRuns, true, apart⟩ := by cbv
  have second : adjacent.set = .ok ⟨scatteredRuns, false, apart⟩ := by cbv
  have body : PageSet.interior (Text.trim " [18446744073709551615, 5 -8,03-04] ".toList) =
      "18446744073709551615, 5 -8,03-04".toList := by rfl
  have third : listed.set = .ok ⟨scatteredRuns, false, apart⟩ := by
    change PageSet.parse " [18446744073709551615, 5 -8,03-04] " = _
    unfold PageSet.parse
    rw [body]
    cbv
  have named : listed.Names ⟨5, 8, by decide, by decide⟩ :=
    ⟨1, _, PageSet.bodyIff.mpr body, " 5 -8".toList, by decide, Run.parseToken.mp (by rfl)⟩
  obtain ⟨formed, unique⟩ := PageSet.canonicalForm
  obtain ⟨_, texts⟩ := unique scattered adjacent _ _ first second
  obtain ⟨_, others⟩ := unique adjacent listed _ _ second third
  exact ⟨_, _, _, first, second, third, rfl, texts.mp fun _ => Iff.rfl, others.mp fun _ => Iff.rfl,
    (formed _ _ first).2.2, (formed _ _ third).2.2, named⟩

end HugePools
