import HugePools.Proofs.TomlStrings
import HugePools.Settings

/-! The settings text read back. It is made of lines that each give one bare key a value, and such
lines are read one by one whichever of them are there, so a field comes back from its own line and
one without a line is its default. -/
namespace HugePools

namespace Toml

inductive Scalar where
  | text (s : String)
  | boolean (b : Bool)
  deriving DecidableEq, Repr

namespace Scalar

def node : Scalar → Node
  | .text s => .text s
  | .boolean b => .boolean b

def written : Scalar → List Char
  | .text s => writeString s.toList
  | .boolean b => (if b then "true" else "false").toList

end Scalar

structure BareKey (key : String) : Prop where
  some : key.toList ≠ []
  bare : ∀ c ∈ key.toList, isBareChar c = true

theorem stringMark (s : List Char) : ∃ q t, writeString s = Quote.mark q :: t := by
  unfold writeString surround
  split
  · exact ⟨_, _, rfl⟩
  · exact ⟨_, _, rfl⟩

theorem valueString {q : Quote} {t s rest : List Char}
    (read : string (q.mark :: t) = some (s, rest)) (depth : Nat) :
    value depth (q.mark :: t) = some (.text (String.ofList s), rest) := by
  cases q
  all_goals
    unfold value
    simp only [Quote.mark, List.head?_cons] at read ⊢
    rw [read]
    rfl

theorem valueRead (v : Scalar) (depth : Nat) (rest : List Char) :
    value depth (v.written ++ '\n' :: rest) = some (v.node, '\n' :: rest) := by
  cases v with
  | text s =>
    have read : string (writeString s.toList ++ '\n' :: rest) = some (s.toList, '\n' :: rest) :=
      writtenRead s.toList fun q => by cases q <;> simp [Quote.mark]
    obtain ⟨q, t, written⟩ := stringMark s.toList
    rw [written] at read
    have whole := valueString read depth
    rw [String.ofList_toList] at whole
    rw [Scalar.written, written]
    exact whole
  | boolean b => cases b <;> unfold value <;> rfl

theorem scalarKept (v : Scalar) (rest : List Char) :
    skipBlanks (' ' :: (v.written ++ rest)) = v.written ++ rest := by
  cases v with
  | text s =>
    obtain ⟨q, t, written⟩ := stringMark s.toList
    rw [Scalar.written, written]
    cases q <;> rfl
  | boolean b => cases b <;> rfl

theorem BareKey.first {key : String} (bare : BareKey key) :
    ∃ c t, key.toList = c :: t ∧ isBareChar c = true := by
  obtain ⟨c, t, whole⟩ := List.exists_cons_of_ne_nil bare.some
  exact ⟨c, t, whole, bare.bare c (whole ▸ List.mem_cons_self)⟩

theorem bareApart {c d : Char} (bare : isBareChar c = true) (special : isBareChar d = false) :
    c ≠ d := by
  rintro rfl
  exact Bool.noConfusion (bare.symm.trans special)

theorem bareKept {key : String} (bare : BareKey key) (rest : List Char) :
    skipBlanks (key.toList ++ rest) = key.toList ++ rest := by
  obtain ⟨c, t, whole, first⟩ := bare.first
  have solid : isBlank c = false := by
    simp [isBlank, bareApart first (d := ' ') (by decide), bareApart first (d := '\t') (by decide)]
  rw [whole]
  exact solidKept solid _

theorem bareRead {key : String} (bare : BareKey key) (rest : List Char) :
    simpleKey (key.toList ++ ' ' :: rest) = some (key, ' ' :: rest) := by
  obtain ⟨c, t, whole, first⟩ := bare.first
  have stop : isBareChar ' ' ≠ true := by decide
  have taken : (key.toList ++ ' ' :: rest).takeWhile isBareChar = key.toList := by
    rw [List.takeWhile_append_of_pos bare.bare, List.takeWhile_cons_of_neg stop, List.append_nil]
  have left : (key.toList ++ ' ' :: rest).dropWhile isBareChar = ' ' :: rest := by
    rw [List.dropWhile_append_of_pos bare.bare, List.dropWhile_cons_of_neg stop]
  have head : (key.toList ++ ' ' :: rest).head? = some c := by rw [whole]; rfl
  unfold simpleKey
  split
  · rename_i double
    exact absurd (Option.some.inj (head.symm.trans double)) (bareApart first (by decide))
  · rename_i single
    exact absurd (Option.some.inj (head.symm.trans single)) (bareApart first (by decide))
  · simp only [taken, left, if_neg bare.some, String.ofList_toList]

theorem keyRead {key : String} (bare : BareKey key) (limit : Nat) (rest : List Char) :
    Toml.key (limit + 1) (key.toList ++ ' ' :: '=' :: rest) = some (⟨[], key⟩, '=' :: rest) := by
  unfold Toml.key
  rw [bareKept bare, bareRead bare]
  rfl

theorem bareUnended {key : String} (bare : BareKey key) (rest : List Char) :
    lineEnd (key.toList ++ rest) = none := by
  obtain ⟨c, t, whole, first⟩ := bare.first
  unfold lineEnd
  rw [bareKept bare, whole, List.cons_append]
  split
  · contradiction
  · rename_i same
    exact absurd (List.cons.inj same).1 (bareApart first (by decide))
  · exact afterBreakNone (bareApart first (by decide)) (bareApart first (by decide)) _

theorem pairRead {key : String} (bare : BareKey key) (v : Scalar) (rest : List Char) :
    statement (Settings.entryLine key v.written ++ rest) =
      some (some (.pair ⟨[], key⟩ v.node), rest) := by
  have line : Settings.entryLine key v.written ++ rest =
      key.toList ++ ' ' :: '=' :: ' ' :: (v.written ++ '\n' :: rest) := by
    simp [Settings.entryLine]
  obtain ⟨c, t, whole, first⟩ := bare.first
  have noBracket : ∀ more tail, key.toList ++ more ≠ '[' :: tail := by
    intro more tail same
    rw [whole] at same
    exact absurd (List.cons.inj same).1 (bareApart first (by decide))
  have named := keyRead bare 78 (' ' :: (v.written ++ '\n' :: rest))
  have valued := valueRead v depthLimit rest
  rw [line]
  unfold statement
  rw [bareKept bare]
  split
  · rename_i same
    exact absurd same (noBracket _ _)
  · rename_i same
    exact absurd same (noBracket _ _)
  · rw [bareUnended bare]
    simp only [depthLimit, named, Option.bind_eq_bind, Option.bind_some, scalarKept] at valued ⊢
    rw [valued]
    rfl

def document (fields : List (String × Scalar)) : List Char :=
  fields.flatMap fun f => Settings.entryLine f.1 f.2.written

theorem statementsRead {fields : List (String × Scalar)} (bare : ∀ f ∈ fields, BareKey f.1) :
    statements (document fields) = some (fields.map fun f => .pair ⟨[], f.1⟩ f.2.node) := by
  induction fields with
  | nil =>
    unfold statements
    rfl
  | cons f fields ih =>
    obtain ⟨first, others⟩ := List.forall_mem_cons.mp bare
    have more : Settings.entryLine f.1 f.2.written ≠ [] := by simp [Settings.entryLine]
    have less : (document fields).length <
        (Settings.entryLine f.1 f.2.written ++ document fields).length := by
      rw [List.length_append]
      exact Nat.lt_add_of_pos_left (List.length_pos_of_ne_nil more)
    rw [document, List.flatMap_cons, ← document, statements,
      if_neg fun none => more (List.append_eq_nil_iff.mp none).1, pairRead first]
    simp only [less, if_true, ih others]
    rfl

theorem putFresh {entries : Entries} {key : String} (fresh : entries.get? key = none)
    (node : Node) : entries.put key node = entries ++ [(key, node)] := by
  simp [Entries.put, fresh]

theorem pairAdded {root : Entries} {key : String} (fresh : root.get? key = none) (node : Node) :
    Building.add ⟨root, []⟩ (.pair ⟨[], key⟩ node) = some ⟨root ++ [(key, node)], []⟩ := by
  have added : Entries.addPair [] key node root = some (root ++ [(key, node)]) := by
    simp [Entries.addPair, Entries.change, fresh, putFresh fresh]
  simp [Building.add, Entries.change, added]

theorem freshIff {entries : Entries} {key : String} :
    entries.get? key = none ↔ key ∉ entries.map Prod.fst := by
  simp only [Entries.get?, Option.map_eq_none_iff, List.find?_eq_none, decide_eq_true_eq,
    List.mem_map, not_exists, not_and]

theorem pairsAdded {entries root : Entries} (distinct : ((root ++ entries).map Prod.fst).Nodup) :
    (entries.map fun e => Statement.pair ⟨[], e.1⟩ e.2).foldlM Building.add ⟨root, []⟩ =
      some ⟨root ++ entries, []⟩ := by
  induction entries generalizing root with
  | nil => simp
  | cons e entries ih =>
    have fresh : root.get? e.1 = none := by
      rw [List.map_append, List.map_cons, List.nodup_middle, List.nodup_cons] at distinct
      exact freshIff.mpr fun found => distinct.1 (List.mem_append_left _ found)
    have whole : root ++ e :: entries = root ++ [e] ++ entries := by simp
    rw [List.map_cons, List.foldlM_cons, pairAdded fresh, whole]
    exact ih (whole ▸ distinct)

def nodes (fields : List (String × Scalar)) : Entries := fields.map fun f => (f.1, f.2.node)

theorem documentMark {fields : List (String × Scalar)} (bare : ∀ f ∈ fields, BareKey f.1) :
    (document fields).head? ≠ some '\uFEFF' := by
  cases fields with
  | nil => exact nofun
  | cons f fields =>
    obtain ⟨c, t, whole, first⟩ := (bare f List.mem_cons_self).first
    have head : (document (f :: fields)).head? = some c := by
      simp [document, Settings.entryLine, whole]
    rw [head]
    exact fun same => bareApart first (by decide) (Option.some.inj same)

theorem documentRead {fields : List (String × Scalar)} (bare : ∀ f ∈ fields, BareKey f.1)
    (distinct : (fields.map Prod.fst).Nodup) : parse (document fields) = some (nodes fields) := by
  have same : (nodes fields).map Prod.fst = fields.map Prod.fst := by simp [nodes]
  have unique : (([] ++ nodes fields).map Prod.fst).Nodup := by
    rw [List.nil_append, same]
    exact distinct
  have built := pairsAdded unique
  have steps : (nodes fields).map (fun e => Statement.pair ⟨[], e.1⟩ e.2) =
      fields.map fun f => .pair ⟨[], f.1⟩ f.2.node := by simp [nodes]
  rw [steps, List.nil_append] at built
  unfold parse
  simp only [if_neg (documentMark bare), statementsRead bare, Option.bind_eq_bind,
    Option.bind_some, built]
  rfl

theorem nodesWithout (fields : List (String × Scalar)) (deleted : List String) (key : String) :
    (nodes (fields.filter fun f => f.1 ∉ deleted)).get? key =
      if key ∈ deleted then none else (nodes fields).get? key := by
  induction fields with
  | nil => simp [nodes, Entries.get?]
  | cons f fields ih =>
    by_cases gone : f.1 ∈ deleted <;> by_cases same : f.1 = key <;>
      simp_all [nodes, Entries.get?]

end Toml

namespace Settings

open Toml (Scalar BareKey document documentRead nodes nodesWithout isBareChar)

def keys : List String := ["output_path", "env_var", "pad_reservation"]

/-- The settings text with the entries of some keys taken out. -/
def textWithout (s : Settings) (deleted : List String) : String :=
  let kept := (keys.zip s.entryLines).filter fun e => e.1 ∉ deleted
  String.ofList (kept.map Prod.snd).flatten

def without (s : Settings) (deleted : List String) : Settings :=
  let standard : Settings := {}
  { outputPath := if "output_path" ∈ deleted then standard.outputPath else s.outputPath
    environmentName := if "env_var" ∈ deleted then standard.environmentName else s.environmentName
    padReservation :=
      if "pad_reservation" ∈ deleted then standard.padReservation else s.padReservation }

def fields (s : Settings) : List (String × Scalar) :=
  [("output_path", .text s.outputPath), ("env_var", .text s.environmentName),
   ("pad_reservation", .boolean s.padReservation)]

theorem fieldsBare (s : Settings) : ∀ f ∈ s.fields, BareKey f.1 := by
  simp only [fields, List.forall_mem_cons]
  refine ⟨⟨?_, ?_⟩, ⟨?_, ?_⟩, ⟨?_, ?_⟩, nofun⟩ <;> simp [isBareChar]

theorem fieldsDistinct (s : Settings) : (s.fields.map Prod.fst).Nodup := by
  simp [fields]

theorem linesKeyed (s : Settings) :
    keys.zip s.entryLines = s.fields.map fun f => (f.1, entryLine f.1 f.2.written) := rfl

theorem textDocument (s : Settings) (deleted : List String) :
    (s.textWithout deleted).toList = document (s.fields.filter fun f => f.1 ∉ deleted) := by
  simp only [textWithout, linesKeyed, String.toList_ofList, List.filter_map, List.map_map, document,
    List.flatMap_def]
  rfl

theorem stringRestored {entries : Toml.Entries} {key s : String} {gone : Prop} [Decidable gone]
    (found : entries.get? key = if gone then none else some (.text s)) (standard : String) :
    stringOf entries key standard = .ok (if gone then standard else s) := by
  by_cases absent : gone <;> simp [stringOf, found, absent]

theorem booleanRestored {entries : Toml.Entries} {key : String} {b : Bool} {gone : Prop}
    [Decidable gone] (found : entries.get? key = if gone then none else some (.boolean b))
    (standard : Bool) :
    booleanOf entries key standard = .ok (if gone then standard else b) := by
  by_cases absent : gone <;> simp [booleanOf, found, absent]

theorem fieldsRestored (s : Settings) (deleted : List String) :
    ofEntries (nodes (s.fields.filter fun f => f.1 ∉ deleted)) = .ok (s.without deleted) := by
  have path := nodesWithout s.fields deleted "output_path"
  have name := nodesWithout s.fields deleted "env_var"
  have pad := nodesWithout s.fields deleted "pad_reservation"
  simp only [ofEntries, stringRestored path, stringRestored name, booleanRestored pad]
  rfl

theorem withoutRead (s : Settings) (deleted : List String) :
    parse (s.textWithout deleted) = .ok (s.without deleted) := by
  have bare : ∀ f ∈ s.fields.filter fun f => f.1 ∉ deleted, BareKey f.1 :=
    fun f kept => s.fieldsBare f (List.mem_of_mem_filter kept)
  have distinct : ((s.fields.filter fun f => f.1 ∉ deleted).map Prod.fst).Nodup :=
    s.fieldsDistinct.sublist (List.filter_sublist.map Prod.fst)
  unfold parse ofChars
  rw [textDocument, documentRead bare distinct]
  exact s.fieldsRestored deleted

/-- Settings come back from their text, and a field whose entry was taken out of it is its
default. -/
theorem textRestored (s : Settings) : parse s.text = .ok s ∧ s.textWithout [] = s.text ∧
    ∀ deleted, parse (s.textWithout deleted) = .ok (s.without deleted) := by
  have whole : s.textWithout [] = s.text := by simp [textWithout, text, keys, entryLines]
  have same : s.without [] = s := by simp [without]
  refine ⟨?_, whole, s.withoutRead⟩
  rw [← whole, s.withoutRead, same]

end Settings
end HugePools
