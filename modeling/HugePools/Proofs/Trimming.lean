import HugePools.Proofs.BareText

/-! Blanks around a text. What is left without them is one text, however they are taken away. -/
namespace HugePools.Text

def Padded (s core : List Char) : Prop :=
  ∃ front back, (∀ c ∈ front, isBlank c = true) ∧ (∀ c ∈ back, isBlank c = true) ∧
    s = front ++ (core ++ back)

structure Trims (s core : List Char) : Prop where
  padded : Padded s core
  head : ∀ c ∈ core.head?, isBlank c = false
  last : ∀ c ∈ core.getLast?, isBlank c = false

theorem trimLeftAround (s : List Char) {c : Char} (solid : isBlank c = false) (rest : List Char) :
    trimLeft (s ++ c :: rest) = trimLeft s ++ c :: rest := by
  unfold trimLeft
  rw [List.dropWhile_append]
  split
  · rename_i none
    rw [List.isEmpty_iff.mp none, List.dropWhile_cons_of_neg (by simp [solid])]
    rfl
  · rfl

theorem trimRightAround (s : List Char) {c : Char} (solid : isBlank c = false) (rest : List Char) :
    trimRight (s ++ c :: rest) = s ++ c :: trimRight rest := by
  have turned : (s ++ c :: rest).reverse = rest.reverse ++ c :: s.reverse := by simp
  have kept := trimLeftAround rest.reverse solid s.reverse
  unfold trimLeft at kept
  unfold trimRight
  rw [turned, kept]
  simp

theorem trimAround (s : List Char) {c : Char} (solid : isBlank c = false) (rest : List Char) :
    trim (s ++ c :: rest) = trimLeft s ++ c :: trimRight rest := by
  unfold trim
  rw [trimLeftAround s solid, trimRightAround _ solid]

theorem trimRightAfter {back : List Char} (blank : ∀ c ∈ back, isBlank c = true) (s : List Char) :
    trimRight (s ++ back) = trimRight s := by
  unfold trimRight
  rw [List.reverse_append, List.dropWhile_append_of_pos]
  exact fun c mem => blank c (List.mem_reverse.mp mem)

theorem trimPadded {s core : List Char} (padded : Padded s core) : trim s = trim core := by
  obtain ⟨front, back, before, after, rfl⟩ := padded
  unfold trim trimLeft
  rw [List.dropWhile_append_of_pos before, List.dropWhile_append]
  split
  · rename_i none
    rw [List.isEmpty_iff.mp none, List.dropWhile_eq_nil_iff.mpr after]
  · exact trimRightAfter after _

theorem paddedLeft (s : List Char) : Padded s (trimLeft s) := by
  refine ⟨s.takeWhile isBlank, [], ?_, List.forall_mem_nil _, ?_⟩
  · exact fun c mem => List.mem_takeWhile_imp mem
  · rw [List.append_nil]
    exact (List.takeWhile_append_dropWhile).symm

theorem paddedRight (s : List Char) : Padded s (trimRight s) := by
  refine ⟨[], s.rtakeWhile isBlank, List.forall_mem_nil _, ?_, ?_⟩
  · exact fun c mem => List.mem_rtakeWhile_imp mem
  · exact List.rdropWhile_append_rtakeWhile.symm

theorem Padded.trans {s t core : List Char} (outer : Padded s t) (inner : Padded t core) :
    Padded s core := by
  obtain ⟨front, back, before, after, rfl⟩ := outer
  obtain ⟨more, others, first, last, rfl⟩ := inner
  refine ⟨front ++ more, others ++ back, ?_, ?_, by simp⟩
  · exact List.forall_mem_append.mpr ⟨before, first⟩
  · exact List.forall_mem_append.mpr ⟨last, after⟩

theorem Padded.absent {s core : List Char} {c : Char} (padded : Padded s core)
    (solid : isBlank c = false) (absent : c ∉ core) : c ∉ s := by
  obtain ⟨front, back, before, after, rfl⟩ := padded
  have other {blanks : List Char} (blank : ∀ d ∈ blanks, isBlank d = true) : c ∉ blanks :=
    fun mem => Bool.false_ne_true (solid.symm.trans (blank c mem))
  simp [other before, other after, absent]

theorem paddedTrim (s : List Char) : Padded s (trim s) := (paddedLeft s).trans (paddedRight _)

theorem trimsIff {s core : List Char} : Trims s core ↔ trim s = core := by
  constructor
  · intro trims
    have left : trimLeft core = core := by
      cases core with
      | nil => rfl
      | cons c rest => exact List.dropWhile_cons_of_neg (by simp [trims.head c rfl])
    have right : trimRight core = core := List.rdropWhile_eq_self_iff.mpr fun some => by
      simp [trims.last _ (List.getLast?_eq_some_getLast some)]
    rw [trimPadded trims.padded, trim, left, right]
  · rintro rfl
    refine ⟨paddedTrim s, fun c first => ?_, fun c last => ?_⟩
    · obtain ⟨more, whole⟩ : trim s <+: trimLeft s := List.rdropWhile_prefix isBlank _
      have kept : (trimLeft s).head? = Option.some c := by rw [← whole, List.head?_append, first]; rfl
      have stopped := List.head?_dropWhile_not isBlank s
      rw [← trimLeft, kept] at stopped
      exact stopped
    · obtain ⟨some, rfl⟩ := List.mem_getLast?_eq_getLast last
      exact Bool.eq_false_of_not_eq_true (List.rdropWhile_last_not isBlank (trimLeft s) some)

end HugePools.Text
