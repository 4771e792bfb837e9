import Mathlib.Tactic

/-!
# Lists of parts joined by a separator

A sequence is a list of parts joined by a separator exactly when each piece between
two separators is such a part, whatever the parts are, as long as no part holds the
separator itself.
-/

namespace PublicEndorsement

variable {α : Type} [DecidableEq α]

/-- The sequence is one or more parts, with one separator between two neighbours. -/
def Joined (separator : α) (Part : List α → Prop) (s : List α) : Prop :=
  ∃ parts, parts ≠ [] ∧ (∀ part ∈ parts, Part part) ∧ [separator].intercalate parts = s

theorem splitOn_cons (separator x : α) (s : List α) :
    (x :: s).splitOn separator = if x = separator then [] :: s.splitOn separator
      else (s.splitOn separator).modifyHead (x :: ·) := by
  simp [List.splitOn, List.splitOnP_cons_eq_if_modifyHead]

theorem splitOn_ne_nil (separator : α) (s : List α) : s.splitOn separator ≠ [] :=
  List.splitOnP_ne_nil _ _

/-- The pieces hold the elements of the sequence, its separators apart. -/
theorem forall_mem_splitOn (separator : α) (P : α → Prop) (s : List α) :
    (∀ part ∈ s.splitOn separator, ∀ c ∈ part, P c) ↔ ∀ c ∈ s, c ≠ separator → P c := by
  induction s with
  | nil => simp
  | cons x s ih =>
    rw [splitOn_cons]
    by_cases hx : x = separator
    · simp [hx, ih]
    · obtain ⟨first, rest, hsplit⟩ := List.exists_cons_of_ne_nil (splitOn_ne_nil separator s)
      rw [hsplit] at ih
      simp only [List.forall_mem_cons] at ih
      simp only [hx, if_false, hsplit, List.modifyHead_cons, List.forall_mem_cons, ne_eq,
        not_false_eq_true, forall_const, ← ih, and_assoc]

theorem separator_notMem_splitOn (separator : α) (s : List α) :
    ∀ part ∈ s.splitOn separator, separator ∉ part := by
  intro part hpart hmem
  exact (forall_mem_splitOn separator (· ≠ separator) s).mpr (fun _ _ hne => hne) part hpart
    separator hmem rfl

theorem joined_iff {separator : α} {Part : List α → Prop}
    (hpart : ∀ part, Part part → separator ∉ part) (s : List α) :
    Joined separator Part s ↔ ∀ part ∈ s.splitOn separator, Part part := by
  constructor
  · rintro ⟨parts, hne, hparts, rfl⟩
    rw [List.splitOn_intercalate separator (fun part h => hpart part (hparts part h)) hne]
    exact hparts
  · intro h
    exact ⟨s.splitOn separator, splitOn_ne_nil separator s, h, List.intercalate_splitOn separator⟩

omit [DecidableEq α] in
/-- An empty part at the end stands for a separator there. -/
theorem intercalate_concat_nil (separator : α) {parts : List (List α)} (hne : parts ≠ []) :
    [separator].intercalate (parts ++ [[]]) = [separator].intercalate parts ++ [separator] := by
  induction parts with
  | nil => exact absurd rfl hne
  | cons part parts ih =>
    cases parts with
    | nil => simp [List.intercalate]
    | cons next parts =>
      have ih := ih (List.cons_ne_nil next parts)
      simp only [List.cons_append, List.intercalate, List.intersperse_cons_cons,
        List.flatten_cons] at ih ⊢
      rw [ih]
      simp

/-- A sequence splits into two pieces where its only separator stands. -/
theorem splitOn_eq_pair_iff (separator : α) (s left right : List α) :
    s.splitOn separator = [left, right] ↔
      s = left ++ separator :: right ∧ separator ∉ left ∧ separator ∉ right := by
  constructor
  · intro h
    have hfree := separator_notMem_splitOn separator s
    have hs : [separator].intercalate (s.splitOn separator) = s :=
      List.intercalate_splitOn separator
    rw [h] at hfree hs
    refine ⟨?_, hfree left (by simp), hfree right (by simp)⟩
    simpa [List.intercalate] using hs.symm
  · rintro ⟨rfl, hleft, hright⟩
    have hjoin : left ++ separator :: right = [separator].intercalate [left, right] := by
      simp [List.intercalate]
    rw [hjoin]
    exact List.splitOn_intercalate separator (by simp [hleft, hright]) (by simp)

/-- The first piece is empty only at a leading separator. -/
theorem nil_mem_splitOn (separator : α) (s : List α) :
    [] ∈ s.splitOn separator ↔
      s = [] ∨ [separator] <+: s ∨ [] ∈ (s.splitOn separator).tail := by
  cases s with
  | nil => simp
  | cons x s =>
    rw [splitOn_cons]
    by_cases hx : x = separator
    · simp [hx]
    · obtain ⟨first, rest, hsplit⟩ := List.exists_cons_of_ne_nil (splitOn_ne_nil separator s)
      simp [hx, hsplit, List.cons_prefix_cons, Ne.symm hx]

theorem nil_mem_tail_splitOn (separator : α) (s : List α) :
    [] ∈ (s.splitOn separator).tail ↔ [separator] <:+ s ∨ [separator, separator] <:+: s := by
  induction s with
  | nil => simp
  | cons x s ih =>
    rw [splitOn_cons]
    have hsuffix : [separator] <:+ x :: s ↔ (x = separator ∧ s = []) ∨ [separator] <:+ s := by
      rw [List.suffix_cons_iff]
      simp [eq_comm]
    by_cases hx : x = separator
    · subst hx
      rw [if_pos rfl, List.tail_cons, nil_mem_splitOn, ih, hsuffix, List.infix_cons_iff,
        List.cons_prefix_cons]
      tauto
    · obtain ⟨first, rest, hsplit⟩ := List.exists_cons_of_ne_nil (splitOn_ne_nil separator s)
      rw [hsplit] at ih
      rw [if_neg hx, hsplit, List.modifyHead_cons, List.tail_cons, hsuffix, List.infix_cons_iff,
        List.cons_prefix_cons]
      simp only [List.tail_cons] at ih
      rw [ih]
      simp [hx, Ne.symm hx]

/-- No piece is empty: the sequence is not, and no separator stands at an end or
beside another. -/
theorem nil_notMem_splitOn_iff (separator : α) (s : List α) :
    [] ∉ s.splitOn separator ↔ s ≠ [] ∧ ¬ ([separator] <+: s ∨ [separator] <:+ s ∨
      [separator, separator] <:+: s) := by
  rw [nil_mem_splitOn, nil_mem_tail_splitOn]
  tauto

end PublicEndorsement
