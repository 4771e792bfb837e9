import Mathlib.Tactic

/-!
# Chains of linked nodes

A chain is given by a function from each node to the next one. `Linked next p l`
says that following it from `p` visits exactly the nodes of `l` and then stops.
-/

namespace PublicEndorsement

variable {α : Type} {next next' : α → Option α} {p : Option α} {l : List α}

def Linked (next : α → Option α) : Option α → List α → Prop
  | p, [] => p = none
  | p, a :: l => p = some a ∧ Linked next (next a) l

namespace Linked

theorem head?_eq (h : Linked next p l) : p = l.head? := by
  cases l with
  | nil => exact h
  | cons a l => exact h.1

/-- Only the links of the visited nodes matter. -/
theorem congr (h : Linked next p l) (hnext : ∀ a ∈ l, next' a = next a) : Linked next' p l := by
  induction l generalizing p with
  | nil => exact h
  | cons a l ih =>
    obtain ⟨hp, hrest⟩ := h
    have ha : next' a = next a := hnext a List.mem_cons_self
    refine ⟨hp, ?_⟩
    rw [ha]
    exact ih hrest (fun b hb => hnext b (List.mem_cons_of_mem a hb))

/-- Every suffix of a chain is a chain. -/
theorem suffix {l r : List α} (h : Linked next p (l ++ r)) : Linked next r.head? r := by
  induction l generalizing p with
  | nil =>
    have hp : p = r.head? := h.head?_eq
    rw [← hp]
    exact h
  | cons a l ih => exact ih h.2

theorem next_eq {l r : List α} {a : α} (h : Linked next p (l ++ a :: r)) :
    next a = r.head? := h.suffix.2.head?_eq

/-- A node hung behind the last one extends the chain. -/
theorem snoc {a b : α} (h : Linked next p (l ++ [a])) (hold : ∀ x ∈ l, next' x = next x)
    (ha : next' a = some b) (hb : next' b = none) : Linked next' p (l ++ [a] ++ [b]) := by
  induction l generalizing p with
  | nil => exact ⟨h.1, ha, hb⟩
  | cons x l ih =>
    obtain ⟨hp, hrest⟩ := h
    have hx : next' x = next x := hold x List.mem_cons_self
    refine ⟨hp, ?_⟩
    rw [hx]
    exact ih hrest (fun y hy => hold y (List.mem_cons_of_mem x hy))

end Linked
end PublicEndorsement
