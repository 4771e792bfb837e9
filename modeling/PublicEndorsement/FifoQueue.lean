import Mathlib.Tactic

/-!
# A queue with reservations and views

A first-in first-out queue whose producer first reserves slots, fills them in any
order and then commits a prefix of them, and whose consumer looks at the contents
and then drains a prefix of what was seen. At most one reservation and one view are
outstanding; each is undisturbed by the other.
-/

namespace PublicEndorsement

/-- `reservation` is what the reserved slots hold, `view` what is seen through the
outstanding view. -/
@[ext] structure FifoQueue (α : Type) where
  contents : List α
  reservation : Option (List α)
  view : Option (List α)

inductive FifoCall (α : Type) where
  | reserve (n : ℕ)
  | reserveAtLeast (n : ℕ)
  | write (i : ℕ) (x : α)
  | commit (k : ℕ)
  | peek
  | drain (k : ℕ)
  | copyIn (xs : List α)
  | copyOut (discard : Bool) (n : ℕ)

structure FifoResult (α : Type) where
  items : List α := []
  size : ℕ := 0

namespace FifoQueue

variable {α : Type}

def empty : FifoQueue α := ⟨[], none, none⟩

/-- The calls a disciplined user may make. -/
def permits (q : FifoQueue α) : FifoCall α → Bool
  | .reserve n => q.reservation.isNone && decide (1 ≤ n)
  | .reserveAtLeast n => q.reservation.isNone && decide (1 ≤ n)
  | .write i _ => q.reservation.any (fun region => i < region.length)
  | .commit k => q.reservation.any (fun region => k ≤ region.length)
  | .peek => q.view.isNone
  | .drain k => q.view.any (fun seen => k ≤ seen.length)
  | .copyIn xs => q.reservation.isNone && !xs.isEmpty
  | .copyOut _ _ => q.view.isNone

/-- What the calls do. Fresh slots may hold anything, and a reservation of at least a
given size may be larger. -/
inductive Step (q : FifoQueue α) : FifoCall α → FifoResult α → FifoQueue α → Prop
  | reserve {n : ℕ} {region : List α} (hlen : region.length = n) :
    Step q (.reserve n) { size := n } { q with reservation := some region }
  | reserveAtLeast {n : ℕ} {region : List α} (hlen : n ≤ region.length) :
    Step q (.reserveAtLeast n) { size := region.length } { q with reservation := some region }
  | write {i : ℕ} {x : α} {region : List α} (hregion : q.reservation = some region) :
    Step q (.write i x) {} { q with reservation := some (region.set i x) }
  | commit {k : ℕ} {region : List α} (hregion : q.reservation = some region) :
    Step q (.commit k) {} { q with contents := q.contents ++ region.take k, reservation := none }
  | peek : Step q .peek ⟨q.contents, q.contents.length⟩ { q with view := some q.contents }
  | drain {k : ℕ} : Step q (.drain k) {} { q with contents := q.contents.drop k, view := none }
  | copyIn {xs : List α} : Step q (.copyIn xs) {} { q with contents := q.contents ++ xs }
  | copyOut {discard : Bool} {n : ℕ} :
    Step q (.copyOut discard n)
      ⟨if discard then [] else q.contents.take n, min n q.contents.length⟩
      { q with contents := q.contents.drop n }

namespace Step

variable {q q' : FifoQueue α} {result : FifoResult α}

theorem reserveAtLeast_inv {n : ℕ} (h : q.Step (.reserveAtLeast n) result q') :
    ∃ region, n ≤ region.length ∧ q' = { q with reservation := some region } := by
  cases h with
  | reserveAtLeast hlen => exact ⟨_, hlen, rfl⟩

theorem commit_inv {k : ℕ} (h : q.Step (.commit k) result q') :
    ∃ region, q.reservation = some region ∧
      q' = { q with contents := q.contents ++ region.take k, reservation := none } := by
  cases h with
  | commit hregion => exact ⟨_, hregion, rfl⟩

theorem peek_inv (h : q.Step .peek result q') :
    result.items = q.contents ∧ q' = { q with view := some q.contents } := by
  cases h with
  | peek => exact ⟨rfl, rfl⟩

theorem drain_inv {k : ℕ} (h : q.Step (.drain k) result q') :
    q' = { q with contents := q.contents.drop k, view := none } := by
  cases h with
  | drain => rfl

theorem copyOut_inv {discard : Bool} {n : ℕ} (h : q.Step (.copyOut discard n) result q') :
    result.items = (if discard then [] else q.contents.take n) ∧
      result.size = min n q.contents.length ∧ q' = { q with contents := q.contents.drop n } := by
  cases h with
  | copyOut => exact ⟨rfl, rfl, rfl⟩

end Step

inductive Run : FifoQueue α → List (FifoCall α × FifoResult α) → FifoQueue α → Prop
  | nil {q : FifoQueue α} : Run q [] q
  | cons {q q' q'' : FifoQueue α} {call : FifoCall α} {result : FifoResult α}
    {trace : List (FifoCall α × FifoResult α)} (hpermits : q.permits call = true)
    (hstep : Step q call result q') (hrun : Run q' trace q'') :
    Run q ((call, result) :: trace) q''

end FifoQueue
end PublicEndorsement
