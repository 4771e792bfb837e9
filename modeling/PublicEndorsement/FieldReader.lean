import Mathlib.Tactic

/-!
# Readers that take one field at a time

A reader waits until the field it is at has arrived in full, takes it from the front of
what is pending, and goes on with the next one until it is done. How the input was cut
into pieces does not show in where it ends up.
-/

namespace PublicEndorsement

/-- `need` is the length of the field the reader is at; a reader that is `done` takes no
further field. -/
structure FieldReader (σ α : Type) where
  done : σ → Bool
  need : σ → ℕ
  step : σ → List α → σ
  rank : σ → ℕ
  rank_step : ∀ s field, ¬ done s → rank (step s field) < rank s

namespace FieldReader

variable {σ α : Type} (R : FieldReader σ α) {s : σ} {pending : List α}

def drive (s : σ) (pending : List α) : σ × List α :=
  if h : R.done s then (s, pending)
  else if pending.length < R.need s then (s, pending)
  else
    have := R.rank_step s (pending.take (R.need s)) h
    drive (R.step s (pending.take (R.need s))) (pending.drop (R.need s))
termination_by R.rank s

theorem drive_of_done (h : R.done s) : R.drive s pending = (s, pending) := by
  rw [drive, dif_pos h]

theorem drive_of_short (h : pending.length < R.need s) : R.drive s pending = (s, pending) := by
  rw [drive]
  split <;> rfl

theorem drive_of_enough (hdone : ¬ R.done s) (h : R.need s ≤ pending.length) :
    R.drive s pending =
      R.drive (R.step s (pending.take (R.need s))) (pending.drop (R.need s)) := by
  rw [drive, dif_neg hdone, if_neg (Nat.not_lt.mpr h)]

/-- A field that stands at the front is the one taken. -/
theorem drive_field (hdone : ¬ R.done s) (field rest : List α) (h : R.need s = field.length) :
    R.drive s (field ++ rest) = R.drive (R.step s field) rest := by
  rw [R.drive_of_enough hdone (by simp [h]), h, List.take_left, List.drop_left]

/-- Input that arrives later is read as if it had been there from the start. -/
theorem drive_append (s : σ) (pending more : List α) :
    R.drive (R.drive s pending).1 ((R.drive s pending).2 ++ more) =
      R.drive s (pending ++ more) := by
  induction s, pending using drive.induct R with
  | case1 s pending hdone => rw [R.drive_of_done hdone]
  | case2 s pending hdone hshort => rw [R.drive_of_short hshort]
  | case3 s pending hdone hshort hrank ih =>
    have hle : R.need s ≤ pending.length := Nat.not_lt.mp hshort
    have happend : R.need s ≤ (pending ++ more).length := by
      rw [List.length_append]
      omega
    rw [R.drive_of_enough hdone hle, R.drive_of_enough hdone happend, ih,
      List.take_append_of_le_length hle, List.drop_append_of_le_length hle]

/-- A reader stops when it is done or when the next field is not all there. -/
theorem drive_stops (s : σ) (pending : List α) :
    R.done (R.drive s pending).1 ∨
      (R.drive s pending).2.length < R.need (R.drive s pending).1 := by
  induction s, pending using drive.induct R with
  | case1 s pending hdone =>
    rw [R.drive_of_done hdone]
    exact .inl hdone
  | case2 s pending hdone hshort =>
    rw [R.drive_of_short hshort]
    exact .inr hshort
  | case3 s pending hdone hshort hrank ih =>
    rw [R.drive_of_enough hdone (Nat.not_lt.mp hshort)]
    exact ih

end FieldReader
end PublicEndorsement
