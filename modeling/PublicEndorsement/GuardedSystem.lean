import Mathlib.Tactic

/-!
# Systems with guarded actions

A system offers actions, and its environment picks any of those enabled, in any
order. Carrying out an action may fail; a step that keeps an invariant and does not
fail under it gives runs that do the same.
-/

namespace PublicEndorsement

structure GuardedSystem (σ α : Type) where
  enabled : σ → α → Bool
  step : σ → α → Option σ

namespace GuardedSystem

variable {σ α : Type} (S : GuardedSystem σ α) {s : σ} {actions : List α}

def run (s : σ) : List α → Option σ
  | [] => some s
  | a :: actions => (S.step s a).bind (fun s' => run s' actions)

/-- Each action is enabled when its turn comes, as far as the run gets. -/
def schedulable (s : σ) : List α → Bool
  | [] => true
  | a :: actions => S.enabled s a && (S.step s a).all (fun s' => schedulable s' actions)

/-- An invariant of a state and the actions that led to it holds after a run, if no
enabled step of that run fails under it. -/
theorem run_invariant_of_past (Inv : List α → σ → Prop) {all : List α}
    (hstep : ∀ past s a rest, all = past ++ a :: rest → Inv past s → S.enabled s a = true →
      ∃ s', S.step s a = some s' ∧ Inv (past ++ [a]) s')
    {past : List α} (hall : all = past ++ actions) (hs : Inv past s)
    (hactions : S.schedulable s actions = true) :
    ∃ s', S.run s actions = some s' ∧ Inv all s' := by
  induction actions generalizing s past with
  | nil =>
    rw [List.append_nil] at hall
    exact ⟨s, rfl, hall ▸ hs⟩
  | cons a actions ih =>
    rw [schedulable, Bool.and_eq_true] at hactions
    obtain ⟨henabled, hrest⟩ := hactions
    obtain ⟨s₁, hone, hs₁⟩ := hstep past s a actions hall hs henabled
    rw [hone, Option.all_some] at hrest
    have hall₁ : all = past ++ [a] ++ actions := by
      rw [hall, List.append_assoc, List.singleton_append]
    obtain ⟨s', hrun, hs'⟩ := ih hall₁ hs₁ hrest
    refine ⟨s', ?_, hs'⟩
    rw [run, hone, Option.bind_some]
    exact hrun

/-- An invariant under which no enabled step fails holds after every run. -/
theorem run_invariant {Inv : σ → Prop}
    (hstep : ∀ s a, Inv s → S.enabled s a = true → ∃ s', S.step s a = some s' ∧ Inv s')
    (hs : Inv s) (hactions : S.schedulable s actions = true) :
    ∃ s', S.run s actions = some s' ∧ Inv s' :=
  S.run_invariant_of_past (fun _ => Inv) (fun _ s a _ _ => hstep s a)
    (List.nil_append actions).symm hs hactions

def restrict (guard : σ → α → Bool) : GuardedSystem σ α where
  enabled s a := S.enabled s a && guard s a
  step := S.step

theorem run_restrict (guard : σ → α → Bool) (s : σ) (actions : List α) :
    (S.restrict guard).run s actions = S.run s actions := by
  induction actions generalizing s with
  | nil => rfl
  | cons a actions ih =>
    rw [run, run]
    exact congrArg (Option.bind (S.step s a)) (funext ih)

def Reaches (s s' : σ) : Prop :=
  ∃ actions, S.schedulable s actions = true ∧ S.run s actions = some s'

theorem Reaches.step {s₁ s' : σ} {a : α} (henabled : S.enabled s a = true)
    (hstep : S.step s a = some s₁) (h : S.Reaches s₁ s') : S.Reaches s s' := by
  obtain ⟨actions, hactions, hrun⟩ := h
  refine ⟨a :: actions, ?_, ?_⟩
  · simp [schedulable, henabled, hstep, hactions]
  · rw [run, hstep, Option.bind_some, hrun]

theorem Reaches.refl (s : σ) : S.Reaches s s := ⟨[], rfl, rfl⟩

theorem Reaches.trans {s₁ s₂ s₃ : σ} (h₁ : S.Reaches s₁ s₂) (h₂ : S.Reaches s₂ s₃) :
    S.Reaches s₁ s₃ := by
  obtain ⟨actions, hactions, hrun⟩ := h₁
  induction actions generalizing s₁ with
  | nil => exact Option.some_injective _ hrun ▸ h₂
  | cons a actions ih =>
    obtain ⟨s, hstep, hrest⟩ := Option.bind_eq_some_iff.mp hrun
    rw [schedulable, hstep, Option.all_some, Bool.and_eq_true] at hactions
    exact .step S hactions.1 hstep (ih hactions.2 hrest)

/-- What every step keeps holds after a run, of which it need not be known that it could
not fail. -/
theorem invariant_of_run {Inv : σ → Prop}
    (hstep : ∀ s s' a, Inv s → S.step s a = some s' → Inv s') {s' : σ} (hs : Inv s)
    (hrun : S.run s actions = some s') : Inv s' := by
  induction actions generalizing s with
  | nil => exact Option.some_injective _ hrun ▸ hs
  | cons a actions ih =>
    obtain ⟨s₁, hone, hrest⟩ := Option.bind_eq_some_iff.mp hrun
    exact ih (hstep s s₁ a hs hone) hrest

theorem run_append (s : σ) (before after : List α) :
    S.run s (before ++ after) = (S.run s before).bind (fun s' => S.run s' after) := by
  induction before generalizing s with
  | nil => rfl
  | cons a before ih =>
    rw [List.cons_append, run, run, Option.bind_assoc]
    exact congrArg (Option.bind (S.step s a)) (funext ih)

theorem schedulable_append {before after : List α}
    (h : S.schedulable s (before ++ after) = true) :
    S.schedulable s before = true ∧
      ∀ s', S.run s before = some s' → S.schedulable s' after = true := by
  induction before generalizing s with
  | nil => exact ⟨rfl, fun s' hrun => Option.some_injective _ hrun ▸ h⟩
  | cons a before ih =>
    rw [List.cons_append, schedulable, Bool.and_eq_true] at h
    rw [schedulable, Bool.and_eq_true]
    cases hstep : S.step s a with
    | none => exact ⟨⟨h.1, rfl⟩, fun s' hrun => by rw [run, hstep] at hrun; cases hrun⟩
    | some s₁ =>
      rw [hstep, Option.all_some] at h
      obtain ⟨hbefore, hafter⟩ := ih h.2
      refine ⟨⟨h.1, hbefore⟩, fun s' hrun => hafter s' ?_⟩
      rw [run, hstep] at hrun
      exact hrun

/-- What every step keeps of a state and of the actions that led to it holds after a run. -/
theorem invariant_of_past {Inv : List α → σ → Prop}
    (hstep : ∀ past s₁ s₂ a, S.run s past = some s₁ → Inv past s₁ → S.step s₁ a = some s₂ →
      Inv (past ++ [a]) s₂)
    {s' : σ} (hs : Inv [] s) (hrun : S.run s actions = some s') : Inv actions s' := by
  induction actions using List.reverseRecOn generalizing s' with
  | nil => exact Option.some_injective _ hrun ▸ hs
  | append_singleton past a ih =>
    rw [run_append] at hrun
    obtain ⟨s₁, hpast, hlast⟩ := Option.bind_eq_some_iff.mp hrun
    obtain ⟨s₂, hone, hnil⟩ := Option.bind_eq_some_iff.mp hlast
    exact Option.some_injective _ hnil ▸ hstep past s₁ s₂ a hpast (ih hpast) hone

def EveryStep (P : σ → α → σ → Prop) (s : σ) : List α → Prop
  | [] => True
  | a :: actions => ∀ s', S.step s a = some s' → P s a s' ∧ EveryStep P s' actions

theorem everyStep_cons {P : σ → α → σ → Prop} {a : α} {s' : σ} (hstep : S.step s a = some s') :
    S.EveryStep P s (a :: actions) ↔ P s a s' ∧ S.EveryStep P s' actions := by
  constructor
  · exact fun h => h s' hstep
  · intro h s₁ hstep₁
    obtain rfl : s' = s₁ := Option.some_injective _ (hstep.symm.trans hstep₁)
    exact h

/-- Two descriptions that agree on every step under an invariant agree on runs, if the steps
they describe keep the invariant. -/
theorem everyStep_congr (Inv : σ → Prop) {P Q : σ → α → σ → Prop}
    (hstep : ∀ s s' a, Inv s → S.enabled s a = true → S.step s a = some s' →
      (P s a s' ↔ Q s a s') ∧ (P s a s' → Inv s'))
    (hs : Inv s) (hactions : S.schedulable s actions = true) :
    S.EveryStep P s actions ↔ S.EveryStep Q s actions := by
  induction actions generalizing s with
  | nil => exact Iff.rfl
  | cons a actions ih =>
    rw [schedulable, Bool.and_eq_true] at hactions
    obtain ⟨henabled, hrest⟩ := hactions
    refine forall_congr' (fun s' => forall_congr' (fun hone => ?_))
    obtain ⟨hiff, hkeeps⟩ := hstep s s' a hs henabled hone
    rw [hone, Option.all_some] at hrest
    rw [← hiff]
    exact and_congr_right (fun hP => ih (hkeeps hP) hrest)

end GuardedSystem
end PublicEndorsement
