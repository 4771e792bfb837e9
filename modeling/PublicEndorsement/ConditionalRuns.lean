import PublicEndorsement.RelyGuarantee

/-!
# Runs whose steps meet a condition

A condition on steps looks at the configuration before the step. Two kinds occur:
the answers an operation may have, which are an assumption about the parts that are
not modelled, and the moments at which the environment may act. Safety of the
programs is proved over the machine that has the admitted answers only; it carries
over to every run of the whole machine whose steps meet the condition.
-/

namespace PublicEndorsement.Interaction

variable {ι Op : Type} {Reply : Op → Type} {σ Choice EnvChoice : Type} [DecidableEq ι]

namespace Machine

variable (M : Machine ι Op Reply σ Choice EnvChoice)
variable {Ok Ok' : Config ι Op Reply σ → Action ι Choice EnvChoice → Prop}

def Along (Ok : Config ι Op Reply σ → Action ι Choice EnvChoice → Prop) :
    Config ι Op Reply σ → List (Action ι Choice EnvChoice) → Prop
  | _, [] => True
  | c, a :: schedule => Ok c a ∧ Along Ok (M.step c a) schedule

instance decidableAlong [∀ c a, Decidable (Ok c a)] :
    ∀ (schedule : List (Action ι Choice EnvChoice)) (c : Config ι Op Reply σ),
      Decidable (M.Along Ok c schedule)
  | [], _ => isTrue trivial
  | a :: schedule, c =>
    have := decidableAlong schedule (M.step c a)
    inferInstanceAs (Decidable (Ok c a ∧ M.Along Ok (M.step c a) schedule))

variable {M}

theorem Along.and {schedule : List (Action ι Choice EnvChoice)} {c : Config ι Op Reply σ}
    (h : M.Along Ok c schedule) (h' : M.Along Ok' c schedule) :
    M.Along (fun c a => Ok c a ∧ Ok' c a) c schedule := by
  induction schedule generalizing c with
  | nil => trivial
  | cons a schedule ih => exact ⟨⟨h.1, h'.1⟩, ih h.2 h'.2⟩

theorem Along.mono {schedule : List (Action ι Choice EnvChoice)} {c : Config ι Op Reply σ}
    (h : M.Along Ok c schedule) (himp : ∀ c a, Ok c a → Ok' c a) : M.Along Ok' c schedule := by
  induction schedule generalizing c with
  | nil => trivial
  | cons a schedule ih => exact ⟨himp c a h.1, ih h.2⟩

/-- The induction rule for runs whose steps meet a condition. -/
theorem run_induction_along {motive : Config ι Op Reply σ → Prop} (s : σ)
    (hinit : motive (initial s)) (hstep : ∀ c a, Ok c a → motive c → motive (M.step c a))
    (schedule : List (Action ι Choice EnvChoice)) (h : M.Along Ok (initial s) schedule) :
    motive (M.run s schedule) := by
  unfold run
  generalize initial s = c at hinit h
  induction schedule generalizing c with
  | nil => exact hinit
  | cons a schedule ih => exact ih (M.step c a) (hstep c a h.1 hinit) h.2

variable (M)

open Classical in
/-- The machine whose operations have only the answers that `A` admits. -/
noncomputable def restrict (A : ι → (o : Op) → Choice → σ → Prop) :
    Machine ι Op Reply σ Choice EnvChoice :=
  { M with exec := fun i o choice s => if A i o choice s then M.exec i o choice s else none }

def Admits (A : ι → (o : Op) → Choice → σ → Prop) (c : Config ι Op Reply σ) :
    Action ι Choice EnvChoice → Prop
  | .advance i choice =>
    match c.control i with
    | .running (.call o _) => A i o choice c.shared
    | _ => True
  | _ => True

variable {M} {A : ι → (o : Op) → Choice → σ → Prop}

instance decidableAdmits [∀ i o choice s, Decidable (A i o choice s)] (c : Config ι Op Reply σ) :
    ∀ a : Action ι Choice EnvChoice, Decidable (Admits A c a)
  | .advance i choice =>
    match hc : c.control i with
    | .running (.call o _) => decidable_of_iff (A i o choice c.shared) (by simp [Admits, hc])
    | .running (.pure _) => isTrue (by simp [Admits, hc])
    | .idle => isTrue (by simp [Admits, hc])
    | .crashed => isTrue (by simp [Admits, hc])
  | .start _ => isTrue trivial
  | .crash _ => isTrue trivial
  | .env _ => isTrue trivial

omit [DecidableEq ι] in
theorem Admits.mono {A' : ι → (o : Op) → Choice → σ → Prop} {c : Config ι Op Reply σ}
    {a : Action ι Choice EnvChoice} (h : Admits A c a)
    (himp : ∀ i o choice s, A i o choice s → A' i o choice s) : Admits A' c a := by
  cases a with
  | advance i choice =>
    simp only [Admits] at h ⊢
    split at h <;> simp_all
  | _ => trivial

omit [DecidableEq ι] in
theorem exec_restrict {i : ι} {o : Op} {choice : Choice} {s : σ} {result : Reply o × σ}
    (h : (M.restrict A).exec i o choice s = some result) :
    A i o choice s ∧ M.exec i o choice s = some result := by
  simp only [restrict] at h
  split_ifs at h with hA
  exact ⟨hA, h⟩

theorem step_restrict {c : Config ι Op Reply σ} {a : Action ι Choice EnvChoice}
    (h : Admits A c a) : (M.restrict A).step c a = M.step c a := by
  cases a with
  | advance i choice =>
    simp only [step, Admits] at h ⊢
    split
    · rename_i o next hcontrol
      rw [hcontrol] at h
      simp only [restrict, if_pos h]
    · rfl
    · rfl
  | start i => rfl
  | crash i => rfl
  | env e => rfl

/-- The parallel composition rule for conditional runs. The environment has to
respect the running instances whenever it acts under the condition. -/
theorem run_safe_along {R : Protocol ι σ} (s₀ : σ) (hinit : R.inv s₀)
    (hmain : ∀ i, (M.restrict A).Triple R i (fun _ => True) (M.main i) (fun _ _ => True))
    (henv : ∀ c e s, Ok c (.env e) → R.inv c.shared → M.env e c.shared = some s →
      R.inv s ∧ ∀ j p, c.control j = .running p → R.rely j c.shared s)
    (schedule : List (Action ι Choice EnvChoice))
    (hanswers : M.Along (Admits A) (initial s₀) schedule)
    (hok : M.Along Ok (initial s₀) schedule) : R.inv (M.run s₀ schedule).shared := by
  have h : (M.restrict A).AllSafe R (M.run s₀ schedule) := by
    refine run_induction_along s₀ ⟨hinit, fun i p hp => by cases hp⟩ (fun c a hca hc => ?_)
      schedule (hanswers.and hok)
    rw [← step_restrict hca.1]
    refine hc.step hmain a (fun e s ha he => ?_)
    subst ha
    exact henv c e s hca.2 hc.1 he
  exact h.1

end Machine
end PublicEndorsement.Interaction
