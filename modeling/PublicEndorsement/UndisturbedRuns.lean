import PublicEndorsement.InteractionSystem

/-!
# Instances that run alone

From some moment on only one instance takes steps, and its operations are answered by a fixed
rule. Its program is finite, so it comes to its end. `Leads` says what its end is, for states of
which only a part is looked at; it has one rule for each way programs are put together.
-/

namespace PublicEndorsement.Interaction.Machine

variable {ι Op : Type} {Reply : Op → Type} {σ Choice EnvChoice τ α β ε ε' : Type}
variable (M : Machine ι Op Reply σ Choice EnvChoice) (i : ι) (answer : Op → Choice)

/-- The result and the shared state at the end of a program, unless an answer is ruled out. -/
def alone : Program Op Reply α → σ → Option (α × σ)
  | .pure a, s => some (a, s)
  | .call o next, s => (M.exec i o (answer o) s).bind (fun r => alone (next r.1) r.2)

def issued : Program Op Reply α → σ → List Op
  | .pure _, _ => []
  | .call o next, s => o :: (M.exec i o (answer o) s).elim [] (fun r => issued (next r.1) r.2)

/-- The instance starts, and all steps are its own until it is idle again. -/
def undisturbed [Inhabited Choice] (s : σ) : List (Action ι Choice EnvChoice) :=
  .start i :: (M.issued i answer (M.main i) s).map (fun o => .advance i (answer o)) ++
    [.advance i default]

variable {M i answer}

theorem alone_bind {p : Program Op Reply α} {f : α → Program Op Reply β} {s : σ} :
    M.alone i answer (p.bind f) s =
      (M.alone i answer p s).bind (fun r => M.alone i answer (f r.1) r.2) := by
  induction p generalizing s with
  | pure a => rfl
  | call o next ih =>
    change (M.exec i o (answer o) s).bind _ = ((M.exec i o (answer o) s).bind _).bind _
    rw [Option.bind_assoc]
    exact congrArg (Option.bind _) (funext fun r => ih r.1)

theorem alone_bind_of_run {p : Program Op Reply α} {f : α → Program Op Reply β} {s s' : σ} {v : α}
    (h : M.alone i answer p s = some (v, s')) :
    M.alone i answer (p.bind f) s = M.alone i answer (f v) s' := by
  rw [alone_bind, h]
  rfl

section Schedules

variable [DecidableEq ι]

theorem foldl_issued {p : Program Op Reply Unit} {c : Config ι Op Reply σ} {s' : σ}
    (hcontrol : c.control i = .running p) (h : M.alone i answer p c.shared = some ((), s')) :
    ((M.issued i answer p c.shared).map (fun o => .advance i (answer o))).foldl M.step c =
      { shared := s', control := Function.update c.control i (.running (.pure ())) } := by
  induction p generalizing c with
  | pure u =>
    cases h
    change c = _
    rw [← hcontrol, Function.update_eq_self]
  | call o next ih =>
    obtain ⟨⟨r, s⟩, hexec, hnext⟩ := Option.bind_eq_some_iff.mp h
    have hstep : M.step c (.advance i (answer o)) =
        { shared := s, control := Function.update c.control i (.running (next r)) } := by
      simp only [step, hcontrol, hexec]
    rw [issued, hexec, Option.elim_some, List.map_cons, List.foldl_cons, hstep]
    have hrest := ih r (c := { shared := s, control := Function.update c.control i _ })
      (Function.update_self ..) hnext
    rw [Function.update_idem] at hrest
    exact hrest

/-- The schedule of an undisturbed instance takes it to the end of its program. -/
theorem run_undisturbed [Inhabited Choice] {s₀ s' : σ}
    {schedule : List (Action ι Choice EnvChoice)}
    (hidle : (M.run s₀ schedule).control i = .idle)
    (h : M.alone i answer (M.main i) (M.run s₀ schedule).shared = some ((), s')) :
    M.run s₀ (schedule ++ M.undisturbed i answer (M.run s₀ schedule).shared) =
      { M.run s₀ schedule with shared := s' } := by
  set c := M.run s₀ schedule
  have hstart : M.step c (.start i) =
      { c with control := Function.update c.control i (.running (M.main i)) } := by
    simp only [step, hidle]
  have hend := foldl_issued (c := { c with
    control := Function.update c.control i (.running (M.main i)) }) (Function.update_self ..) h
  rw [run, List.foldl_append]
  change (M.undisturbed i answer c.shared).foldl M.step c = _
  rw [undisturbed, List.cons_append, List.foldl_cons, hstart, List.foldl_append, hend]
  simp only [List.foldl_cons, List.foldl_nil, step, Function.update_self, Function.update_idem]
  rw [← hidle, Function.update_eq_self]

end Schedules

variable (M i answer) in
/-- Run alone in a state of which `view` shows `a`, the program ends with the outcome `r`, and
then `view` shows `b`. -/
def Leads (view : σ → τ) (a : τ) (x : Fallible Op Reply ε α) (r : Except ε α) (b : τ) : Prop :=
  ∀ s, view s = a → ∃ s', M.alone i answer (ExceptT.run x) s = some (r, s') ∧ view s' = b

namespace Leads

variable {view : σ → τ} {a b c : τ} {x : Fallible Op Reply ε α} {f : α → Fallible Op Reply ε β}

theorem pure (v : α) :
    M.Leads i answer view a (Pure.pure v : Fallible Op Reply ε α) (.ok v) a :=
  fun s hs => ⟨s, rfl, hs⟩

theorem throw (e : ε) :
    M.Leads i answer view a (MonadExcept.throw e : Fallible Op Reply ε α) (.error e) a :=
  fun s hs => ⟨s, rfl, hs⟩

theorem ofOutcome (r : Except ε α) : M.Leads i answer view a (Fallible.ofOutcome r) r a := by
  cases r with
  | ok v => exact pure v
  | error e => exact throw e

theorem bind {v : α} {r : Except ε β} (hx : M.Leads i answer view a x (.ok v) b)
    (hf : M.Leads i answer view b (f v) r c) : M.Leads i answer view a (x >>= f) r c := by
  intro s hs
  obtain ⟨s₁, hrun, hs₁⟩ := hx s hs
  obtain ⟨s₂, hrun₂, hs₂⟩ := hf s₁ hs₁
  exact ⟨s₂, (alone_bind_of_run hrun).trans hrun₂, hs₂⟩

theorem bind_error {e : ε} (hx : M.Leads i answer view a x (.error e) b) :
    M.Leads i answer view a (x >>= f) (.error e) b := by
  intro s hs
  obtain ⟨s₁, hrun, hs₁⟩ := hx s hs
  exact ⟨s₁, alone_bind_of_run hrun, hs₁⟩

/-- Sequencing when the value does not depend on `view` alone. -/
theorem bind_any {r : Except ε β}
    (hx : ∀ s, view s = a →
      ∃ v s', M.alone i answer (ExceptT.run x) s = some (.ok v, s') ∧ view s' = b)
    (hf : ∀ v, M.Leads i answer view b (f v) r c) : M.Leads i answer view a (x >>= f) r c := by
  intro s hs
  obtain ⟨v, s₁, hrun, hs₁⟩ := hx s hs
  obtain ⟨s₂, hrun₂, hs₂⟩ := hf v s₁ hs₁
  exact ⟨s₂, (alone_bind_of_run hrun).trans hrun₂, hs₂⟩

variable {h : ε → Fallible Op Reply ε α}

theorem tryCatch_ok {v : α} (hx : M.Leads i answer view a x (.ok v) b) :
    M.Leads i answer view a (tryCatch x h) (.ok v) b := by
  intro s hs
  obtain ⟨s₁, hrun, hs₁⟩ := hx s hs
  exact ⟨s₁, alone_bind_of_run hrun, hs₁⟩

theorem tryCatch_error {e : ε} {r : Except ε α} (hx : M.Leads i answer view a x (.error e) b)
    (hh : M.Leads i answer view b (h e) r c) :
    M.Leads i answer view a (tryCatch x h) r c := by
  intro s hs
  obtain ⟨s₁, hrun, hs₁⟩ := hx s hs
  obtain ⟨s₂, hrun₂, hs₂⟩ := hh s₁ hs₁
  exact ⟨s₂, (alone_bind_of_run hrun).trans hrun₂, hs₂⟩

theorem outcome {r : Except ε α} (hx : M.Leads i answer view a x r b) :
    M.Leads i answer view a (Fallible.outcome x : Fallible Op Reply ε' _) (.ok r) b := by
  intro s hs
  obtain ⟨s₁, hrun, hs₁⟩ := hx s hs
  exact ⟨s₁, alone_bind_of_run hrun, hs₁⟩

theorem perform {o : Op} {r : Reply o}
    (h : ∀ s, view s = a → ∃ s', M.exec i o (answer o) s = some (r, s') ∧ view s' = b) :
    M.Leads i answer view a (Fallible.perform o : Fallible Op Reply ε _) (.ok r) b := by
  intro s hs
  obtain ⟨s₁, hexec, hs₁⟩ := h s hs
  refine ⟨s₁, ?_, hs₁⟩
  change (M.exec i o (answer o) s).bind _ = _
  rw [hexec]
  rfl

end Leads
end PublicEndorsement.Interaction.Machine
