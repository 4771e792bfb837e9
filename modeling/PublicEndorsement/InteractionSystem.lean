import PublicEndorsement.InteractionProgram

/-!
# Many instances running programs over one shared state

Every instance runs the same kind of program again and again. A schedule picks
whose turn it is and resolves every choice the shared state leaves open, so the
runs of a system are exactly its schedules. Instances may crash at any point and
the environment may take steps of its own.
-/

namespace PublicEndorsement.Interaction

/-- `exec i o choice s` is what operation `o` of instance `i` does to the shared
state `s` when open choices are resolved by `choice`; `none` rules the choice out. -/
structure Machine (ι Op : Type) (Reply : Op → Type) (σ Choice EnvChoice : Type) where
  exec : ι → (o : Op) → Choice → σ → Option (Reply o × σ)
  env : EnvChoice → σ → Option σ
  main : ι → Program Op Reply Unit

inductive Control (Op : Type) (Reply : Op → Type) where
  | idle
  | running (p : Program Op Reply Unit)
  | crashed

structure Config (ι Op : Type) (Reply : Op → Type) (σ : Type) where
  shared : σ
  control : ι → Control Op Reply

inductive Action (ι Choice EnvChoice : Type) where
  | start (i : ι)
  | advance (i : ι) (choice : Choice)
  | crash (i : ι)
  | env (e : EnvChoice)

variable {ι Op : Type} {Reply : Op → Type} {σ Choice EnvChoice : Type} [DecidableEq ι]

namespace Machine

variable (M : Machine ι Op Reply σ Choice EnvChoice)

/-- One atomic step. An action that is not enabled leaves the system as it is. -/
def step (c : Config ι Op Reply σ) : Action ι Choice EnvChoice → Config ι Op Reply σ
  | .start i =>
    match c.control i with
    | .idle => { c with control := Function.update c.control i (.running (M.main i)) }
    | _ => c
  | .advance i choice =>
    match c.control i with
    | .running (.call o next) =>
      match M.exec i o choice c.shared with
      | some (r, s) =>
        { shared := s, control := Function.update c.control i (.running (next r)) }
      | none => c
    | .running (.pure _) => { c with control := Function.update c.control i .idle }
    | _ => c
  | .crash i => { c with control := Function.update c.control i .crashed }
  | .env e =>
    match M.env e c.shared with
    | some s => { c with shared := s }
    | none => c

def initial (s : σ) : Config ι Op Reply σ := { shared := s, control := fun _ => .idle }

def run (s : σ) (schedule : List (Action ι Choice EnvChoice)) : Config ι Op Reply σ :=
  schedule.foldl M.step (initial s)

/-- The induction rule for runs: what holds at the start and survives every step
holds after every schedule. -/
theorem run_induction {motive : Config ι Op Reply σ → Prop} (s : σ)
    (hinit : motive (initial s)) (hstep : ∀ c a, motive c → motive (M.step c a))
    (schedule : List (Action ι Choice EnvChoice)) : motive (M.run s schedule) := by
  unfold run
  generalize initial s = c at hinit
  induction schedule generalizing c with
  | nil => exact hinit
  | cons a schedule ih => exact ih (M.step c a) (hstep c a hinit)

end Machine
end PublicEndorsement.Interaction
