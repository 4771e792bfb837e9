import PublicEndorsement.InteractionProgram

/-!
# Programs in an environment that may reply anything

An environment is not bound to any law: its reply may depend on everything that has
happened so far. A program run in it leaves a history of exchanges. `Emits` speaks about
what a program adds to the history together with its result, in every environment and
from every history, and has one rule for each way programs are put together.

A program can also be read in terms of other operations, by giving a program for each of
its own; this respects sequencing and exceptions.
-/

namespace PublicEndorsement.Interaction

variable {Op Op' : Type} {Reply : Op → Type} {Reply' : Op' → Type} {α β ε : Type}

structure Exchange (Op : Type) (Reply : Op → Type) where
  op : Op
  reply : Reply op

abbrev Environment (Op : Type) (Reply : Op → Type) :=
  List (Exchange Op Reply) → (o : Op) → Reply o

namespace Program

def run (env : Environment Op Reply) :
    Program Op Reply α → List (Exchange Op Reply) → α × List (Exchange Op Reply)
  | .pure a, history => (a, history)
  | .call o next, history =>
    (next (env history o)).run env (history ++ [⟨o, env history o⟩])

theorem run_bind (env : Environment Op Reply) (p : Program Op Reply α)
    (f : α → Program Op Reply β) (history : List (Exchange Op Reply)) :
    (p.bind f).run env history = (f (p.run env history).1).run env (p.run env history).2 := by
  induction p generalizing history with
  | pure a => rfl
  | call o next ih => exact ih _ _

/-- What the program adds to the history, and its result, satisfy `Q`. -/
def Emits (p : Program Op Reply α) (Q : α → List (Exchange Op Reply) → Prop) : Prop :=
  ∀ env history, ∃ added, (p.run env history).2 = history ++ added ∧
    Q (p.run env history).1 added

theorem Emits.pure {a : α} {Q : α → List (Exchange Op Reply) → Prop} (h : Q a []) :
    Emits (.pure a : Program Op Reply α) Q :=
  fun _ _ => ⟨[], (List.append_nil _).symm, h⟩

theorem Emits.perform {o : Op} {Q : Reply o → List (Exchange Op Reply) → Prop}
    (h : ∀ r, Q r [⟨o, r⟩]) : Emits (Interaction.perform o) Q :=
  fun env history => ⟨[⟨o, env history o⟩], rfl, h _⟩

theorem Emits.bind {p : Program Op Reply α} {f : α → Program Op Reply β}
    {K : α → List (Exchange Op Reply) → Prop} {Q : β → List (Exchange Op Reply) → Prop}
    (hp : Emits p K) (hf : ∀ a added, K a added → Emits (f a) (fun b more => Q b (added ++ more))) :
    Emits (p.bind f) Q := by
  intro env history
  obtain ⟨added, hadded, hK⟩ := hp env history
  obtain ⟨more, hmore, hQ⟩ := hf _ _ hK env (p.run env history).2
  refine ⟨added ++ more, ?_, ?_⟩
  · rw [run_bind, hmore, hadded, List.append_assoc]
  · rw [run_bind]
    exact hQ

theorem Emits.mono {p : Program Op Reply α} {Q Q' : α → List (Exchange Op Reply) → Prop}
    (h : Emits p Q) (hQ : ∀ a added, Q a added → Q' a added) : Emits p Q' := by
  intro env history
  obtain ⟨added, hadded, hq⟩ := h env history
  exact ⟨added, hadded, hQ _ _ hq⟩

/-- The program with each of its operations replaced by a program. -/
def interpret (handler : (o : Op) → Program Op' Reply' (Reply o)) :
    Program Op Reply α → Program Op' Reply' α
  | .pure a => .pure a
  | .call o next => (handler o).bind (fun r => (next r).interpret handler)

theorem bind_assoc {γ : Type} (p : Program Op Reply α) (f : α → Program Op Reply β)
    (g : β → Program Op Reply γ) : (p.bind f).bind g = p.bind (fun a => (f a).bind g) := by
  induction p with
  | pure a => rfl
  | call o next ih => simp only [bind, ih]

theorem bind_pure (p : Program Op Reply α) : p.bind .pure = p := by
  induction p with
  | pure a => rfl
  | call o next ih => simp only [bind, ih]

instance : LawfulMonad (Program Op Reply) := by
  refine LawfulMonad.mk' _ ?_ ?_ ?_
  · exact bind_pure
  · exact fun a f => rfl
  · exact bind_assoc

theorem interpret_bind (handler : (o : Op) → Program Op' Reply' (Reply o))
    (p : Program Op Reply α) (f : α → Program Op Reply β) :
    (p.bind f).interpret handler =
      (p.interpret handler).bind (fun a => (f a).interpret handler) := by
  induction p with
  | pure a => rfl
  | call o next ih => simp only [bind, interpret, bind_assoc, ih]

end Program

namespace Fallible

def Emits (x : Fallible Op Reply ε α) (Q : Except ε α → List (Exchange Op Reply) → Prop) : Prop :=
  Program.Emits (ExceptT.run x) Q

namespace Emits

variable {Q Q' : Except ε α → List (Exchange Op Reply) → Prop}

theorem pure {a : α} (h : Q (.ok a) []) : Emits (Pure.pure a : Fallible Op Reply ε α) Q :=
  Program.Emits.pure h

theorem throw {e : ε} (h : Q (.error e) []) :
    Emits (MonadExcept.throw e : Fallible Op Reply ε α) Q :=
  Program.Emits.pure h

theorem ofOutcome {r : Except ε α} (h : Q r []) :
    Emits (Fallible.ofOutcome r : Fallible Op Reply ε α) Q := by
  cases r with
  | ok a => exact pure h
  | error e => exact throw h

theorem mono {x : Fallible Op Reply ε α} (h : Emits x Q)
    (hQ : ∀ r added, Q r added → Q' r added) : Emits x Q' :=
  Program.Emits.mono h hQ

theorem bind {x : Fallible Op Reply ε α} {f : α → Fallible Op Reply ε β}
    {Q' : Except ε β → List (Exchange Op Reply) → Prop} (hx : Emits x Q)
    (herror : ∀ e added, Q (.error e) added → Q' (.error e) added)
    (hok : ∀ a added, Q (.ok a) added → Emits (f a) (fun r more => Q' r (added ++ more))) :
    Emits (x >>= f) Q' := by
  refine Program.Emits.bind hx fun r added hr => ?_
  cases r with
  | ok a => exact hok a added hr
  | error e => exact Program.Emits.pure (by simpa using herror e added hr)

theorem tryCatch {x : Fallible Op Reply ε α} {h : ε → Fallible Op Reply ε α} (hx : Emits x Q)
    (hok : ∀ a added, Q (.ok a) added → Q' (.ok a) added)
    (herror : ∀ e added, Q (.error e) added →
      Emits (h e) (fun r more => Q' r (added ++ more))) :
    Emits (tryCatch x h) Q' := by
  refine Program.Emits.bind hx fun r added hr => ?_
  cases r with
  | ok a => exact Program.Emits.pure (by simpa using hok a added hr)
  | error e => exact herror e added hr

/-- One operation that cannot throw. -/
theorem perform {o : Op} {Q : Except ε (Reply o) → List (Exchange Op Reply) → Prop}
    (h : ∀ r, Q (.ok r) [⟨o, r⟩]) : Emits (Fallible.perform o : Fallible Op Reply ε _) Q := by
  refine Program.Emits.bind (Program.Emits.perform (Q := fun r added => added = [⟨o, r⟩])
    fun r => rfl) ?_
  rintro r added rfl
  exact Program.Emits.pure (h r)

end Emits

theorem lift_bind_ofOutcome (p : Program Op Reply (Except ε α)) :
    (ExceptT.lift p >>= fun r => ofOutcome r : Fallible Op Reply ε α) = ExceptT.mk p := by
  change ExceptT.mk ((p.bind _).bind _) = ExceptT.mk p
  rw [Program.bind_assoc]
  refine congrArg ExceptT.mk (Eq.trans ?_ (Program.bind_pure p))
  refine congrArg p.bind (funext fun r => ?_)
  cases r with
  | ok a => rfl
  | error e => rfl

def interpret (handler : (o : Op) → Program Op' Reply' (Reply o)) (x : Fallible Op Reply ε α) :
    Fallible Op' Reply' ε α :=
  ExceptT.mk ((ExceptT.run x).interpret handler)

variable (handler : (o : Op) → Program Op' Reply' (Reply o))

@[simp] theorem interpret_ofOutcome (r : Except ε α) :
    interpret handler (ofOutcome r : Fallible Op Reply ε α) = ofOutcome r := by
  cases r with
  | ok a => rfl
  | error e => rfl

@[simp] theorem interpret_perform (o : Op) :
    interpret handler (perform o : Fallible Op Reply ε _) = ExceptT.lift (handler o) := by
  change ExceptT.mk ((handler o).bind _) = ExceptT.mk ((handler o).bind _)
  rfl

/-- Whatever goes on with the outcome of `x`, a result as well as an exception. -/
theorem interpret_mk_bind (x : Fallible Op Reply ε α)
    {k : Except ε α → Program Op Reply (Except ε β)}
    {k' : Except ε α → Program Op' Reply' (Except ε β)}
    (hok : ∀ a, (k (.ok a)).interpret handler = k' (.ok a))
    (herror : ∀ e, (k (.error e)).interpret handler = k' (.error e)) :
    interpret handler (ExceptT.mk (Program.bind (ExceptT.run x) k)) =
      ExceptT.mk (Program.bind (ExceptT.run (interpret handler x)) k') := by
  change ExceptT.mk (Program.interpret handler (Program.bind _ _)) = _
  rw [Program.interpret_bind]
  refine congrArg (fun k => ExceptT.mk (Program.bind _ k)) (funext fun r => ?_)
  cases r with
  | ok a => exact hok a
  | error e => exact herror e

@[simp] theorem interpret_bind (x : Fallible Op Reply ε α) (f : α → Fallible Op Reply ε β) :
    interpret handler (x >>= f) = interpret handler x >>= fun a => interpret handler (f a) :=
  interpret_mk_bind handler x (fun _ => rfl) (fun _ => rfl)

@[simp] theorem interpret_tryCatch (x : Fallible Op Reply ε α) (h : ε → Fallible Op Reply ε α) :
    interpret handler (tryCatch x h) =
      tryCatch (interpret handler x) (fun e => interpret handler (h e)) :=
  interpret_mk_bind handler x (fun _ => rfl) (fun _ => rfl)

end Fallible
end PublicEndorsement.Interaction
