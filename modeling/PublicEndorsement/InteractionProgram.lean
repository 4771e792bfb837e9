import Mathlib.Tactic

/-!
# Programs that issue one operation at a time

A program is a finite tree of operations. Each node issues one operation and
continues with whatever reply it receives. Nothing here says what an operation
does; a machine gives it a meaning when the program is run.
-/

namespace PublicEndorsement.Interaction

inductive Program (Op : Type) (Reply : Op → Type) (α : Type) where
  | pure (a : α)
  | call (o : Op) (next : Reply o → Program Op Reply α)

variable {Op : Type} {Reply : Op → Type} {α β ε ε' : Type}

namespace Program

def bind : Program Op Reply α → (α → Program Op Reply β) → Program Op Reply β
  | .pure a, f => f a
  | .call o next, f => .call o (fun r => (next r).bind f)

instance : Monad (Program Op Reply) where
  pure := .pure
  bind := bind

end Program

def perform (o : Op) : Program Op Reply (Reply o) := .call o .pure

/-- A program that may end with an exception instead of a value. -/
abbrev Fallible (Op : Type) (Reply : Op → Type) (ε α : Type) := ExceptT ε (Program Op Reply) α

namespace Fallible

def perform (o : Op) : Fallible Op Reply ε (Reply o) := ExceptT.lift (Interaction.perform o)

/-- Continue with the outcome of `x` as a value, whether it returned or threw. -/
def outcome (x : Fallible Op Reply ε α) : Fallible Op Reply ε' (Except ε α) :=
  ExceptT.lift (ExceptT.run x)

def ofOutcome : Except ε α → Fallible Op Reply ε α
  | .ok a => pure a
  | .error e => throw e

end Fallible
end PublicEndorsement.Interaction
