import PublicEndorsement.RelyGuarantee

/-!
# Triples for programs that may throw

`Spec P x Q E` is a triple with one postcondition for a normal return and one for
an exception. The rules follow the control flow of code written with exceptions:
sequencing, throwing, catching, and keeping an outcome as a value.
-/

namespace PublicEndorsement.Interaction

variable {ι Op : Type} {Reply : Op → Type} {σ Choice EnvChoice α β ε ε' : Type}

namespace Protocol.Stable

variable {R : Protocol ι σ} {i : ι} {P P' : σ → Prop}

theorem const (p : Prop) : R.Stable i (fun _ => p) := fun _ _ _ _ _ h => h

theorem and (h : R.Stable i P) (h' : R.Stable i P') : R.Stable i (fun s => P s ∧ P' s) :=
  fun s s' hs hs' hrely hp => ⟨h s s' hs hs' hrely hp.1, h' s s' hs hs' hrely hp.2⟩

theorem ex {P : α → σ → Prop} (h : ∀ a, R.Stable i (P a)) :
    R.Stable i (fun s => ∃ a, P a s) :=
  fun s s' hs hs' hrely ⟨a, hp⟩ => ⟨a, h a s s' hs hs' hrely hp⟩

theorem all {P : α → σ → Prop} (h : ∀ a, R.Stable i (P a)) :
    R.Stable i (fun s => ∀ a, P a s) :=
  fun s s' hs hs' hrely hp a => h a s s' hs hs' hrely (hp a)

theorem imp {p : Prop} (h : R.Stable i P) : R.Stable i (fun s => p → P s) :=
  fun s s' hs hs' hrely hp hc => h s s' hs hs' hrely (hp hc)

end Protocol.Stable

namespace Machine

variable {M : Machine ι Op Reply σ Choice EnvChoice} {R : Protocol ι σ} {i : ι}

/-- A postcondition may be weakened to hold under all later interference at once. -/
theorem Safe.closed {p : Program Op Reply α} {Q : α → σ → Prop} {s : σ}
    (h : M.Safe R i p Q s) :
    M.Safe R i p (fun a s => ∀ s', R.rely i s s' → R.inv s' → Q a s') s := by
  induction p generalizing s with
  | pure a => exact fun s' hrely _ t ht => h t (R.rely_trans i _ _ _ hrely ht)
  | call o next ih =>
    intro s' hrely hs' choice r s'' hexec
    obtain ⟨hguar, hnext⟩ := h s' hrely hs' choice r s'' hexec
    exact ⟨hguar, ih r hnext⟩

/-- One predicate out of a postcondition for returns and one for exceptions. -/
def onOutcome (Q : α → σ → Prop) (E : ε → σ → Prop) : Except ε α → σ → Prop
  | .ok a => Q a
  | .error e => E e

variable (M R i)

def Spec (P : σ → Prop) (x : Fallible Op Reply ε α) (Q : α → σ → Prop) (E : ε → σ → Prop) :
    Prop :=
  M.Triple R i P (ExceptT.run x) (onOutcome Q E)

variable {M R i}

namespace Spec

variable {P P' : σ → Prop} {Q : α → σ → Prop} {E : ε → σ → Prop}

theorem bind {x : Fallible Op Reply ε α} {f : α → Fallible Op Reply ε β}
    {Q : β → σ → Prop} {K : α → σ → Prop} (hx : M.Spec R i P x K E)
    (hf : ∀ a, M.Spec R i (K a) (f a) Q E) : M.Spec R i P (x >>= f) Q E := by
  intro s hs hP
  apply Safe.bind hs
  refine (hx s hs hP).closed.mono ?_
  intro r t ht hr
  cases r with
  | ok a => exact hf a t ht (hr t (R.rely_refl i t) ht)
  | error e => exact hr

/-- Sequencing when the first part keeps `P` and tells a fact about its result. -/
theorem bindFact {x : Fallible Op Reply ε α} {f : α → Fallible Op Reply ε β}
    {Q : β → σ → Prop} {F : α → Prop} (hx : M.Spec R i P x (fun a s => P s ∧ F a) E)
    (hf : ∀ a, F a → M.Spec R i P (f a) Q E) : M.Spec R i P (x >>= f) Q E := by
  apply bind hx
  intro a s hs hp
  exact hf a hp.2 s hs hp.1

theorem tryCatch {x : Fallible Op Reply ε α} {h : ε → Fallible Op Reply ε α}
    {K : ε → σ → Prop} (hx : M.Spec R i P x Q K)
    (hh : ∀ e, M.Spec R i (K e) (h e) Q E) : M.Spec R i P (tryCatch x h) Q E := by
  intro s hs hP
  apply Safe.bind hs
  refine (hx s hs hP).closed.mono ?_
  intro r t ht hr
  cases r with
  | ok a => exact hr
  | error e => exact hh e t ht (hr t (R.rely_refl i t) ht)

theorem conseq {Q' : α → σ → Prop} {E' : ε → σ → Prop} {x : Fallible Op Reply ε α}
    (h : M.Spec R i P x Q E) (hP : ∀ s, R.inv s → P' s → P s)
    (hQ : ∀ a s, R.inv s → Q a s → Q' a s) (hE : ∀ e s, R.inv s → E e s → E' e s) :
    M.Spec R i P' x Q' E' := by
  apply Triple.conseq h hP
  intro r s hs hr
  cases r with
  | ok a => exact hQ a s hs hr
  | error e => exact hE e s hs hr

theorem ofPre {x : Fallible Op Reply ε α} (h : M.Spec R i P x Q E)
    (hP : ∀ s, R.inv s → P' s → P s) : M.Spec R i P' x Q E :=
  fun s hs hp => h s hs (hP s hs hp)

/-- A precondition may name what is known to exist. -/
theorem ofExists {P : β → σ → Prop} {x : Fallible Op Reply ε α}
    (h : ∀ b, M.Spec R i (P b) x Q E) : M.Spec R i (fun s => ∃ b, P b s) x Q E :=
  fun s hs ⟨b, hb⟩ => h b s hs hb

theorem ofFact {p : Prop} {x : Fallible Op Reply ε α} (h : p → M.Spec R i P x Q E) :
    M.Spec R i (fun s => p ∧ P s) x Q E := fun s hs hp => h hp.1 s hs hp.2

theorem pure {a : α} (hP : R.Stable i P) (h : ∀ s, R.inv s → P s → Q a s) :
    M.Spec R i P (Pure.pure a) Q E :=
  fun s hs hp s' hrely hs' => h s' hs' (hP s s' hs hs' hrely hp)

theorem throw {e : ε} (hP : R.Stable i P) (h : ∀ s, R.inv s → P s → E e s) :
    M.Spec R i P (MonadExcept.throw e : Fallible Op Reply ε α) Q E :=
  fun s hs hp s' hrely hs' => h s' hs' (hP s s' hs hs' hrely hp)

theorem ofOutcome {r : Except ε α} (hP : R.Stable i P)
    (h : ∀ s, R.inv s → P s → onOutcome Q E r s) :
    M.Spec R i P (Fallible.ofOutcome r) Q E := by
  cases r with
  | ok a => exact pure hP h
  | error e => exact throw hP h

theorem outcome {x : Fallible Op Reply ε α} {E' : ε' → σ → Prop} (h : M.Spec R i P x Q E) :
    M.Spec R i P (Fallible.outcome x) (onOutcome Q E) E' := by
  intro s hs hP
  apply Safe.bind hs
  refine (h s hs hP).closed.mono ?_
  intro r t ht hr
  exact hr

/-- One operation. The assertions on both sides must survive interference. -/
theorem perform {o : Op} {Q : Reply o → σ → Prop} (hP : R.Stable i P)
    (hQ : ∀ r, R.Stable i (Q r))
    (h : ∀ s choice r s', R.inv s → P s → M.exec i o choice s = some (r, s') →
      R.Guarantee i s s' ∧ Q r s') : M.Spec R i P (Fallible.perform o) Q E := by
  intro s hs hp
  apply Safe.bind hs
  refine (Triple.perform hP hQ h s hs hp).closed.mono ?_
  intro r t ht hr
  exact hr

end Spec
end Machine
end PublicEndorsement.Interaction
