import PublicEndorsement.TracedComputation

/-!
# Relating two computations

Two computations are run side by side. Their events are related one by one, they end in related
exceptions or in related values. Programs that are built in the same way from related parts are
related.
-/

namespace PublicEndorsement

inductive ExceptRelated {ε ε' α β : Type} (Q : ε → ε' → Prop) (R : α → β → Prop) :
    Except ε α → Except ε' β → Prop
  | ok {a : α} {b : β} (h : R a b) : ExceptRelated Q R (.ok a) (.ok b)
  | error {e : ε} {e' : ε'} (h : Q e e') : ExceptRelated Q R (.error e) (.error e')

namespace ExceptRelated

variable {ε ε' δ δ' α β α' β' : Type} {Q : ε → ε' → Prop} {R : α → β → Prop} {S : α' → β' → Prop}

theorem refl {Q : ε → ε → Prop} (hQ : ∀ e, Q e e) (x : Except ε α) : ExceptRelated Q Eq x x := by
  cases x with
  | ok a => exact .ok rfl
  | error e => exact .error (hQ e)

theorem eq {x y : Except ε α} (h : ExceptRelated Eq Eq x y) : x = y := by
  cases h with
  | ok h => rw [h]
  | error h => rw [h]

theorem mapError {Q' : δ → δ' → Prop} {x : Except ε α} {y : Except ε' β} {f : ε → δ} {g : ε' → δ'}
    (h : ExceptRelated Q R x y) (hfg : ∀ e e', Q e e' → Q' (f e) (g e')) :
    ExceptRelated Q' R (x.mapError f) (y.mapError g) := by
  cases h with
  | ok hab => exact .ok hab
  | error he => exact .error (hfg _ _ he)

theorem bind {x : Except ε α} {y : Except ε' β} {f : α → Except ε α'} {g : β → Except ε' β'}
    (h : ExceptRelated Q R x y) (hfg : ∀ a b, R a b → ExceptRelated Q S (f a) (g b)) :
    ExceptRelated Q S (x >>= f) (y >>= g) := by
  cases h with
  | ok hab => exact hfg _ _ hab
  | error he => exact .error he

theorem mapM {f : α → Except ε α'} {g : β → Except ε' β'}
    (hfg : ∀ a b, R a b → ExceptRelated Q S (f a) (g b)) {l : List α} {l' : List β}
    (h : List.Forall₂ R l l') : ExceptRelated Q (List.Forall₂ S) (l.mapM f) (l'.mapM g) := by
  induction h with
  | nil => exact .ok .nil
  | cons hab _ ih =>
    rw [List.mapM_cons, List.mapM_cons]
    exact (hfg _ _ hab).bind fun _ _ hone => ih.bind fun _ _ hrest => .ok (.cons hone hrest)

end ExceptRelated

namespace Traced

variable {ω ω' ω₁ ω₁' ε ε' α β α' β' : Type}

structure Related (E : ω → ω' → Prop) (Q : ε → ε' → Prop) (R : α → β → Prop) (x : Traced ω ε α)
    (y : Traced ω' ε' β) : Prop where
  trace : List.Forall₂ E x.trace y.trace
  outcome : ExceptRelated Q R x.outcome y.outcome

namespace Related

variable {E : ω → ω' → Prop} {Q Q' : ε → ε' → Prop} {R : α → β → Prop} {S : α' → β' → Prop}
  {x : Traced ω ε α} {y : Traced ω' ε' β}

theorem refl (x : Traced ω ε α) : Related Eq Eq Eq x x :=
  ⟨List.forall₂_refl x.trace, .refl (fun _ => rfl) x.outcome⟩

theorem pure {a : α} {b : β} (h : R a b) :
    Related E Q R (Pure.pure a : Traced ω ε α) (Pure.pure b : Traced ω' ε' β) :=
  ⟨.nil, .ok h⟩

theorem throw {e : ε} {e' : ε'} (h : Q e e') :
    Related E Q R (MonadExcept.throw e : Traced ω ε α)
      (MonadExcept.throw e' : Traced ω' ε' β) :=
  ⟨.nil, .error h⟩

theorem emit {e : ω} {e' : ω'} (h : E e e') :
    Related E Q Eq (Traced.emit e : Traced ω ε Unit) (Traced.emit e' : Traced ω' ε' Unit) :=
  ⟨.cons h .nil, .ok rfl⟩

theorem quiet {r : Except ε α} {r' : Except ε' β} (h : ExceptRelated Q R r r') :
    Related E Q R (Traced.quiet r) (Traced.quiet r') :=
  ⟨.nil, h⟩

theorem bind {f : α → Traced ω ε α'} {g : β → Traced ω' ε' β'} (h : Related E Q R x y)
    (hfg : ∀ a b, R a b → Related E Q S (f a) (g b)) : Related E Q S (x >>= f) (y >>= g) := by
  obtain ⟨htrace, hout⟩ := h
  cases hx : x.outcome with
  | ok a =>
    cases hy : y.outcome with
    | ok b =>
      rw [hx, hy] at hout
      obtain ⟨hrest, hend⟩ := hfg a b (by cases hout; assumption)
      rw [bind_of_ok hx, bind_of_ok hy]
      exact ⟨List.rel_append htrace hrest, hend⟩
    | error e =>
      rw [hx, hy] at hout
      cases hout
  | error e =>
    cases hy : y.outcome with
    | ok b =>
      rw [hx, hy] at hout
      cases hout
    | error e' =>
      rw [hx, hy] at hout
      rw [bind_of_error hx, bind_of_error hy]
      exact ⟨htrace, .error (by cases hout; assumption)⟩

theorem tryCatch {f : ε → Traced ω ε α} {g : ε' → Traced ω' ε' β} (h : Related E Q R x y)
    (hfg : ∀ e e', Q e e' → Related E Q' R (f e) (g e')) :
    Related E Q' R (MonadExcept.tryCatch x f) (MonadExcept.tryCatch y g) := by
  obtain ⟨htrace, hout⟩ := h
  cases hx : x.outcome with
  | ok a =>
    cases hy : y.outcome with
    | ok b =>
      rw [hx, hy] at hout
      rw [tryCatch_of_ok hx, tryCatch_of_ok hy]
      exact ⟨htrace, hx.symm ▸ hy.symm ▸ .ok (by cases hout; assumption)⟩
    | error e =>
      rw [hx, hy] at hout
      cases hout
  | error e =>
    cases hy : y.outcome with
    | ok b =>
      rw [hx, hy] at hout
      cases hout
    | error e' =>
      rw [hx, hy] at hout
      have hhandlers := hfg e e' (by cases hout; assumption)
      rw [tryCatch_of_error hx, tryCatch_of_error hy]
      exact ⟨List.rel_append htrace hhandlers.trace, hhandlers.outcome⟩

theorem embed {E' : ω₁ → ω₁' → Prop} {f : ω → ω₁} {g : ω' → ω₁'}
    (hfg : ∀ e e', E e e' → E' (f e) (g e')) (h : Related E Q R x y) :
    Related E' Q R (Traced.embed f x) (Traced.embed g y) :=
  ⟨List.rel_map hfg h.trace, h.outcome⟩

theorem mapM {f : α → Traced ω ε α'} {g : β → Traced ω' ε' β'}
    (hfg : ∀ a b, R a b → Related E Q S (f a) (g b)) {l : List α} {l' : List β}
    (h : List.Forall₂ R l l') : Related E Q (List.Forall₂ S) (l.mapM f) (l'.mapM g) := by
  induction h with
  | nil => exact .pure .nil
  | cons hab _ ih =>
    rw [List.mapM_cons, List.mapM_cons]
    exact (hfg _ _ hab).bind fun _ _ hone => ih.bind fun _ _ hrest => .pure (.cons hone hrest)

/-- What an observer sees of both, if what they see of related events is related. -/
theorem filterMap {γ γ' : Type} {V : γ → γ' → Prop} {see : ω → Option γ} {see' : ω' → Option γ'}
    (h : Related E Q R x y) (hsee : ∀ e e', E e e' → Option.Rel V (see e) (see' e')) :
    List.Forall₂ V (x.trace.filterMap see) (y.trace.filterMap see') :=
  List.rel_filterMap hsee h.trace

end Related
end Traced
end PublicEndorsement
