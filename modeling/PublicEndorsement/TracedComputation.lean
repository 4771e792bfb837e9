import Mathlib.Tactic

/-!
# Computations that leave a trace and may throw

A computation returns the events it caused, in order, together with its value or
its exception. What happened before an exception stays in the trace.
-/

namespace PublicEndorsement

/-- A sequence of two computations that may throw returns exactly when both do. -/
theorem except_bind_eq_ok {ε α β : Type} {x : Except ε α} {f : α → Except ε β} {b : β} :
    x >>= f = .ok b ↔ ∃ a, x = .ok a ∧ f a = .ok b := by
  cases x with
  | error e => simp [bind, Except.bind]
  | ok a => simp [bind, Except.bind]

theorem except_forM_eq_ok {ε α : Type} {f : α → Except ε Unit} {xs : List α} :
    forM xs f = .ok () ↔ ∀ x ∈ xs, f x = .ok () := by
  induction xs with
  | nil => simp [pure, Except.pure]
  | cons x xs ih =>
    rw [List.forM_cons, except_bind_eq_ok, List.forall_mem_cons, ← ih]
    exact ⟨fun ⟨_, hx, hxs⟩ => ⟨hx, hxs⟩, fun ⟨hx, hxs⟩ => ⟨(), hx, hxs⟩⟩

theorem except_mapM_eq_ok {ε α β : Type} {f : α → Except ε β} {xs : List α} {ys : List β} :
    xs.mapM f = .ok ys ↔ List.Forall₂ (fun x y => f x = .ok y) xs ys := by
  induction xs generalizing ys with
  | nil => simp [pure, Except.pure, eq_comm]
  | cons x xs ih =>
    rw [List.mapM_cons, List.forall₂_cons_left_iff]
    simp only [except_bind_eq_ok, ih, pure, Except.pure, Except.ok.injEq]
    constructor
    · rintro ⟨y, hy, rest, hrest, rfl⟩
      exact ⟨y, rest, hy, hrest, rfl⟩
    · rintro ⟨y, rest, hy, hrest, rfl⟩
      exact ⟨y, hy, rest, hrest, rfl⟩

theorem except_mapError_eq_ok {ε ε' α : Type} {x : Except ε α} {f : ε → ε'} {a : α} :
    x.mapError f = .ok a ↔ x = .ok a := by
  cases x with
  | error e => simp [Except.mapError]
  | ok b => simp [Except.mapError]

def OnlyThrows {ε α : Type} (P : ε → Prop) (x : Except ε α) : Prop := ∀ e, x = .error e → P e

namespace OnlyThrows

variable {ε α β : Type} {P : ε → Prop}

theorem ok (a : α) : OnlyThrows P (.ok a) := fun _ h => nomatch h

theorem error {e : ε} (h : P e) : OnlyThrows P (.error e : Except ε α) :=
  fun _ he => Except.error.inj he ▸ h

/-- A sequence throws what its first part throws, or else what its second part does. -/
theorem bind_iff {x : Except ε α} {f : α → Except ε β} :
    OnlyThrows P (x >>= f) ↔ OnlyThrows P x ∧ ∀ a, x = .ok a → OnlyThrows P (f a) := by
  cases x with
  | error e =>
    constructor
    · intro h
      refine ⟨error (h e rfl), fun a ha => ?_⟩
      cases ha
    · intro h
      exact error (h.1 e rfl)
  | ok a =>
    constructor
    · intro h
      refine ⟨ok a, fun a' ha => ?_⟩
      cases ha
      exact h
    · intro h
      exact h.2 a rfl

theorem bind {x : Except ε α} {f : α → Except ε β} (hx : OnlyThrows P x)
    (hf : ∀ a, OnlyThrows P (f a)) : OnlyThrows P (x >>= f) :=
  bind_iff.mpr ⟨hx, fun a _ => hf a⟩

theorem mapError {ε' : Type} {Q : ε' → Prop} {x : Except ε α} {f : ε → ε'} :
    OnlyThrows Q (x.mapError f) ↔ OnlyThrows (fun e => Q (f e)) x := by
  cases x with
  | error e => exact ⟨fun h => error (h (f e) rfl), fun h => error (h e rfl)⟩
  | ok a => exact ⟨fun _ => ok a, fun _ => ok a⟩

theorem forM {f : α → Except ε Unit} (hf : ∀ a, OnlyThrows P (f a)) (l : List α) :
    OnlyThrows P (forM l f) := by
  induction l with
  | nil => exact ok ()
  | cons a l ih =>
    rw [List.forM_cons]
    exact (hf a).bind (fun _ => ih)

end OnlyThrows

@[ext] structure Traced (ω ε α : Type) where
  trace : List ω
  outcome : Except ε α

namespace Traced

variable {ω ω' ε α β : Type}

protected def bind (x : Traced ω ε α) (f : α → Traced ω ε β) : Traced ω ε β :=
  match x.outcome with
  | .ok a => ⟨x.trace ++ (f a).trace, (f a).outcome⟩
  | .error e => ⟨x.trace, .error e⟩

instance : Monad (Traced ω ε) where
  pure a := ⟨[], .ok a⟩
  bind := Traced.bind

instance : MonadExcept ε (Traced ω ε) where
  throw e := ⟨[], .error e⟩
  tryCatch x handle :=
    match x.outcome with
    | .ok a => ⟨x.trace, .ok a⟩
    | .error e => ⟨x.trace ++ (handle e).trace, (handle e).outcome⟩

def emit (e : ω) : Traced ω ε Unit := ⟨[e], .ok ()⟩

def quiet (r : Except ε α) : Traced ω ε α := ⟨[], r⟩

def embed (f : ω → ω') (x : Traced ω ε α) : Traced ω' ε α := ⟨x.trace.map f, x.outcome⟩

/-- The same computation, its events and its exceptions seen as those of a larger kind. -/
def embedWith {ε' : Type} (f : ω → ω') (g : ε → ε') (x : Traced ω ε α) : Traced ω' ε' α :=
  ⟨x.trace.map f, x.outcome.mapError g⟩

theorem bind_of_ok {x : Traced ω ε α} {a : α} (h : x.outcome = .ok a)
    (f : α → Traced ω ε β) : x >>= f = ⟨x.trace ++ (f a).trace, (f a).outcome⟩ := by
  change Traced.bind x f = _
  rw [Traced.bind, h]

theorem bind_of_error {x : Traced ω ε α} {e : ε} (h : x.outcome = .error e)
    (f : α → Traced ω ε β) : x >>= f = ⟨x.trace, .error e⟩ := by
  change Traced.bind x f = _
  rw [Traced.bind, h]

/-- What happens before a computation happens before all that follows it. -/
theorem append_bind (l : List ω) (x : Traced ω ε α) (f : α → Traced ω ε β) :
    (⟨l ++ x.trace, x.outcome⟩ : Traced ω ε α) >>= f =
      ⟨l ++ (x >>= f).trace, (x >>= f).outcome⟩ := by
  cases h : x.outcome with
  | ok a => rw [bind_of_ok h, bind_of_ok rfl, List.append_assoc]
  | error e => rw [bind_of_error h, bind_of_error rfl]

theorem tryCatch_of_ok {x : Traced ω ε α} {a : α} (h : x.outcome = .ok a)
    (handle : ε → Traced ω ε α) : tryCatch x handle = x := by
  obtain ⟨trace, outcome⟩ := x
  cases h
  rfl

theorem tryCatch_of_error {x : Traced ω ε α} {e : ε} (h : x.outcome = .error e)
    (handle : ε → Traced ω ε α) :
    tryCatch x handle = ⟨x.trace ++ (handle e).trace, (handle e).outcome⟩ := by
  obtain ⟨trace, outcome⟩ := x
  cases h
  rfl

@[simp] theorem pure_trace (a : α) : (pure a : Traced ω ε α).trace = [] := rfl
@[simp] theorem pure_outcome (a : α) : (pure a : Traced ω ε α).outcome = .ok a := rfl
@[simp] theorem throw_trace (e : ε) : (throw e : Traced ω ε α).trace = [] := rfl
@[simp] theorem throw_outcome (e : ε) : (throw e : Traced ω ε α).outcome = .error e := rfl
@[simp] theorem emit_trace (e : ω) : (emit e : Traced ω ε Unit).trace = [e] := rfl
@[simp] theorem emit_outcome (e : ω) : (emit e : Traced ω ε Unit).outcome = .ok () := rfl
@[simp] theorem quiet_trace (r : Except ε α) : (quiet r : Traced ω ε α).trace = [] := rfl
@[simp] theorem quiet_outcome (r : Except ε α) : (quiet r : Traced ω ε α).outcome = r := rfl

@[simp] theorem embed_trace (f : ω → ω') (x : Traced ω ε α) : (embed f x).trace = x.trace.map f :=
  rfl

@[simp] theorem embed_outcome (f : ω → ω') (x : Traced ω ε α) :
    (embed f x).outcome = x.outcome := rfl

@[simp] theorem embedWith_trace {ε' : Type} (f : ω → ω') (g : ε → ε') (x : Traced ω ε α) :
    (embedWith f g x).trace = x.trace.map f := rfl

@[simp] theorem embedWith_outcome {ε' : Type} (f : ω → ω') (g : ε → ε') (x : Traced ω ε α) :
    (embedWith f g x).outcome = x.outcome.mapError g := rfl

@[simp] theorem throw_bind (e : ε) (f : α → Traced ω ε β) : (throw e >>= f) = throw e := rfl

@[simp] theorem quiet_error_bind (e : ε) (f : α → Traced ω ε β) :
    (quiet (.error e) >>= f) = throw e := rfl

@[simp] theorem quiet_ok_bind (a : α) (f : α → Traced ω ε β) : (quiet (.ok a) >>= f) = f a := by
  rw [bind_of_ok (quiet_outcome _)]
  rfl

instance : LawfulMonad (Traced ω ε) := by
  refine LawfulMonad.mk' _ ?_ ?_ ?_
  · intro α x
    change Traced.bind x (fun a => ⟨[], .ok a⟩) = x
    obtain ⟨trace, outcome⟩ := x
    cases outcome <;> simp [Traced.bind]
  · intro α β a f
    change Traced.bind ⟨[], .ok a⟩ f = f a
    simp [Traced.bind]
  · intro α β γ x f g
    change Traced.bind (Traced.bind x f) g = Traced.bind x (fun a => Traced.bind (f a) g)
    obtain ⟨trace, outcome⟩ := x
    cases outcome with
    | error e => rfl
    | ok a =>
      simp only [Traced.bind]
      cases (f a).outcome <;> simp

@[simp] theorem map_outcome (f : α → β) (x : Traced ω ε α) :
    (f <$> x).outcome = x.outcome.map f := by
  rw [map_eq_pure_bind]
  cases h : x.outcome with
  | ok a => rw [bind_of_ok h]; rfl
  | error e => rw [bind_of_error h]; rfl

/-- A sequence returns exactly when both parts do. -/
theorem bind_outcome_eq_ok {x : Traced ω ε α} {f : α → Traced ω ε β} {b : β} :
    (x >>= f).outcome = .ok b ↔ ∃ a, x.outcome = .ok a ∧ (f a).outcome = .ok b := by
  cases h : x.outcome with
  | ok a => simp [bind_of_ok h]
  | error e => simp [bind_of_error h]

/-- Every event of a sequence comes from one of its parts. -/
theorem mem_trace_bind {x : Traced ω ε α} {f : α → Traced ω ε β} {e : ω} :
    e ∈ (x >>= f).trace ↔ e ∈ x.trace ∨ ∃ a, x.outcome = .ok a ∧ e ∈ (f a).trace := by
  cases h : x.outcome with
  | ok a => simp [bind_of_ok h]
  | error e' => simp [bind_of_error h]

/-- Every event of a sequence of calls comes from one of the calls. -/
theorem forall_trace_mapM {p : ω → Prop} {l : List α} {f : α → Traced ω ε β}
    (h : ∀ a ∈ l, ∀ e ∈ (f a).trace, p e) : ∀ e ∈ (l.mapM f).trace, p e := by
  induction l with
  | nil => simp
  | cons a l ih =>
    intro e he
    rw [List.mapM_cons, mem_trace_bind] at he
    rcases he with he | ⟨b, -, he⟩
    · exact h a List.mem_cons_self e he
    · rw [mem_trace_bind] at he
      rcases he with he | ⟨bs, -, he⟩
      · exact ih (fun a' ha' => h a' (List.mem_cons_of_mem a ha')) e he
      · simp at he

/-- When a sequence of calls returns, every call returned and all events are there. -/
theorem mapM_outcome_ok {l : List α} {f : α → Traced ω ε β} {bs : List β}
    (h : (l.mapM f).outcome = .ok bs) :
    List.Forall₂ (fun a b => (f a).outcome = .ok b) l bs ∧
      (l.mapM f).trace = l.flatMap (fun a => (f a).trace) := by
  induction l generalizing bs with
  | nil =>
    cases h
    exact ⟨.nil, rfl⟩
  | cons a l ih =>
    rw [List.mapM_cons] at h ⊢
    obtain ⟨b, hb, hrest⟩ := bind_outcome_eq_ok.mp h
    obtain ⟨bs', hbs, hpure⟩ := bind_outcome_eq_ok.mp hrest
    cases hpure
    obtain ⟨hall, htrace⟩ := ih hbs
    refine ⟨.cons hb hall, ?_⟩
    rw [bind_of_ok hb, bind_of_ok hbs, htrace]
    simp

def Raises (x : Traced ω ε α) (P : ε → Prop) : Prop := ∀ e, x.outcome = .error e → P e

section Raises

variable {P : ε → Prop}

@[simp] theorem raises_pure (a : α) : Raises (pure a : Traced ω ε α) P :=
  fun _ h => nomatch h

@[simp] theorem raises_throw (e : ε) : Raises (throw e : Traced ω ε α) P ↔ P e :=
  ⟨fun h => h e rfl, fun h _ he => Except.error.inj he ▸ h⟩

@[simp] theorem raises_emit (e : ω) : Raises (emit e : Traced ω ε Unit) P :=
  fun _ h => nomatch h

theorem raises_quiet (r : Except ε α) :
    Raises (quiet r : Traced ω ε α) P ↔ ∀ e, r = .error e → P e := Iff.rfl

theorem raises_embed (f : ω → ω') (x : Traced ω ε α) : Raises (embed f x) P ↔ Raises x P := Iff.rfl

/-- A sequence throws what its first part throws, or else what its second part does. -/
theorem raises_bind {x : Traced ω ε α} {f : α → Traced ω ε β} :
    Raises (x >>= f) P ↔ Raises x P ∧ ∀ a, x.outcome = .ok a → Raises (f a) P := by
  unfold Raises
  cases h : x.outcome with
  | ok a => simp [bind_of_ok h]
  | error e => simp [bind_of_error h]

theorem raises_map (x : Traced ω ε α) (f : α → β) : Raises (f <$> x) P ↔ Raises x P := by
  rw [map_eq_pure_bind, raises_bind]
  exact and_iff_left fun a _ => raises_pure _

/-- Where each failure of a call is one too many, a sequence of calls must not fail at all. -/
theorem raises_mapM_iff {l : List α} {f : α → Traced ω ε β}
    (h : ∀ a ∈ l, ∀ e, (f a).outcome = .error e → ¬ P e) :
    Raises (l.mapM f) P ↔ ∀ a ∈ l, ∃ b, (f a).outcome = .ok b := by
  induction l with
  | nil => simp
  | cons a l ih =>
    have ih := ih (fun a' ha' => h a' (List.mem_cons_of_mem a ha'))
    rw [List.mapM_cons, raises_bind, List.forall_mem_cons]
    cases hfirst : (f a).outcome with
    | error e =>
      have hnot : ¬ Raises (f a) P := fun hr => h a List.mem_cons_self e hfirst (hr e hfirst)
      simp [hnot]
    | ok b =>
      have hfine : Raises (f a) P := fun e he => by simp [hfirst] at he
      simp only [hfine, true_and, Except.ok.injEq, forall_eq', exists_eq', raises_bind, raises_pure,
        implies_true, and_true, ih]

end Raises

/-- Two computations end alike and show an observer the same things; `see` is what the
observer makes of an event, if anything. -/
structure Indistinguishable (see : ω → Option ω') (x y : Traced ω ε α) : Prop where
  outcome : x.outcome = y.outcome
  seen : x.trace.filterMap see = y.trace.filterMap see

namespace Indistinguishable

variable {see : ω → Option ω'} {x y : Traced ω ε α}

theorem refl (x : Traced ω ε α) : Indistinguishable see x x := ⟨rfl, rfl⟩

theorem emit {e e' : ω} (h : see e = see e') :
    Indistinguishable see (emit e : Traced ω ε Unit) (Traced.emit e') := by
  refine ⟨rfl, ?_⟩
  simp only [emit_trace, List.filterMap_cons, h]

theorem bind {f g : α → Traced ω ε β} (h : Indistinguishable see x y)
    (hf : ∀ a, Indistinguishable see (f a) (g a)) :
    Indistinguishable see (x >>= f) (y >>= g) := by
  cases hx : x.outcome with
  | ok a =>
    have hy : y.outcome = .ok a := h.outcome.symm.trans hx
    rw [bind_of_ok hx, bind_of_ok hy]
    refine ⟨(hf a).outcome, ?_⟩
    simp only [List.filterMap_append, h.seen, (hf a).seen]
  | error e =>
    have hy : y.outcome = .error e := h.outcome.symm.trans hx
    rw [bind_of_error hx, bind_of_error hy]
    exact ⟨rfl, h.seen⟩

theorem tryCatch (h : Indistinguishable see x y) (handle : ε → Traced ω ε α) :
    Indistinguishable see (tryCatch x handle) (MonadExcept.tryCatch y handle) := by
  cases hx : x.outcome with
  | ok a =>
    have hy : y.outcome = .ok a := h.outcome.symm.trans hx
    rw [tryCatch_of_ok hx, tryCatch_of_ok hy]
    exact h
  | error e =>
    have hy : y.outcome = .error e := h.outcome.symm.trans hx
    rw [tryCatch_of_error hx, tryCatch_of_error hy]
    refine ⟨rfl, ?_⟩
    simp only [List.filterMap_append, h.seen]

theorem embed {ω'' : Type} {see : ω'' → Option ω'} {f : ω → ω''}
    (h : Indistinguishable (see ∘ f) x y) :
    Indistinguishable see (embed f x) (Traced.embed f y) := by
  refine ⟨h.outcome, ?_⟩
  simp only [embed_trace, List.filterMap_map, h.seen]

end Indistinguishable
end Traced
end PublicEndorsement
