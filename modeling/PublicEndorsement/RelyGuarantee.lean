import PublicEndorsement.InteractionSystem

/-!
# Rely-guarantee reasoning for interleaved programs

A protocol names an invariant of the shared state and, for every instance, the
changes it tolerates from everybody else. An instance's program is safe when each
of its operations keeps the invariant and stays within what the others tolerate.
Triples compose this along a program; `run_safe` puts the instances together.
-/

namespace PublicEndorsement.Interaction

structure Protocol (ι σ : Type) where
  inv : σ → Prop
  rely : ι → σ → σ → Prop
  rely_refl : ∀ i s, rely i s s
  rely_trans : ∀ i s s' s'', rely i s s' → rely i s' s'' → rely i s s''

variable {ι Op : Type} {Reply : Op → Type} {σ Choice EnvChoice α β : Type}

/-- What instance `i` owes the others when it changes `s` into `s'`. -/
def Protocol.Guarantee (R : Protocol ι σ) (i : ι) (s s' : σ) : Prop :=
  R.inv s' ∧ ∀ j, j ≠ i → R.rely j s s'

/-- An assertion of instance `i` that interference cannot falsify. -/
def Protocol.Stable (R : Protocol ι σ) (i : ι) (P : σ → Prop) : Prop :=
  ∀ s s', R.inv s → R.inv s' → R.rely i s s' → P s → P s'

namespace Machine

variable (M : Machine ι Op Reply σ Choice EnvChoice) (R : Protocol ι σ) (i : ι)

/-- From `s`, under interference, every operation of the program honours the
guarantee and the result satisfies `Q` whenever it is looked at. -/
def Safe : Program Op Reply α → (α → σ → Prop) → σ → Prop
  | .pure a, Q, s => ∀ s', R.rely i s s' → R.inv s' → Q a s'
  | .call o next, Q, s => ∀ s', R.rely i s s' → R.inv s' →
      ∀ choice r s'', M.exec i o choice s' = some (r, s'') →
        R.Guarantee i s' s'' ∧ Safe (next r) Q s''

def Triple (P : σ → Prop) (p : Program Op Reply α) (Q : α → σ → Prop) : Prop :=
  ∀ s, R.inv s → P s → M.Safe R i p Q s

variable {M R i}

theorem Safe.interference {p : Program Op Reply α} {Q : α → σ → Prop} {s s' : σ}
    (h : M.Safe R i p Q s) (hrely : R.rely i s s') : M.Safe R i p Q s' := by
  cases p with
  | pure a => exact fun t ht => h t (R.rely_trans i _ _ _ hrely ht)
  | call o next => exact fun t ht => h t (R.rely_trans i _ _ _ hrely ht)

theorem Safe.bind {p : Program Op Reply α} {f : α → Program Op Reply β}
    {Q : β → σ → Prop} {s : σ} (hs : R.inv s)
    (h : M.Safe R i p (fun a => M.Safe R i (f a) Q) s) : M.Safe R i (p.bind f) Q s := by
  induction p generalizing s with
  | pure a => exact h s (R.rely_refl i s) hs
  | call o next ih =>
    intro s' hrely hs' choice r s'' hexec
    obtain ⟨hguar, hnext⟩ := h s' hrely hs' choice r s'' hexec
    exact ⟨hguar, ih r hguar.1 hnext⟩

theorem Safe.mono {p : Program Op Reply α} {Q Q' : α → σ → Prop} {s : σ}
    (h : M.Safe R i p Q s) (hQ : ∀ a s, R.inv s → Q a s → Q' a s) : M.Safe R i p Q' s := by
  induction p generalizing s with
  | pure a => exact fun s' hrely hs' => hQ a s' hs' (h s' hrely hs')
  | call o next ih =>
    intro s' hrely hs' choice r s'' hexec
    obtain ⟨hguar, hnext⟩ := h s' hrely hs' choice r s'' hexec
    exact ⟨hguar, ih r hnext⟩

namespace Triple

variable {P P' : σ → Prop}

theorem bind {p : Program Op Reply α} {f : α → Program Op Reply β} {K : α → σ → Prop}
    {Q : β → σ → Prop} (hp : M.Triple R i P p K)
    (hf : ∀ a, M.Triple R i (K a) (f a) Q) : M.Triple R i P (p.bind f) Q := by
  intro s hs hP
  exact Safe.bind hs ((hp s hs hP).mono (fun a s hs hK => hf a s hs hK))

theorem conseq {p : Program Op Reply α} {Q Q' : α → σ → Prop} (h : M.Triple R i P p Q)
    (hP : ∀ s, R.inv s → P' s → P s) (hQ : ∀ a s, R.inv s → Q a s → Q' a s) :
    M.Triple R i P' p Q' :=
  fun s hs hP' => (h s hs (hP s hs hP')).mono hQ

theorem perform {o : Op} {Q : Reply o → σ → Prop} (hP : R.Stable i P)
    (hQ : ∀ r, R.Stable i (Q r))
    (h : ∀ s choice r s', R.inv s → P s → M.exec i o choice s = some (r, s') →
      R.Guarantee i s s' ∧ Q r s') : M.Triple R i P (Interaction.perform o) Q := by
  intro s hs hPs s' hrely hs' choice r s'' hexec
  obtain ⟨hguar, hq⟩ := h s' choice r s'' hs' (hP s s' hs hs' hrely hPs) hexec
  exact ⟨hguar, fun t ht hinv => hQ r s'' t hguar.1 hinv ht hq⟩

end Triple
end Machine

def Machine.AllSafe (M : Machine ι Op Reply σ Choice EnvChoice) (R : Protocol ι σ)
    (c : Config ι Op Reply σ) : Prop :=
  R.inv c.shared ∧
    ∀ i p, c.control i = .running p → M.Safe R i p (fun _ _ => True) c.shared

namespace Machine

variable [DecidableEq ι] {M : Machine ι Op Reply σ Choice EnvChoice} {R : Protocol ι σ}

theorem AllSafe.changeControl {c : Config ι Op Reply σ} (h : M.AllSafe R c) (i : ι)
    (k : Control Op Reply)
    (hk : ∀ p, k = .running p → M.Safe R i p (fun _ _ => True) c.shared) :
    M.AllSafe R { c with control := Function.update c.control i k } := by
  refine ⟨h.1, ?_⟩
  intro j p hj
  by_cases hji : j = i
  · subst j
    exact hk p (by simpa using hj)
  · exact h.2 j p (by simpa [hji] using hj)

theorem AllSafe.advance {c : Config ι Op Reply σ} (h : M.AllSafe R c) (i : ι) (o : Op)
    (next : Reply o → Program Op Reply Unit) (hc : c.control i = .running (.call o next))
    (choice : Choice) (r : Reply o) (s : σ) (hexec : M.exec i o choice c.shared = some (r, s)) :
    M.AllSafe R { shared := s, control := Function.update c.control i (.running (next r)) } := by
  obtain ⟨hguar, hnext⟩ := h.2 i _ hc c.shared (R.rely_refl i _) h.1 choice r s hexec
  refine ⟨hguar.1, ?_⟩
  intro j p hj
  by_cases hji : j = i
  · subst j
    have hp : next r = p := by simpa using hj
    rw [← hp]
    exact hnext
  · exact (h.2 j p (by simpa [hji] using hj)).interference (hguar.2 j hji)

/-- The environment has to respect those who are running. -/
theorem AllSafe.step {c : Config ι Op Reply σ} (h : M.AllSafe R c)
    (hmain : ∀ i, M.Triple R i (fun _ => True) (M.main i) (fun _ _ => True))
    (a : Action ι Choice EnvChoice)
    (henv : ∀ e s, a = .env e → M.env e c.shared = some s →
      R.inv s ∧ ∀ j p, c.control j = .running p → R.rely j c.shared s) :
    M.AllSafe R (M.step c a) := by
  cases a with
  | start i =>
    cases hc : c.control i with
    | idle =>
      simp only [Machine.step, hc]
      apply h.changeControl
      intro p hp
      cases hp
      exact hmain i c.shared h.1 trivial
    | running p => simpa only [Machine.step, hc] using h
    | crashed => simpa only [Machine.step, hc] using h
  | advance i choice =>
    cases hc : c.control i with
    | idle => simpa only [Machine.step, hc] using h
    | crashed => simpa only [Machine.step, hc] using h
    | running p =>
      cases p with
      | pure a =>
        simp only [Machine.step, hc]
        exact h.changeControl i .idle (fun p hp => by cases hp)
      | call o next =>
        cases hexec : M.exec i o choice c.shared with
        | none => simpa only [Machine.step, hc, hexec] using h
        | some rs => simpa only [Machine.step, hc, hexec] using
            h.advance i o next hc choice rs.1 rs.2 hexec
  | crash i => exact h.changeControl i .crashed (fun p hp => by cases hp)
  | env e =>
    cases he : M.env e c.shared with
    | none => simpa only [Machine.step, he] using h
    | some s =>
      obtain ⟨hinv, hrely⟩ := henv e s rfl he
      simp only [Machine.step, he]
      exact ⟨hinv, fun j p hj => (h.2 j p hj).interference (hrely j p hj)⟩

/-- The parallel composition rule. If each invocation is safe on its own and the
environment respects everybody, then every schedule keeps the invariant. -/
theorem run_safe (s₀ : σ) (hinit : R.inv s₀)
    (hmain : ∀ i, M.Triple R i (fun _ => True) (M.main i) (fun _ _ => True))
    (henv : ∀ e s s', R.inv s → M.env e s = some s' → R.inv s' ∧ ∀ j, R.rely j s s')
    (schedule : List (Action ι Choice EnvChoice)) : R.inv (M.run s₀ schedule).shared := by
  have h : M.AllSafe R (M.run s₀ schedule) := by
    refine M.run_induction s₀ ⟨hinit, fun i p hp => by cases hp⟩ (fun c a hc => ?_) schedule
    refine hc.step hmain a (fun e s _ he => ?_)
    obtain ⟨hinv, hrely⟩ := henv e c.shared s hc.1 he
    exact ⟨hinv, fun j _ _ => hrely j⟩
  exact h.1

/-! ## Instances at rest -/

section Rest

variable {Rest : ι → σ → Prop}

/-- An idle instance is at rest, and a running one will be when it is done. -/
def AtRest (M : Machine ι Op Reply σ Choice EnvChoice) (R : Protocol ι σ)
    (Rest : ι → σ → Prop) (i : ι) (s : σ) : Control Op Reply → Prop
  | .idle => Rest i s
  | .running p => M.Safe R i p (fun _ => Rest i) s
  | .crashed => True

omit [DecidableEq ι] in
theorem AtRest.interference (hstable : ∀ i, R.Stable i (Rest i)) {i : ι} {s s' : σ}
    {k : Control Op Reply} (h : M.AtRest R Rest i s k) (hs : R.inv s) (hs' : R.inv s')
    (hrely : R.rely i s s') : M.AtRest R Rest i s' k := by
  cases k with
  | idle => exact hstable i s s' hs hs' hrely h
  | running p => exact Safe.interference h hrely
  | crashed => trivial

/-- Instance `i` changes the shared state and its own control. -/
theorem AtRest.update (hstable : ∀ i, R.Stable i (Rest i)) {c : Config ι Op Reply σ} {s : σ}
    {i : ι} {k : Control Op Reply} (hinv : R.inv c.shared)
    (h : ∀ j, M.AtRest R Rest j c.shared (c.control j)) (hguar : R.Guarantee i c.shared s)
    (hk : M.AtRest R Rest i s k) (j : ι) :
    M.AtRest R Rest j s (Function.update c.control i k j) := by
  by_cases hji : j = i
  · subst hji
    rw [Function.update_self]
    exact hk
  · rw [Function.update_of_ne hji]
    exact (h j).interference hstable hinv hguar.1 (hguar.2 j hji)

theorem AtRest.step (hstable : ∀ i, R.Stable i (Rest i))
    (hmain : ∀ i, M.Triple R i (Rest i) (M.main i) (fun _ => Rest i))
    (henv : ∀ e s s', R.inv s → M.env e s = some s' → R.inv s' ∧ ∀ j, R.rely j s s')
    {c : Config ι Op Reply σ} (hinv : R.inv c.shared)
    (h : ∀ i, M.AtRest R Rest i c.shared (c.control i)) (a : Action ι Choice EnvChoice) :
    R.inv (M.step c a).shared ∧
      ∀ i, M.AtRest R Rest i (M.step c a).shared ((M.step c a).control i) := by
  have hsame : ∀ i, R.Guarantee i c.shared c.shared := fun i =>
    ⟨hinv, fun j _ => R.rely_refl j _⟩
  cases a with
  | start i =>
    have hi := h i
    cases hc : c.control i with
    | idle =>
      rw [hc] at hi
      simp only [Machine.step, hc]
      exact ⟨hinv, AtRest.update hstable hinv h (hsame i) (hmain i c.shared hinv hi)⟩
    | running p => simpa only [Machine.step, hc] using ⟨hinv, h⟩
    | crashed => simpa only [Machine.step, hc] using ⟨hinv, h⟩
  | advance i choice =>
    have hi := h i
    cases hc : c.control i with
    | idle => simpa only [Machine.step, hc] using ⟨hinv, h⟩
    | crashed => simpa only [Machine.step, hc] using ⟨hinv, h⟩
    | running p =>
      rw [hc] at hi
      cases p with
      | pure a =>
        simp only [Machine.step, hc]
        exact ⟨hinv, AtRest.update hstable hinv h (hsame i) (hi _ (R.rely_refl i _) hinv)⟩
      | call o next =>
        cases hexec : M.exec i o choice c.shared with
        | none => simpa only [Machine.step, hc, hexec] using ⟨hinv, h⟩
        | some rs =>
          obtain ⟨hguar, hnext⟩ := hi c.shared (R.rely_refl i _) hinv choice rs.1 rs.2 hexec
          simp only [Machine.step, hc, hexec]
          exact ⟨hguar.1, AtRest.update hstable hinv h hguar hnext⟩
  | crash i => exact ⟨hinv, AtRest.update hstable hinv h (hsame i) trivial⟩
  | env e =>
    cases he : M.env e c.shared with
    | none => simpa only [Machine.step, he] using ⟨hinv, h⟩
    | some s =>
      obtain ⟨hs, hrely⟩ := henv e c.shared s hinv he
      simp only [Machine.step, he]
      exact ⟨hs, fun j => (h j).interference hstable hinv hs (hrely j)⟩

/-- If every invocation takes an instance from rest to rest, then after every schedule the
instances that are idle are at rest. -/
theorem run_rest (hstable : ∀ i, R.Stable i (Rest i)) (s₀ : σ) (hinit : R.inv s₀)
    (hrest : ∀ i, Rest i s₀)
    (hmain : ∀ i, M.Triple R i (Rest i) (M.main i) (fun _ => Rest i))
    (henv : ∀ e s s', R.inv s → M.env e s = some s' → R.inv s' ∧ ∀ j, R.rely j s s')
    (schedule : List (Action ι Choice EnvChoice)) :
    R.inv (M.run s₀ schedule).shared ∧
      ∀ i, (M.run s₀ schedule).control i = .idle → Rest i (M.run s₀ schedule).shared := by
  have h : R.inv (M.run s₀ schedule).shared ∧
      ∀ i, M.AtRest R Rest i (M.run s₀ schedule).shared ((M.run s₀ schedule).control i) :=
    M.run_induction (motive := fun c => R.inv c.shared ∧
        ∀ i, M.AtRest R Rest i c.shared (c.control i)) s₀ ⟨hinit, hrest⟩
      (fun c a hc => AtRest.step hstable hmain henv hc.1 hc.2 a) schedule
  refine ⟨h.1, fun i hi => ?_⟩
  have hidle := h.2 i
  rw [hi] at hidle
  exact hidle

end Rest
end Machine
end PublicEndorsement.Interaction
