import Mathlib.Tactic

/-!
# Publishing a value once, part by part

The purpose of a generation lock in its own terms. Participants compete for a
right. The first to obtain it may start to publish one value, whose parts are
written in a fixed order. Until the last part is written nobody else obtains the
right and it is not given up; afterwards it may come and go, and nothing is
written any more.
-/

namespace PublicEndorsement.OrderedPublication

/-- Participants `ι` publish values `β`, made of parts `κ` with contents `γ`. -/
inductive Step (ι β κ γ : Type) where
  | claim (i : ι)
  | start (i : ι) (b : β)
  | write (k : κ) (c : γ)
  | release
  | remove (k : κ)

inductive Phase (ι β : Type) where
  | unclaimed
  | claimed (i : ι)
  | publishing (i : ι) (b : β) (n : ℕ)
  | published (i : ι) (b : β)

variable {ι β κ γ : Type} [DecidableEq κ]

/-- The next part of a value is not among the parts before it. -/
theorem lookup_take_eq_none {l : List (κ × γ)} (hnodup : (l.map Prod.fst).Nodup) {n : ℕ} {k : κ}
    {c : γ} (h : l[n]? = some (k, c)) : (l.take n).lookup k = none := by
  induction l generalizing n with
  | nil => simp at h
  | cons part l ih =>
    cases n with
    | zero => rfl
    | succ n =>
      rw [List.map_cons, List.nodup_cons] at hnodup
      rw [List.getElem?_cons_succ] at h
      have hmem : k ∈ l.map Prod.fst := List.mem_map_of_mem (f := Prod.fst) (List.mem_of_getElem? h)
      have hne : k ≠ part.1 := fun he => hnodup.1 (he ▸ hmem)
      rw [List.take_succ_cons, List.lookup_cons, beq_false_of_ne hne]
      exact ih hnodup.2 h

variable [DecidableEq ι] [DecidableEq γ]
variable (parts : β → List (κ × γ))

/-- The steps a phase allows; no phase allows a part to be removed. -/
def Phase.next : Phase ι β → Step ι β κ γ → Option (Phase ι β)
  | .unclaimed, .claim i => some (.claimed i)
  | .claimed i, .start j b => if j = i then some (.publishing i b 0) else none
  | .publishing i b n, .write k c =>
    if (parts b)[n]? = some (k, c) then
      if n + 1 = (parts b).length then some (.published i b) else some (.publishing i b (n + 1))
    else none
  | .published i b, .claim _ => some (.published i b)
  | .published i b, .release => some (.published i b)
  | _, _ => none

def phase (steps : List (Step ι β κ γ)) : Option (Phase ι β) :=
  steps.foldlM (Phase.next parts) .unclaimed

theorem phase_append (steps rest : List (Step ι β κ γ)) :
    phase parts (steps ++ rest) =
      (phase parts steps).bind (fun p => rest.foldlM (Phase.next parts) p) := by
  unfold phase
  rw [List.foldlM_append]
  rfl

theorem phase_snoc (steps : List (Step ι β κ γ)) (e : Step ι β κ γ) :
    phase parts (steps ++ [e]) = (phase parts steps).bind (fun p => p.next parts e) := by
  rw [phase_append]
  congr 1
  funext p
  simp [List.foldlM]

def Phase.written : Phase ι β → List (κ × γ)
  | .unclaimed => []
  | .claimed _ => []
  | .publishing _ b n => (parts b).take n
  | .published _ b => parts b

def Phase.started : Phase ι β → List (ι × β)
  | .unclaimed => []
  | .claimed _ => []
  | .publishing i b _ => [(i, b)]
  | .published i b => [(i, b)]

def Step.written? : Step ι β κ γ → Option (κ × γ)
  | .write k c => some (k, c)
  | _ => none

def Step.started? : Step ι β κ γ → Option (ι × β)
  | .start i b => some (i, b)
  | _ => none

variable {parts}

/-- What each allowed step adds to the two logs. -/
theorem next_logs {p q : Phase ι β} {e : Step ι β κ γ} (h : p.next parts e = some q) :
    q.written parts = p.written parts ++ e.written?.toList ∧
      q.started = p.started ++ e.started?.toList := by
  cases p with
  | unclaimed =>
    cases e with
    | claim i =>
      cases h
      exact ⟨rfl, rfl⟩
    | _ => simp [Phase.next] at h
  | claimed i =>
    cases e with
    | start j b =>
      simp only [Phase.next] at h
      split_ifs at h with hji
      cases h
      simp [Phase.written, Phase.started, Step.written?, Step.started?, hji]
    | _ => simp [Phase.next] at h
  | publishing i b n =>
    cases e with
    | write k c =>
      simp only [Phase.next] at h
      split_ifs at h with hk hn
      all_goals
        cases h
        have hnext : (parts b).take (n + 1) = (parts b).take n ++ [(k, c)] := by
          rw [List.take_add_one, hk]
          rfl
      · -- the last part: the written prefix is the whole value
        rw [hn, List.take_length] at hnext
        simp [Phase.written, Phase.started, Step.written?, Step.started?, ← hnext]
      · simp [Phase.written, Phase.started, Step.written?, Step.started?, hnext]
    | _ => simp [Phase.next] at h
  | published i b =>
    cases e <;> simp [Phase.next] at h <;> subst h <;>
      simp [Phase.written, Phase.started, Step.written?, Step.started?]

/-- An allowed history wrote exactly the parts its phase says, in order, and
started exactly the publication its phase names. -/
theorem phase_logs (steps : List (Step ι β κ γ)) {p : Phase ι β}
    (h : phase parts steps = some p) :
    steps.filterMap Step.written? = p.written parts ∧
      steps.filterMap Step.started? = p.started := by
  induction steps using List.reverseRecOn generalizing p with
  | nil =>
    cases h
    exact ⟨rfl, rfl⟩
  | append_singleton steps e ih =>
    rw [phase_snoc] at h
    obtain ⟨q, hq, hnext⟩ := Option.bind_eq_some_iff.mp h
    obtain ⟨hw, hs⟩ := ih hq
    obtain ⟨hw', hs'⟩ := next_logs hnext
    constructor
    · rw [List.filterMap_append, hw, hw']
      cases e <;> rfl
    · rw [List.filterMap_append, hs, hs']
      cases e <;> rfl

/-- While a value is being published, some part of it is still missing. -/
theorem publishing_lt (hparts : ∀ b, parts b ≠ []) (steps : List (Step ι β κ γ)) {i : ι} {b : β}
    {n : ℕ} (h : phase parts steps = some (.publishing i b n)) : n < (parts b).length := by
  cases steps using List.reverseRecOn with
  | nil => cases h
  | append_singleton steps e =>
    rw [phase_snoc] at h
    obtain ⟨q, -, hnext⟩ := Option.bind_eq_some_iff.mp h
    cases q with
    | unclaimed => cases e <;> simp [Phase.next] at hnext
    | claimed j =>
      cases e <;> simp [Phase.next] at hnext
      obtain ⟨-, -, -, rfl⟩ := hnext
      exact List.length_pos_iff.mpr (hparts b)
    | publishing j b' m =>
      cases e <;> simp only [Phase.next, reduceCtorEq] at hnext
      split_ifs at hnext with hpart hlast
      · cases hnext
      · cases hnext
        obtain ⟨hm, -⟩ := List.getElem?_eq_some_iff.mp hpart
        omega
    | published j b' => cases e <;> simp [Phase.next] at hnext

/-- Once everything is written the phase never changes again. -/
theorem foldlM_published (rest : List (Step ι β κ γ)) {i : ι} {b : β} {q : Phase ι β}
    (h : rest.foldlM (Phase.next parts) (.published i b) = some q) : q = .published i b := by
  induction rest with
  | nil => cases h; rfl
  | cons e rest ih =>
    rw [List.foldlM_cons] at h
    obtain ⟨p, hp, hrest⟩ := Option.bind_eq_some_iff.mp h
    have hpub : p = .published i b := by cases e <;> simp [Phase.next] at hp <;> exact hp.symm
    rw [hpub] at hrest
    exact ih hrest

theorem published_of_prefix {steps steps' : List (Step ι β κ γ)} (hpre : steps <+: steps')
    {i : ι} {b : β} (h : phase parts steps = some (.published i b)) {q : Phase ι β}
    (h' : phase parts steps' = some q) : q = .published i b := by
  obtain ⟨rest, rfl⟩ := hpre
  rw [phase_append, h] at h'
  exact foldlM_published rest h'

/-- If the parts of every value have different names, no part is written twice. -/
theorem written_nodup (hparts : ∀ b, ((parts b).map Prod.fst).Nodup)
    (steps : List (Step ι β κ γ)) {p : Phase ι β} (h : phase parts steps = some p) :
    ((steps.filterMap Step.written?).map Prod.fst).Nodup := by
  rw [(phase_logs steps h).1]
  cases p with
  | unclaimed => exact List.nodup_nil
  | claimed i => exact List.nodup_nil
  | publishing i b n => exact (hparts b).sublist ((List.take_sublist n _).map _)
  | published i b => exact hparts b

/-- At most one publication ever starts. -/
theorem started_length_le (steps : List (Step ι β κ γ)) {p : Phase ι β}
    (h : phase parts steps = some p) : (steps.filterMap Step.started?).length ≤ 1 := by
  rw [(phase_logs steps h).2]
  cases p <;> simp [Phase.started]

end PublicEndorsement.OrderedPublication
