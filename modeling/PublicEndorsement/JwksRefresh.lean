import PublicEndorsement.JwksCache

/-!
# How often the key set is fetched, and when it is lost

The age that is checked is that of the set a call has seen, but what is invalidated is the
set that is in the cache by then; and it is invalidated before the next one is there.
-/

namespace PublicEndorsement.Pes.Oidc

variable {Key : Type}

/-! ## Fetches of interleaved calls -/

/-- No fetch starts less than the refresh interval after the one before it has completed. -/
def Spacing : FetchEvent → FetchEvent → Prop
  | .completed c, .started s => c + minRefreshInterval ≤ s
  | _, _ => True

namespace Fetcher

variable {ι : Type} {s s' : Fetcher ι Key}

/-- The issuer answers, and allows its keys to be kept for at least a minute. -/
def healthy : FetcherAction ι Key → Bool
  | .loaded fetch => fetch.any (fun jwks => decide (60 ≤ jwks.maxAgeSecs))
  | _ => true

/-- A call that invalidates finds no set in the cache, or one that is older than the refresh
interval. -/
def careful (s : Fetcher ι Key) : FetcherAction ι Key → Bool
  | .invalidate _ => s.entry.all (fun e => shouldAttemptRefresh s.now e.data)
  | _ => true

structure Paced (s : Fetcher ι Key) : Prop where
  chain : s.history.IsChain Spacing
  loading : s.loading.isSome → ∃ t, s.history.getLast? = some (.started t)
  resting : s.loading = none → ∀ e ∈ s.history.getLast?, ∃ c, e = .completed c ∧
    (s.entry = none → c + minRefreshInterval ≤ s.now) ∧
    ∀ entry, s.entry = some entry →
      entry.data.fetchedAt = c ∧ entry.created = c ∧ 60 ≤ entry.data.maxAgeSecs

theorem paced_create (now : ℕ) : (create now : Fetcher ι Key).Paced :=
  ⟨List.isChain_nil, by simp [create], by simp [create]⟩

/-- A `get` that finds nothing comes a minute after the last fetch. -/
theorem Paced.le_of_miss (h : s.Paced) (hloading : s.loading = none)
    (hmiss : present s.now s.entry = none) {c : ℕ}
    (hlast : s.history.getLast? = some (.completed c)) : c + minRefreshInterval ≤ s.now := by
  obtain ⟨c', hc', hnone, hsome⟩ := h.resting hloading _ hlast
  cases hc'
  cases hentry : s.entry with
  | none => exact hnone hentry
  | some entry =>
    obtain ⟨-, hcreated, hage⟩ := hsome entry hentry
    rw [hentry, present, Option.map_eq_none_iff, Option.filter_eq_none_iff] at hmiss
    have hexpired := hmiss entry rfl
    simp only [CacheEntry.isExpired, Bool.not_eq_true, Bool.not_eq_false', decide_eq_true_eq,
      hcreated] at hexpired
    rw [minRefreshInterval]
    omega

inductive Effect (s s' : Fetcher ι Key) : FetcherAction ι Key → Prop
  | tick (duration : ℕ) (hnow : s'.now = s.now + duration) (hentry : s'.entry = s.entry)
    (hloading : s'.loading = s.loading) (hhistory : s'.history = s.history) :
    Effect s s' (.tick duration)
  | hit (a : FetcherAction ι Key) (hnow : s'.now = s.now) (hentry : s'.entry = s.entry)
    (hloading : s'.loading = s.loading) (hhistory : s'.history = s.history) : Effect s s' a
  | miss (c : ι) (hmiss : present s.now s.entry = none) (hnow : s'.now = s.now)
    (hentry : s'.entry = none) (hloading : s'.loading = some c)
    (hhistory : s'.history = s.history ++ [.started s.now]) : Effect s s' (.get c)
  | loaded (jwks : Jwks Key) (hnow : s'.now = s.now)
    (hentry : s'.entry = some ⟨jwks.toData s.now, s.now⟩) (hloading : s'.loading = none)
    (hhistory : s'.history = s.history ++ [.completed s.now]) : Effect s s' (.loaded (some jwks))
  | failed (hnow : s'.now = s.now) (hentry : s'.entry = s.entry) (hloading : s'.loading = none)
    (hhistory : s'.history = s.history ++ [.failed s.now]) : Effect s s' (.loaded none)
  | invalidated (c : ι) (hnow : s'.now = s.now) (hentry : s'.entry = none)
    (hloading : s'.loading = s.loading) (hhistory : s'.history = s.history) :
    Effect s s' (.invalidate c)

/-- A step that leaves the cache and the history alone. -/
theorem Paced.congr (h : s.Paced) (hnow : s.now ≤ s'.now) (hentry : s'.entry = s.entry)
    (hloading : s'.loading = s.loading) (hhistory : s'.history = s.history) : s'.Paced := by
  refine ⟨hhistory ▸ h.chain, ?_, ?_⟩
  · rw [hloading, hhistory]
    exact h.loading
  · rw [hloading, hhistory, hentry]
    intro hnone e he
    obtain ⟨c, hc, hempty, hfull⟩ := h.resting hnone e he
    exact ⟨c, hc, fun hentry' => (hempty hentry').trans hnow, hfull⟩

theorem Paced.effect (h : s.Paced) {a : FetcherAction ι Key} (hhealthy : healthy a = true)
    (hcareful : careful s a = true) (hidle : ∀ c, a = .get c → s.loading = none)
    (heffect : Effect s s' a) : s'.Paced := by
  cases heffect with
  | tick duration hnow hentry hloading hhistory =>
    exact h.congr (hnow ▸ Nat.le_add_right _ _) hentry hloading hhistory
  | hit _ hnow hentry hloading hhistory => exact h.congr hnow.ge hentry hloading hhistory
  | miss c hmiss hnow hentry hloading hhistory =>
    refine ⟨?_, ?_, ?_⟩
    · rw [hhistory]
      refine List.isChain_append.mpr ⟨h.chain, List.isChain_singleton _, ?_⟩
      intro e he _ hstarted
      cases hstarted
      obtain ⟨c', rfl, -⟩ := h.resting (hidle c rfl) e he
      exact h.le_of_miss (hidle c rfl) hmiss he
    · intro _
      exact ⟨s.now, by rw [hhistory, List.getLast?_concat]⟩
    · intro hnone
      rw [hloading] at hnone
      cases hnone
  | loaded jwks hnow hentry hloading hhistory =>
    have hage : 60 ≤ jwks.maxAgeSecs := by simpa [healthy] using hhealthy
    refine ⟨?_, ?_, ?_⟩
    · rw [hhistory]
      refine List.isChain_append.mpr ⟨h.chain, List.isChain_singleton _, ?_⟩
      intro e _ _ hcompleted
      cases hcompleted
      cases e <;> trivial
    · simp [hloading]
    · intro _ e he
      rw [hhistory, List.getLast?_concat] at he
      cases he
      refine ⟨s.now, rfl, by simp [hentry], ?_⟩
      intro entry hsome
      rw [hentry] at hsome
      cases hsome
      exact ⟨rfl, rfl, hage⟩
  | failed hnow hentry hloading hhistory => simp [healthy] at hhealthy
  | invalidated c hnow hentry hloading hhistory =>
    refine ⟨hhistory ▸ h.chain, ?_, ?_⟩
    · rw [hloading, hhistory]
      exact h.loading
    · rw [hloading, hhistory, hnow]
      intro hnone e he
      obtain ⟨c', hc', hempty, hfull⟩ := h.resting hnone e he
      refine ⟨c', hc', fun _ => ?_, by simp [hentry]⟩
      cases hbefore : s.entry with
      | none => exact hempty hbefore
      | some entry =>
        -- What is removed was fetched more than the interval ago.
        have hold : shouldAttemptRefresh s.now entry.data = true := by
          simpa [careful, hbefore] using hcareful
        rw [shouldAttemptRefresh, decide_eq_true_eq, (hfull entry hbefore).1] at hold
        exact hold.le

variable [DecidableEq ι] {keyIds : ι → String}

/-- An enabled step succeeds. -/
theorem exists_step {a : FetcherAction ι Key} (h : (system keyIds).enabled s a = true) :
    ∃ s', (system keyIds).step s a = some s' ∧ Effect s s' a := by
  cases a with
  | tick duration => exact ⟨_, rfl, .tick duration rfl rfl rfl rfl⟩
  | get c =>
    cases hphase : s.phase c with
    | get again =>
      cases hpresent : present s.now s.entry with
      | some data =>
        refine ⟨s.resume keyIds c again data, ?_, .hit _ rfl rfl rfl rfl⟩
        simp [system, step, hphase, hpresent]
      | none =>
        simp only [system, step, hphase, hpresent]
        exact ⟨_, rfl, .miss c hpresent rfl rfl rfl rfl⟩
    | _ => simp [system, enabled, hphase] at h
  | loaded fetch =>
    obtain ⟨c, hc, hloading⟩ := (Option.any_eq_true _ _).mp h
    cases hphase : s.phase c with
    | loading again =>
      cases fetch with
      | none =>
        simp only [system, step, hc, Option.bind_eq_bind, Option.bind_some, hphase]
        exact ⟨_, rfl, .failed rfl rfl rfl rfl⟩
      | some jwks =>
        simp only [system, step, hc, Option.bind_eq_bind, Option.bind_some, hphase]
        exact ⟨_, rfl, .loaded jwks rfl rfl rfl rfl⟩
    | _ => simp [hphase] at hloading
  | check c =>
    cases hphase : s.phase c with
    | check data =>
      simp only [system, step, hphase]
      split
      · exact ⟨_, rfl, .hit _ rfl rfl rfl rfl⟩
      · exact ⟨_, rfl, .hit _ rfl rfl rfl rfl⟩
    | _ => simp [system, enabled, hphase] at h
  | invalidate c =>
    cases hphase : s.phase c with
    | invalidate data =>
      simp only [system, step, hphase]
      exact ⟨_, rfl, .invalidated c rfl rfl rfl rfl⟩
    | _ => simp [system, enabled, hphase] at h

theorem Paced.step (a : FetcherAction ι Key) (h : s.Paced) (hhealthy : healthy a = true)
    (henabled : ((system keyIds).restrict careful).enabled s a = true) :
    ∃ s', (system keyIds).step s a = some s' ∧ s'.Paced := by
  simp only [GuardedSystem.restrict, Bool.and_eq_true] at henabled
  obtain ⟨hable, hcareful⟩ := henabled
  obtain ⟨s', hstep, heffect⟩ := exists_step hable
  refine ⟨s', hstep, h.effect hhealthy hcareful ?_ heffect⟩
  rintro c rfl
  simp only [system, enabled, Bool.and_eq_true, Option.isNone_iff_eq_none] at hable
  exact hable.1

/-- While the issuer answers, no fetch starts less than the refresh interval after the
previous one has completed, in any interleaving of any number of calls in which every call
that invalidates finds no set in the cache or one that is older than the interval. -/
theorem fetches_spaced (keyIds : ι → String) (now : ℕ) (actions : List (FetcherAction ι Key))
    (hhealthy : ∀ a ∈ actions, healthy a = true)
    (hactions : ((system keyIds).restrict careful).schedulable (create now) actions = true) :
    ∃ s, (system keyIds).run (create now) actions = some s ∧ s.history.IsChain Spacing := by
  obtain ⟨s, hrun, hpaced⟩ := ((system keyIds).restrict careful).run_invariant_of_past
    (fun _ s => s.Paced)
    (fun past s a rest hall h henabled => h.step a (hhealthy a (by simp [hall])) henabled)
    (List.nil_append actions).symm (paced_create now) hactions
  exact ⟨s, by rw [← GuardedSystem.run_restrict, hrun], hpaced.chain⟩

def demoJwks : Jwks Unit := ⟨[("a", ())], 3600⟩

def demoCalls : List (FetcherAction Bool Unit) :=
  [.get false, .loaded (some demoJwks), .tick 60001, .check false, .invalidate false,
    .get false, .loaded (some demoJwks)]

theorem demo_fetches_spaced : ∃ s,
    (system (fun _ => "b")).run (create 0 : Fetcher Bool Unit) demoCalls = some s ∧
    s.history.IsChain Spacing :=
  fetches_spaced (fun _ => "b") 0 demoCalls (by decide) (by decide)

/-- Two calls have seen the old set; the second removes what the first has just fetched. -/
def demoRace : List (FetcherAction Bool Unit) :=
  [.get false, .loaded (some demoJwks), .tick 60001, .get true, .check false, .check true,
    .invalidate false, .get false, .loaded (some demoJwks), .invalidate true, .get true]

theorem refetch_within_a_minute : ∃ s, (∀ a ∈ demoRace, healthy a = true) ∧
    (system (fun _ => "b")).schedulable (create 0 : Fetcher Bool Unit) demoRace = true ∧
    (system (fun _ => "b")).run (create 0) demoRace = some s ∧ ¬ s.history.IsChain Spacing := by
  refine ⟨_, by decide, by decide, rfl, ?_⟩
  intro hchain
  have hhistory : List.IsChain Spacing ([.started 0, .completed 0, .started 60001,
      .completed 60001] ++ [.started 60001]) := hchain
  have hspacing : Spacing (.completed 60001) (.started 60001) :=
    (List.isChain_append.mp hhistory).2.2 _ rfl _ rfl
  simp [Spacing, minRefreshInterval] at hspacing

/-- A `get` of a call that is not disturbed. -/
theorem reaches_get {c : ι} {again : Bool} (hphase : s.phase c = .get again)
    (hloading : s.loading = none) (fetch : Option (Jwks Key)) :
    ∃ s', (system keyIds).Reaches s s' ∧ s'.now = s.now ∧ s'.loading = none ∧
      s'.entry = (cacheGet s.now fetch s.entry).entry ∧
      s'.phase c = ((cacheGet s.now fetch s.entry).data.map (afterGet (keyIds c) again)).getD
        (.done .thrown) := by
  have henabled : (system keyIds).enabled s (.get c) = true := by
    simp [system, enabled, hloading, hphase]
  cases hpresent : present s.now s.entry with
  | some data =>
    have hstep : (system keyIds).step s (.get c) = some (s.resume keyIds c again data) := by
      simp only [system, step, hphase, hpresent]
    refine ⟨_, .step _ henabled hstep (.refl _ _), rfl, hloading, ?_, ?_⟩
    · simp [cacheGet, hpresent, resume, setPhase]
    · simp [cacheGet, hpresent, resume, setPhase]
  | none =>
    obtain ⟨s₁, hs₁⟩ : ∃ s₁, s₁ = setPhase c (.loading again)
        { s with entry := none, loading := some c, history := s.history ++ [.started s.now] } :=
      ⟨_, rfl⟩
    have hstep : (system keyIds).step s (.get c) = some s₁ := by
      simp only [system, step, hphase, hpresent, hs₁]
    have hbusy : s₁.loading = some c := by rw [hs₁]; rfl
    have hphase₁ : s₁.phase c = .loading again := by simp [hs₁, setPhase]
    have henabled₁ : (system keyIds).enabled s₁ (.loaded fetch) = true := by
      simp [system, enabled, hbusy, hphase₁]
    cases fetch with
    | none =>
      have hstep₁ : (system keyIds).step s₁ (.loaded none) = some (setPhase c (.done .thrown)
          { s₁ with loading := none, history := s₁.history ++ [.failed s₁.now] }) := by
        simp only [system, step, hbusy, Option.bind_eq_bind, Option.bind_some, hphase₁]
      refine ⟨_, .step _ henabled hstep (.step _ henabled₁ hstep₁ (.refl _ _)), ?_, rfl, ?_, ?_⟩
      · rw [hs₁]
        rfl
      · simp [cacheGet, hpresent, hs₁, setPhase]
      · simp [cacheGet, hpresent, setPhase]
    | some jwks =>
      have hnow : s₁.now = s.now := by rw [hs₁]; rfl
      have hstep₁ : (system keyIds).step s₁ (.loaded (some jwks)) = some (resume keyIds c again
          (jwks.toData s.now) { s₁ with
            entry := some ⟨jwks.toData s.now, s.now⟩
            loading := none
            history := s₁.history ++ [.completed s₁.now] }) := by
        simp only [system, step, hbusy, Option.bind_eq_bind, Option.bind_some, hphase₁, hnow]
      refine ⟨_, .step _ henabled hstep (.step _ henabled₁ hstep₁ (.refl _ _)), hnow, rfl, ?_, ?_⟩
      · simp [cacheGet, hpresent, resume, setPhase]
      · simp [cacheGet, hpresent, resume, setPhase]

theorem afterGet_true (keyId : String) (data : JwksData Key) :
    afterGet keyId true data = .done (.returned (data.keys.lookup keyId)) := by
  cases h : data.keys.lookup keyId <;> simp [afterGet, h]

/-- The refresh of a call that is not disturbed. -/
theorem reaches_refresh {c : ι} {data : JwksData Key} (hphase : s.phase c = .check data)
    (hloading : s.loading = none) (hlate : shouldAttemptRefresh s.now data = true)
    (fetch : Option (Jwks Key)) :
    ∃ s', (system keyIds).Reaches s s' ∧ s'.now = s.now ∧
      s'.entry = (cacheGet s.now fetch none).entry ∧
      s'.phase c = ((cacheGet s.now fetch none).data.map (afterGet (keyIds c) true)).getD
        (.done .thrown) := by
  obtain ⟨s₁, hs₁⟩ : ∃ s₁, s₁ = s.setPhase c (.invalidate data) := ⟨_, rfl⟩
  obtain ⟨s₂, hs₂⟩ : ∃ s₂, s₂ = setPhase c (.get true) { s₁ with entry := none } := ⟨_, rfl⟩
  have hphase₁ : s₁.phase c = .invalidate data := by simp [hs₁, setPhase]
  have hloading₁ : s₁.loading = none := by rw [hs₁]; exact hloading
  have hphase₂ : s₂.phase c = .get true := by simp [hs₂, setPhase]
  have hloading₂ : s₂.loading = none := by rw [hs₂]; exact hloading₁
  have hnow₂ : s₂.now = s.now := by rw [hs₂, hs₁]; rfl
  have hentry₂ : s₂.entry = none := by rw [hs₂]; rfl
  obtain ⟨s', hreach, hnow, -, hentry, hdone⟩ := reaches_get hphase₂ hloading₂ fetch
  rw [hnow₂, hentry₂] at hentry hdone
  have hcheck : (system keyIds).step s (.check c) = some s₁ := by
    simp [system, step, hphase, hlate, hs₁]
  have hinvalidate : (system keyIds).step s₁ (.invalidate c) = some s₂ := by
    simp [system, step, hphase₁, hs₂]
  refine ⟨s', .step _ ?_ hcheck (.step _ ?_ hinvalidate hreach), hnow.trans hnow₂, hentry, hdone⟩
  · simp [system, enabled, hphase]
  · simp [system, enabled, hloading₁, hphase₁]

/-- A call that is not disturbed goes the way of the sequential function. -/
theorem reaches_getKey {c : ι} (hphase : s.phase c = .get false) (hloading : s.loading = none)
    (first second : Option (Jwks Key)) :
    ∃ s', (system keyIds).Reaches s s' ∧ s'.now = s.now ∧
      s'.entry = (getKey ⟨s.now, keyIds c, first, second⟩ s.entry).entry ∧
      s'.phase c = .done (getKey ⟨s.now, keyIds c, first, second⟩ s.entry).result := by
  obtain ⟨s₁, hreach₁, hnow₁, hloading₁, hentry₁, hphase₁⟩ := reaches_get hphase hloading first
  rw [getKey]
  dsimp only
  cases hdata : (cacheGet s.now first s.entry).data with
  | none =>
    rw [hdata] at hphase₁
    exact ⟨s₁, hreach₁, hnow₁, hentry₁, hphase₁⟩
  | some data =>
    rw [hdata, Option.map_some, Option.getD_some] at hphase₁
    dsimp only
    cases hlookup : data.keys.lookup (keyIds c) with
    | some key =>
      simp only [afterGet, hlookup] at hphase₁
      exact ⟨s₁, hreach₁, hnow₁, hentry₁, hphase₁⟩
    | none =>
      simp only [afterGet, hlookup] at hphase₁
      by_cases hlate : shouldAttemptRefresh s.now data = true
      · obtain ⟨s₂, hreach₂, hnow₂, hentry₂, hphase₂⟩ :=
          reaches_refresh hphase₁ hloading₁ (hnow₁ ▸ hlate) second
        rw [hnow₁] at hnow₂ hentry₂ hphase₂
        refine ⟨s₂, hreach₁.trans _ hreach₂, hnow₂, ?_⟩
        simp only [if_pos hlate]
        cases hagain : (cacheGet s.now second none).data with
        | none =>
          rw [hagain] at hphase₂
          exact ⟨hentry₂, hphase₂⟩
        | some data' =>
          rw [hagain, Option.map_some, Option.getD_some, afterGet_true] at hphase₂
          exact ⟨hentry₂, hphase₂⟩
      · have hstep : (system keyIds).step s₁ (.check c) =
            some (s₁.setPhase c (.done (.returned none))) := by
          simp [system, step, hphase₁, hnow₁, hlate]
        have henabled : (system keyIds).enabled s₁ (.check c) = true := by
          simp [system, enabled, hphase₁]
        refine ⟨_, hreach₁.trans _ (.step _ henabled hstep (.refl _ _)), hnow₁, ?_, ?_⟩
        · simp only [if_neg hlate]
          exact hentry₁
        · simp [hlate, setPhase]

end Fetcher

/-! ## Fetches that fail -/

/-- The calls made so far, one after the other: `last` is what the last successful fetch has
delivered, and `since` are the calls that came after it. -/
structure CallLog (Key : Type) where
  entry : Option (CacheEntry Key)
  last : Option (JwksData Key)
  since : List (KeyCall Key)

namespace CallLog

def empty : CallLog Key := ⟨none, none, []⟩

def record (log : CallLog Key) (call : KeyCall Key) : CallLog Key :=
  let served := getKey call log.entry
  match served.delivered with
  | some data => ⟨served.entry, some data, []⟩
  | none => ⟨served.entry, log.last, log.since ++ [call]⟩

def ofCalls (calls : List (KeyCall Key)) : CallLog Key := calls.foldl record empty

/-- No call has asked for a key id that the set lacks, more than the refresh interval after
the set was fetched. -/
def Quiet (data : JwksData Key) (calls : List (KeyCall Key)) : Prop :=
  ∀ call ∈ calls, data.keys.lookup call.keyId = none →
    call.time ≤ data.fetchedAt + minRefreshInterval

end CallLog

def JwksData.Fresh (t : ℕ) (data : JwksData Key) : Prop :=
  t < data.fetchedAt + data.maxAgeSecs * 1000

theorem present_of_fresh {t : ℕ} {data : JwksData Key} (h : data.Fresh t) :
    present t (some ⟨data, data.fetchedAt⟩) = some data := by
  have hlive : CacheEntry.isExpired t ⟨data, data.fetchedAt⟩ = false :=
    decide_eq_false (Nat.not_le.mpr h)
  simp [present, hlive]

theorem JwksData.Fresh.mono {t t' : ℕ} {data : JwksData Key} (h : data.Fresh t) (hle : t' ≤ t) :
    data.Fresh t' :=
  hle.trans_lt h

inductive CallEffect (call : KeyCall Key) (entry : Option (CacheEntry Key)) (r : Served Key) : Prop
  | delivered (data : JwksData Key) (hdelivered : r.delivered = some data)
    (hfetched : data.fetchedAt = call.time) (hentry : r.entry = some ⟨data, call.time⟩)
  | kept (data : JwksData Key) (hdelivered : r.delivered = none)
    (hpresent : present call.time entry = some data) (hentry : r.entry = entry)
    (hfine : data.keys.lookup call.keyId = none →
      call.time ≤ data.fetchedAt + minRefreshInterval)
  | dropped (data : JwksData Key) (hdelivered : r.delivered = none)
    (hpresent : present call.time entry = some data) (hentry : r.entry = none)
    (hmissing : data.keys.lookup call.keyId = none)
    (hlate : data.fetchedAt + minRefreshInterval < call.time)
  | absent (hdelivered : r.delivered = none) (hpresent : present call.time entry = none)
    (hentry : r.entry = none)

theorem getKey_effect (call : KeyCall Key) (entry : Option (CacheEntry Key)) :
    CallEffect call entry (getKey call entry) := by
  rw [getKey]
  cases hpresent : present call.time entry with
  | none =>
    cases hfetch : call.firstFetch with
    | none =>
      simp only [cacheGet, hpresent]
      exact .absent rfl hpresent rfl
    | some jwks =>
      -- A set that has just been loaded is not refreshed.
      have hyoung : shouldAttemptRefresh call.time (jwks.toData call.time) = false := by
        simp [shouldAttemptRefresh, Jwks.toData]
      simp only [cacheGet, hpresent, hyoung]
      cases (jwks.toData call.time).keys.lookup call.keyId <;>
        exact .delivered (jwks.toData call.time) rfl rfl rfl
  | some data =>
    cases hlookup : data.keys.lookup call.keyId with
    | some key =>
      simp only [cacheGet, hpresent, hlookup]
      exact .kept data rfl hpresent rfl (by simp [hlookup])
    | none =>
      by_cases hlate : shouldAttemptRefresh call.time data = true
      · have hempty : present call.time (none : Option (CacheEntry Key)) = none := rfl
        cases hfetch : call.secondFetch with
        | none =>
          simp only [cacheGet, hpresent, hlookup, hlate, hempty]
          exact .dropped data rfl hpresent rfl hlookup (of_decide_eq_true hlate)
        | some jwks =>
          simp only [cacheGet, hpresent, hlookup, hlate, hempty]
          exact .delivered (jwks.toData call.time) rfl rfl rfl
      · simp only [cacheGet, hpresent, hlookup, hlate]
        exact .kept data rfl hpresent rfl (fun _ => Nat.not_lt.mp (fun hlt =>
          hlate (decide_eq_true hlt)))

theorem exists_entry_of_present {t : ℕ} {entry : Option (CacheEntry Key)} {data : JwksData Key}
    (h : present t entry = some data) : ∃ created, entry = some ⟨data, created⟩ := by
  obtain ⟨e, he, rfl⟩ := Option.map_eq_some_iff.mp h
  obtain ⟨hentry, -⟩ := Option.filter_eq_some_iff.mp he
  exact ⟨e.created, hentry⟩

namespace CallLog

variable {log : CallLog Key} {call : KeyCall Key} {data : JwksData Key}

/-- The cache holds the last set or nothing; as long as the set may be kept, it holds it
exactly when no call has made it be dropped. -/
structure Keeps (t : ℕ) (log : CallLog Key) : Prop where
  held : ∀ e, log.entry = some e → log.last = some e.data ∧ e.created = e.data.fetchedAt
  kept : ∀ data, log.last = some data → data.Fresh t →
    (log.entry.isSome = true ↔ Quiet data log.since)

theorem quiet_snoc {calls : List (KeyCall Key)} :
    Quiet data (calls ++ [call]) ↔ Quiet data calls ∧
      (data.keys.lookup call.keyId = none → call.time ≤ data.fetchedAt + minRefreshInterval) := by
  simp [Quiet, or_imp, forall_and]

theorem Keeps.record {t : ℕ} (h : log.Keeps t) (htime : call.time ≤ t) :
    (log.record call).Keeps t := by
  have heffect := getKey_effect call log.entry
  rw [CallLog.record]
  cases heffect with
  | delivered data hdelivered hfetched hentry =>
    simp only [hdelivered, hentry]
    refine ⟨?_, ?_⟩
    · rintro e he
      cases he
      exact ⟨rfl, hfetched.symm⟩
    · intro data' _ _
      simp [Quiet]
  | kept data hdelivered hpresent hentry hfine =>
    obtain ⟨created, hstored⟩ := exists_entry_of_present hpresent
    have hlast := (h.held _ hstored).1
    simp only [hdelivered, hentry]
    refine ⟨h.held, ?_⟩
    intro data' hdata' hfresh
    obtain rfl : data = data' := Option.some_injective _ (hlast.symm.trans hdata')
    rw [h.kept data hdata' hfresh, quiet_snoc, and_iff_left hfine]
  | dropped data hdelivered hpresent hentry hmissing hlate =>
    obtain ⟨created, hstored⟩ := exists_entry_of_present hpresent
    have hlast := (h.held _ hstored).1
    simp only [hdelivered, hentry]
    refine ⟨by simp, ?_⟩
    intro data' hdata' _
    obtain rfl : data = data' := Option.some_injective _ (hlast.symm.trans hdata')
    rw [quiet_snoc]
    simp [hmissing, hlate]
  | absent hdelivered hpresent hentry =>
    simp only [hdelivered, hentry]
    refine ⟨by simp, ?_⟩
    intro data hdata hfresh
    -- The cache was empty before: the set would still be there.
    have hempty : log.entry = none := by
      cases hstored : log.entry with
      | none => rfl
      | some e =>
        obtain ⟨e, created⟩ := e
        obtain ⟨hlast, hcreated⟩ := h.held _ hstored
        obtain rfl : e = data := Option.some_injective _ (hlast.symm.trans hdata)
        change created = e.fetchedAt at hcreated
        rw [hstored, hcreated, present_of_fresh (hfresh.mono htime)] at hpresent
        cases hpresent
    have hloud := h.kept data hdata hfresh
    rw [hempty] at hloud
    rw [quiet_snoc, ← hloud]
    simp

theorem keeps_ofCalls {t : ℕ} {calls : List (KeyCall Key)}
    (htimes : ∀ call ∈ calls, call.time ≤ t) : (ofCalls calls).Keeps t := by
  have hrun : ∀ log : CallLog Key, log.Keeps t → (calls.foldl CallLog.record log).Keeps t := by
    induction calls with
    | nil => exact fun log h => h
    | cons call calls ih =>
      intro log h
      exact ih (fun c hc => htimes c (List.mem_cons_of_mem _ hc)) _
        (h.record (htimes call List.mem_cons_self))
  exact hrun empty ⟨by simp [empty], by simp [empty]⟩

end CallLog

/-- A key of the last set that was fetched, asked for while the set may be kept, is returned
whatever another fetch would deliver, exactly when since then no call has asked for a key
id that the set lacks more than the refresh interval after the set was fetched. -/
theorem known_key_returned_iff (calls : List (KeyCall Key)) (t : ℕ)
    (htimes : (calls.map KeyCall.time ++ [t]).Pairwise (· ≤ ·)) (data : JwksData Key)
    (hlast : (CallLog.ofCalls calls).last = some data) (k : String) (key : Key)
    (hkey : data.keys.lookup k = some key) (hfresh : data.Fresh t) :
    (∀ first second, (getKey ⟨t, k, first, second⟩ (CallLog.ofCalls calls).entry).result =
      .returned (some key)) ↔ CallLog.Quiet data (CallLog.ofCalls calls).since := by
  have hbefore : ∀ call ∈ calls, call.time ≤ t := by
    intro call hcall
    exact (List.pairwise_append.mp htimes).2.2 _ (List.mem_map_of_mem hcall) t (by simp)
  have hkeeps := CallLog.keeps_ofCalls hbefore
  rw [← hkeeps.kept data hlast hfresh]
  constructor
  · intro h
    by_contra hempty
    rw [Bool.not_eq_true, Option.isSome_eq_false_iff, Option.isNone_iff_eq_none] at hempty
    have hthrown := h none none
    rw [hempty] at hthrown
    cases hthrown
  · intro hsome first second
    obtain ⟨⟨data', created⟩, hentry⟩ := Option.isSome_iff_exists.mp hsome
    obtain ⟨hlast', hcreated⟩ := hkeeps.held _ hentry
    obtain rfl : data' = data := Option.some_injective _ (hlast'.symm.trans hlast)
    change created = data'.fetchedAt at hcreated
    rw [hentry, hcreated, getKey]
    simp only [cacheGet, present_of_fresh hfresh, hkey]

def demoQuiet : List (KeyCall Unit) :=
  [⟨0, "a", some Fetcher.demoJwks, none⟩, ⟨30000, "b", none, none⟩]

theorem demo_known_key_returned_iff :
    (CallLog.ofCalls demoQuiet).last = some (Fetcher.demoJwks.toData 0) ∧
    ∀ first second, (getKey ⟨60002, "a", first, second⟩ (CallLog.ofCalls demoQuiet).entry).result =
      .returned (some ()) := by
  refine ⟨rfl, (known_key_returned_iff demoQuiet 60002 (by decide) (Fetcher.demoJwks.toData 0) rfl
    "a" () rfl ?_).mpr ?_⟩
  · rw [JwksData.Fresh]
    decide
  · intro call hcall _
    obtain rfl : call = ⟨30000, "b", none, none⟩ := List.mem_singleton.mp hcall
    decide

def demoOutage : List (KeyCall Unit) :=
  [⟨0, "a", some Fetcher.demoJwks, none⟩, ⟨60001, "b", none, none⟩]

theorem known_key_lost :
    (demoOutage.map KeyCall.time ++ [60002]).Pairwise (· ≤ ·) ∧
    (CallLog.ofCalls demoOutage).last = some (Fetcher.demoJwks.toData 0) ∧
    (Fetcher.demoJwks.toData 0).keys.lookup "a" = some () ∧
    (Fetcher.demoJwks.toData 0).Fresh 60002 ∧
    (getKey ⟨60002, "a", none, none⟩ (CallLog.ofCalls demoOutage).entry).result = .thrown := by
  refine ⟨by decide, rfl, rfl, ?_, rfl⟩
  rw [JwksData.Fresh]
  decide

end PublicEndorsement.Pes.Oidc
