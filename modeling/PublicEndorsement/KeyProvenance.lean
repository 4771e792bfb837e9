import PublicEndorsement.JwksRefresh

/-!
# Where the keys come from

A call that asks `OidcJwksKeyFetcher` for a key is told a key or that there is none, while
other calls load, invalidate and read the same cache. Both answers are traced back here to
a set that the issuer has delivered:

* a key is taken from the last set that was delivered, while that set may be kept;
* a call is told that there is no key only because of a set that it has read, and that is at
  most a minute old or was delivered after the call had thrown the old one away.
-/

namespace PublicEndorsement.Pes.Oidc

variable {ι Key : Type}

namespace FetcherAction

def duration : FetcherAction ι Key → ℕ
  | .tick duration => duration
  | _ => 0

def changes : FetcherAction ι Key → Bool
  | .loaded (some _) => true
  | .invalidate _ => true
  | _ => false

end FetcherAction

def elapsed (actions : List (FetcherAction ι Key)) : ℕ :=
  (actions.map FetcherAction.duration).sum

theorem elapsed_snoc (actions : List (FetcherAction ι Key)) (a : FetcherAction ι Key) :
    elapsed (actions ++ [a]) = elapsed actions + a.duration := by
  simp [elapsed]

namespace Fetcher

variable [DecidableEq ι] (keyIds : ι → String) (start : ℕ)

/-! ## What an answer rests on -/

/-- The fetch that is under way after the actions was started by the call. -/
def LoadsFor (c : ι) (past : List (FetcherAction ι Key)) : Prop :=
  ∃ s, (system keyIds).run (create start) past = some s ∧ s.loading = some c

/-- The call has read the set that was delivered between the actions: it has loaded the set
itself, or the set was the last one delivered and was still allowed to be kept when the call
asked for it. -/
def Reads (c : ι) (before : List (FetcherAction ι Key)) (jwks : Jwks Key)
    (later : List (FetcherAction ι Key)) : Prop :=
  LoadsFor keyIds start c before ∨ ∃ between rest, later = between ++ .get c :: rest ∧
    (∀ a ∈ between, a.changes = false) ∧ elapsed between < jwks.maxAgeSecs * 1000

def TookFresh (past : List (FetcherAction ι Key)) (c : ι) (key : Key) : Prop :=
  ∃ before jwks later, past = before ++ .loaded (some jwks) :: later ∧
    jwks.keys.lookup (keyIds c) = some key ∧ Reads keyIds start c before jwks later

/-- The call has found its key id missing in a set that it has read. The set was delivered after
the call had invalidated the cache, or at most a minute before the call looked at its age. -/
def GaveUp (past : List (FetcherAction ι Key)) (c : ι) : Prop :=
  ∃ before jwks later, past = before ++ .loaded (some jwks) :: later ∧
    jwks.keys.lookup (keyIds c) = none ∧
    (.invalidate c ∈ before ∧ Reads keyIds start c before jwks later ∨
      ∃ between rest, later = between ++ .check c :: rest ∧
        Reads keyIds start c before jwks between ∧ elapsed between ≤ minRefreshInterval)

/-- The entry is the last set that was delivered, and nobody has thrown it away. -/
def Cached (past : List (FetcherAction ι Key)) (now : ℕ) (e : CacheEntry Key) : Prop :=
  ∃ before jwks after, past = before ++ .loaded (some jwks) :: after ∧
    (∀ a ∈ after, a.changes = false) ∧ e.data = jwks.toData e.created ∧
    e.created + elapsed after = now

def Lacks (past : List (FetcherAction ι Key)) (now : ℕ) (c : ι) (data : JwksData Key) : Prop :=
  ∃ before jwks after, past = before ++ .loaded (some jwks) :: after ∧
    jwks.keys.lookup (keyIds c) = none ∧ Reads keyIds start c before jwks after ∧
    data.fetchedAt + elapsed after = now

def Justified (past : List (FetcherAction ι Key)) (now : ℕ) (c : ι) : CallPhase Key → Prop
  | .get again => again = true → .invalidate c ∈ past
  | .loading again => again = true → .invalidate c ∈ past
  | .check data => Lacks keyIds start past now c data
  | .invalidate _ => True
  | .done .thrown => True
  | .done (.returned (some key)) => TookFresh keyIds start past c key
  | .done (.returned none) => GaveUp keyIds start past c

structure Sourced (past : List (FetcherAction ι Key)) (s : Fetcher ι Key) : Prop where
  entry : ∀ e, s.entry = some e → Cached past s.now e
  phase : ∀ c, Justified keyIds start past s.now c (s.phase c)

variable {keyIds start} {past : List (FetcherAction ι Key)} {s s' : Fetcher ι Key} {now : ℕ}
  {c : ι}

/-! ## Later actions take nothing back -/

omit [DecidableEq ι] in
theorem Cached.snoc {e : CacheEntry Key} (h : Cached past now e) {a : FetcherAction ι Key}
    (ha : a.changes = false) : Cached (past ++ [a]) (now + a.duration) e := by
  obtain ⟨before, jwks, after, rfl, hafter, hdata, hnow⟩ := h
  refine ⟨before, jwks, after ++ [a], by simp, ?_, hdata, ?_⟩
  · intro b hb
    rcases List.mem_append.mp hb with hb | hb
    · exact hafter b hb
    · rw [List.mem_singleton.mp hb, ha]
  · rw [elapsed_snoc, ← hnow, Nat.add_assoc]

theorem Reads.snoc {before later : List (FetcherAction ι Key)} {jwks : Jwks Key}
    (h : Reads keyIds start c before jwks later) (a : FetcherAction ι Key) :
    Reads keyIds start c before jwks (later ++ [a]) := by
  rcases h with hown | ⟨between, rest, rfl, hbetween, hage⟩
  · exact .inl hown
  · exact .inr ⟨between, rest ++ [a], by simp, hbetween, hage⟩

theorem Lacks.snoc {data : JwksData Key} (h : Lacks keyIds start past now c data)
    (a : FetcherAction ι Key) : Lacks keyIds start (past ++ [a]) (now + a.duration) c data := by
  obtain ⟨before, jwks, after, rfl, hlookup, hreads, hnow⟩ := h
  refine ⟨before, jwks, after ++ [a], by simp, hlookup, hreads.snoc a, ?_⟩
  rw [elapsed_snoc, ← hnow, Nat.add_assoc]

theorem TookFresh.snoc {key : Key} (h : TookFresh keyIds start past c key)
    (a : FetcherAction ι Key) : TookFresh keyIds start (past ++ [a]) c key := by
  obtain ⟨before, jwks, later, rfl, hlookup, hreads⟩ := h
  exact ⟨before, jwks, later ++ [a], by simp, hlookup, hreads.snoc a⟩

theorem GaveUp.snoc (h : GaveUp keyIds start past c) (a : FetcherAction ι Key) :
    GaveUp keyIds start (past ++ [a]) c := by
  obtain ⟨before, jwks, later, rfl, hlookup, hread⟩ := h
  refine ⟨before, jwks, later ++ [a], by simp, hlookup, ?_⟩
  rcases hread with ⟨hinvalidated, hreads⟩ | ⟨between, rest, rfl, hreads, hage⟩
  · exact .inl ⟨hinvalidated, hreads.snoc a⟩
  · exact .inr ⟨between, rest ++ [a], by simp, hreads, hage⟩

theorem Justified.snoc {p : CallPhase Key} (h : Justified keyIds start past now c p)
    (a : FetcherAction ι Key) : Justified keyIds start (past ++ [a]) (now + a.duration) c p := by
  cases p with
  | get again => exact fun hagain => List.mem_append_left _ (h hagain)
  | loading again => exact fun hagain => List.mem_append_left _ (h hagain)
  | check data => exact Lacks.snoc h a
  | invalidate data => trivial
  | done result =>
    cases result with
    | thrown => trivial
    | returned key =>
      cases key with
      | none => exact GaveUp.snoc h a
      | some key => exact TookFresh.snoc h a

/-! ## One step -/

variable (keyIds) in
inductive Turn (s : Fetcher ι Key) (c : ι) : FetcherAction ι Key → CallPhase Key → Prop
  | hit (again : Bool) (data : JwksData Key) (hphase : s.phase c = .get again)
    (hpresent : present s.now s.entry = some data) :
    Turn s c (.get c) (afterGet (keyIds c) again data)
  | miss (again : Bool) (hphase : s.phase c = .get again) : Turn s c (.get c) (.loading again)
  | failed : Turn s c (.loaded none) (.done .thrown)
  | delivered (again : Bool) (jwks : Jwks Key) (hloading : s.loading = some c)
    (hphase : s.phase c = .loading again) :
    Turn s c (.loaded (some jwks)) (afterGet (keyIds c) again (jwks.toData s.now))
  | refreshes (data : JwksData Key) : Turn s c (.check c) (.invalidate data)
  | gaveUp (data : JwksData Key) (hphase : s.phase c = .check data)
    (hyoung : shouldAttemptRefresh s.now data = false) :
    Turn s c (.check c) (.done (.returned none))
  | invalidated : Turn s c (.invalidate c) (.get true)

variable (keyIds) in
structure Move (s : Fetcher ι Key) (a : FetcherAction ι Key) (s' : Fetcher ι Key) : Prop where
  now : s'.now = s.now + a.duration
  entry : ∀ e, s'.entry = some e → s.entry = some e ∧ a.changes = false ∨
    ∃ jwks, a = .loaded (some jwks) ∧ e = ⟨jwks.toData s.now, s.now⟩
  phase : ∀ c, s'.phase c = s.phase c ∨ Turn keyIds s c a (s'.phase c)

/-- Setting the phase of the call whose turn it is. -/
theorem phase_setPhase {a : FetcherAction ι Key} {p : CallPhase Key}
    (hphase : s'.phase = s.phase) (hturn : Turn keyIds s c a p) (c' : ι) :
    (setPhase c p s').phase c' = s.phase c' ∨ Turn keyIds s c' a ((setPhase c p s').phase c') := by
  have hset : (setPhase c p s').phase = Function.update s'.phase c p := rfl
  rw [hset, hphase]
  by_cases hc : c' = c
  · subst hc
    rw [Function.update_self]
    exact .inr hturn
  · rw [Function.update_of_ne hc]
    exact .inl rfl

theorem step_move {a : FetcherAction ι Key} (h : (system keyIds).step s a = some s') :
    Move keyIds s a s' := by
  cases a with
  | tick duration =>
    cases h
    exact ⟨rfl, fun e he => .inl ⟨he, rfl⟩, fun c => .inl rfl⟩
  | get c =>
    cases hphase : s.phase c with
    | get again =>
      cases hpresent : present s.now s.entry with
      | some data =>
        simp only [system, step, hphase, hpresent, Option.some.injEq] at h
        subst h
        exact ⟨rfl, fun e he => .inl ⟨he, rfl⟩,
          phase_setPhase rfl (.hit again data hphase hpresent)⟩
      | none =>
        simp only [system, step, hphase, hpresent, Option.some.injEq] at h
        subst h
        exact ⟨rfl, by rintro e ⟨⟩, phase_setPhase rfl (.miss again hphase)⟩
    | _ => simp [system, step, hphase] at h
  | loaded fetch =>
    obtain ⟨c, hloading, h⟩ := Option.bind_eq_some_iff.mp h
    cases hphase : s.phase c with
    | loading again =>
      cases fetch with
      | none =>
        simp only [hphase, Option.some.injEq] at h
        subst h
        exact ⟨rfl, fun e he => .inl ⟨he, rfl⟩, phase_setPhase rfl .failed⟩
      | some jwks =>
        simp only [hphase, Option.some.injEq] at h
        subst h
        refine ⟨rfl, ?_, phase_setPhase rfl (.delivered again jwks hloading hphase)⟩
        rintro e ⟨⟩
        exact .inr ⟨jwks, rfl, rfl⟩
    | _ => simp [hphase] at h
  | check c =>
    cases hphase : s.phase c with
    | check data =>
      simp only [system, step, hphase] at h
      split_ifs at h with hlate
      · cases h
        exact ⟨rfl, fun e he => .inl ⟨he, rfl⟩, phase_setPhase rfl (.refreshes data)⟩
      · cases h
        have hyoung := Bool.eq_false_iff.mpr hlate
        exact ⟨rfl, fun e he => .inl ⟨he, rfl⟩, phase_setPhase rfl (.gaveUp data hphase hyoung)⟩
    | _ => simp [system, step, hphase] at h
  | invalidate c =>
    cases hphase : s.phase c with
    | invalidate data =>
      simp only [system, step, hphase, Option.some.injEq] at h
      subst h
      exact ⟨rfl, by rintro e ⟨⟩, phase_setPhase rfl .invalidated⟩
    | _ => simp [system, step, hphase] at h

/-! ## Reading a set -/

/-- A call goes on with a set. Its key id is in the set, or it has yet to decide, or the set
is the answer to its own refresh. -/
theorem justified_afterGet {again : Bool} {data : JwksData Key}
    (hkey : ∀ key, data.keys.lookup (keyIds c) = some key → TookFresh keyIds start past c key)
    (hlacks : data.keys.lookup (keyIds c) = none → Lacks keyIds start past now c data)
    (hgaveUp : again = true → data.keys.lookup (keyIds c) = none → GaveUp keyIds start past c) :
    Justified keyIds start past now c (afterGet (keyIds c) again data) := by
  cases hlookup : data.keys.lookup (keyIds c) with
  | some key =>
    unfold afterGet
    rw [hlookup]
    exact hkey key hlookup
  | none =>
    cases again with
    | false =>
      unfold afterGet
      rw [hlookup]
      exact hlacks hlookup
    | true =>
      unfold afterGet
      rw [hlookup]
      exact hgaveUp rfl hlookup

/-- A set in the cache is read by a call. -/
theorem Cached.read {e : CacheEntry Key} (h : Cached past now e) (hlive : e.isExpired now = false)
    {again : Bool} (hagain : again = true → .invalidate c ∈ past) :
    Justified keyIds start (past ++ [.get c]) now c (afterGet (keyIds c) again e.data) := by
  obtain ⟨before, jwks, after, rfl, hafter, hdata, hnow⟩ := h
  have hage : elapsed after < jwks.maxAgeSecs * 1000 := by
    have hlive := of_decide_eq_false hlive
    rw [hdata] at hlive
    simp only [Jwks.toData, ← hnow] at hlive
    omega
  have hpast : before ++ .loaded (some jwks) :: after ++ [.get c] =
      before ++ .loaded (some jwks) :: (after ++ [FetcherAction.get c]) := by simp
  have hreads : Reads keyIds start c before jwks (after ++ [.get c]) :=
    .inr ⟨after, [], rfl, hafter, hage⟩
  rw [hdata, hpast]
  refine justified_afterGet ?_ ?_ ?_
  · intro key hlookup
    exact ⟨before, jwks, _, rfl, hlookup, hreads⟩
  · intro hlookup
    exact ⟨before, jwks, _, rfl, hlookup, hreads, by rw [elapsed_snoc]; exact hnow⟩
  · intro htrue hlookup
    refine ⟨before, jwks, _, rfl, hlookup, .inl ⟨?_, hreads⟩⟩
    -- Nothing was thrown away after the set came, so the call had done it before.
    rcases List.mem_append.mp (hagain htrue) with hbefore | hmem
    · exact hbefore
    · rcases List.mem_cons.mp hmem with heq | hmem
      · cases heq
      · exact absurd (hafter _ hmem) (by simp [FetcherAction.changes])

/-- A call reads the set that it has loaded. -/
theorem justified_delivered (hown : LoadsFor keyIds start c past) {again : Bool}
    (hagain : again = true → .invalidate c ∈ past) (jwks : Jwks Key) :
    Justified keyIds start (past ++ [.loaded (some jwks)]) now c
      (afterGet (keyIds c) again (jwks.toData now)) := by
  refine justified_afterGet ?_ ?_ ?_
  · intro key hlookup
    exact ⟨past, jwks, [], rfl, hlookup, .inl hown⟩
  · intro hlookup
    exact ⟨past, jwks, [], rfl, hlookup, .inl hown, rfl⟩
  · intro htrue hlookup
    exact ⟨past, jwks, [], rfl, hlookup, .inl ⟨hagain htrue, .inl hown⟩⟩

/-- The set that a call has found its key id missing in is at most a minute old. -/
theorem Lacks.gaveUp {data : JwksData Key} (h : Lacks keyIds start past now c data)
    (hyoung : shouldAttemptRefresh now data = false) :
    GaveUp keyIds start (past ++ [.check c]) c := by
  obtain ⟨before, jwks, after, rfl, hlookup, hreads, hnow⟩ := h
  have hage : elapsed after ≤ minRefreshInterval := by
    have hyoung := of_decide_eq_false hyoung
    omega
  exact ⟨before, jwks, after ++ [.check c], by simp, hlookup,
    .inr ⟨after, [], rfl, hreads, hage⟩⟩

/-! ## All runs -/

theorem Sourced.turn (h : Sourced keyIds start past s)
    (hrun : (system keyIds).run (create start) past = some s) {a : FetcherAction ι Key}
    {p : CallPhase Key} (hturn : Turn keyIds s c a p) :
    Justified keyIds start (past ++ [a]) (s.now + a.duration) c p := by
  cases hturn with
  | hit again data hphase hpresent =>
    obtain ⟨e, he, rfl⟩ := Option.map_eq_some_iff.mp hpresent
    obtain ⟨hentry, hlive⟩ := Option.filter_eq_some_iff.mp he
    have hget := h.phase c
    rw [hphase] at hget
    exact (h.entry e hentry).read (Bool.not_eq_true' _ ▸ hlive) hget
  | miss again hphase =>
    have hget := h.phase c
    rw [hphase] at hget
    exact fun hagain => List.mem_append_left _ (hget hagain)
  | failed => trivial
  | delivered again jwks hloading hphase =>
    have hload := h.phase c
    rw [hphase] at hload
    exact justified_delivered ⟨s, hrun, hloading⟩ hload jwks
  | refreshes data => trivial
  | gaveUp data hphase hyoung =>
    have hlacks := h.phase c
    rw [hphase] at hlacks
    exact Lacks.gaveUp hlacks hyoung
  | invalidated => exact fun _ => List.mem_append_right _ (List.mem_singleton_self _)

theorem Sourced.step (h : Sourced keyIds start past s)
    (hrun : (system keyIds).run (create start) past = some s) {a : FetcherAction ι Key}
    (hstep : (system keyIds).step s a = some s') : Sourced keyIds start (past ++ [a]) s' := by
  have hmove := step_move hstep
  constructor
  · intro e he
    rw [hmove.now]
    rcases hmove.entry e he with ⟨hold, hchanges⟩ | ⟨jwks, rfl, rfl⟩
    · exact (h.entry e hold).snoc hchanges
    · exact ⟨past, jwks, [], rfl, by simp, rfl, rfl⟩
  · intro c
    rw [hmove.now]
    rcases hmove.phase c with hsame | hturn
    · rw [hsame]
      exact (h.phase c).snoc a
    · exact h.turn hrun hturn

theorem sourced_create : Sourced keyIds start [] (create start : Fetcher ι Key) :=
  ⟨by rintro e ⟨⟩, by rintro c ⟨⟩⟩

theorem sourced_of_run {actions : List (FetcherAction ι Key)}
    (hrun : (system keyIds).run (create start) actions = some s) : Sourced keyIds start actions s :=
  (system keyIds).invariant_of_past (fun _ _ _ _ hpast h hstep => Sourced.step h hpast hstep)
    sourced_create hrun

/-- In every interleaving of any number of calls, a call that gets a key gets it from a set
that it has loaded itself or that was the last one delivered and still allowed to be kept when
it was read; and a call that gets none has read a set in this way that lacks its key id, and that
came after its own invalidation, or at most a minute before the call looked at its age. -/
theorem answers_rest_on_deliveries (keyIds : ι → String) (start : ℕ)
    (actions : List (FetcherAction ι Key)) (s : Fetcher ι Key)
    (hrun : (system keyIds).run (create start) actions = some s) (c : ι) :
    (∀ key, s.phase c = .done (.returned (some key)) → TookFresh keyIds start actions c key) ∧
    (s.phase c = .done (.returned none) → GaveUp keyIds start actions c) := by
  have hjustified := (sourced_of_run hrun).phase c
  constructor
  · intro key hphase
    rw [hphase] at hjustified
    exact hjustified
  · intro hphase
    rw [hphase] at hjustified
    exact hjustified

def demoKeyIds (c : Bool) : String := if c then "a" else "b"

def demoReads : List (FetcherAction Bool Unit) :=
  [.get false, .loaded (some demoJwks), .tick 1000, .check false, .get true]

theorem demo_answers_rest_on_deliveries :
    TookFresh demoKeyIds 0 demoReads true () ∧ GaveUp demoKeyIds 0 demoReads false :=
  ⟨(answers_rest_on_deliveries demoKeyIds 0 demoReads _ rfl true).1 () rfl,
    (answers_rest_on_deliveries demoKeyIds 0 demoReads _ rfl false).2 rfl⟩

end Fetcher
end PublicEndorsement.Pes.Oidc
