import PublicEndorsement.GuardedSystem

/-!
# The acceptors shared by all sessions

`AcceptorPool` keeps a listening socket for each port that a session has asked for. A
call looks the port up under a read lock, and if it is not there binds and inserts it
under a write lock; other calls may come in between.
-/

namespace PublicEndorsement.Proxy

structure Acceptor where
  bound : Option UInt16 := none
  listening : Bool := false
  deriving DecidableEq

structure BindOutcome where
  bind : Bool
  localEndpoint : Bool
  listen : Bool
  chosen : UInt16
  chosen_ne : chosen ≠ 0

def BindOutcome.succeeds (outcome : BindOutcome) : Bool :=
  outcome.bind && outcome.localEndpoint && outcome.listen

def bindListen (outcome : BindOutcome) (acceptor : Acceptor) (port : UInt16) :
    Acceptor × UInt16 :=
  if outcome.bind = false then (acceptor, 0)
  else
    let bound := if port = 0 then outcome.chosen else port
    let acceptor := { acceptor with bound := some bound }
    if outcome.localEndpoint = false then (acceptor, 0)
    else if outcome.listen = false then (acceptor, 0)
    else ({ acceptor with listening := true }, bound)

abbrev AcceptorMap := UInt16 → Option Acceptor

def AcceptorMap.tryEmplace (pool : AcceptorMap) (key : UInt16) (acceptor : Acceptor) :
    AcceptorMap :=
  if (pool key).isSome then pool else Function.update pool key (some acceptor)

structure GetResult where
  acceptor : Option UInt16
  port : UInt16
  deriving DecidableEq

/-- The first part of `GetAcceptor`, under the read lock. -/
def findAcceptor (pool : AcceptorMap) (port : UInt16) : Option GetResult :=
  if (pool port).isSome then some ⟨some port, port⟩ else none

/-- The second part, under the write lock. -/
def insertAcceptor (outcome : BindOutcome) (pool : AcceptorMap) (port : UInt16) :
    AcceptorMap × GetResult :=
  if port = 0 then
    let (acceptor, boundPort) := bindListen outcome {} port
    (pool.tryEmplace boundPort acceptor, ⟨some boundPort, boundPort⟩)
  else
    let inserted := (pool port).isNone
    let pool := pool.tryEmplace port {}
    if inserted then
      let (acceptor, boundPort) := bindListen outcome {} port
      -- `BindListen` works on the entry itself.
      let pool := Function.update pool port (some acceptor)
      if boundPort = 0 then (Function.update pool port none, ⟨none, port⟩)
      else (pool, ⟨some port, port⟩)
    else (pool, ⟨some port, port⟩)

/-- The pool, the calls that are between their two locks with the port they asked for, and
what the last step returned to its caller. -/
structure AcceptorPool (ι : Type) where
  pool : AcceptorMap := fun _ => none
  missed : ι → Option UInt16 := fun _ => none
  returned : Option GetResult := none

inductive AcceptorAction (ι : Type) where
  | find (caller : ι) (port : UInt16)
  | insert (caller : ι) (outcome : BindOutcome)

namespace AcceptorPool

variable {ι : Type} [DecidableEq ι]

def system : GuardedSystem (AcceptorPool ι) (AcceptorAction ι) where
  enabled s
    | .find caller _ => (s.missed caller).isNone
    | .insert caller _ => (s.missed caller).isSome
  step s
    | .find caller port =>
      match findAcceptor s.pool port with
      | some result => some { s with returned := some result }
      | none => some
        { s with missed := Function.update s.missed caller (some port), returned := none }
    | .insert caller outcome =>
      (s.missed caller).map (fun port =>
        { pool := (insertAcceptor outcome s.pool port).1
          missed := Function.update s.missed caller none
          returned := some (insertAcceptor outcome s.pool port).2 })

end AcceptorPool

/-- An entry as it is meant to be: its acceptor listens on the port that is its key. -/
def AcceptorMap.Listens (pool : AcceptorMap) (port : UInt16) : Prop :=
  port ≠ 0 ∧ pool port = some ⟨some port, true⟩

def AcceptorMap.AllListen (pool : AcceptorMap) : Prop :=
  ∀ port, (pool port).isSome → pool.Listens port

namespace AcceptorPool

variable {ι : Type} [DecidableEq ι]

def Binds (s : AcceptorPool ι) (action : AcceptorAction ι) (outcome : BindOutcome) : Prop :=
  ∃ caller port, action = .insert caller outcome ∧ s.missed caller = some port ∧
    (port = 0 ∨ s.pool port = none)

structure KeepsPool (s : AcceptorPool ι) (action : AcceptorAction ι) (s' : AcceptorPool ι) :
    Prop where
  entries : s'.pool.AllListen
  returned : ∀ result key, s'.returned = some result → result.acceptor = some key →
    result.port = key ∧ s'.pool.Listens key
  failure : ∀ outcome, s.Binds action outcome → outcome.succeeds = false →
    s'.pool = s.pool ∧ ∃ port, s'.returned = some ⟨none, port⟩

def Chooses (s : AcceptorPool ι) (action : AcceptorAction ι) : Prop :=
  ∀ caller outcome, action = .insert caller outcome → s.missed caller = some 0 →
    outcome.succeeds = true

end AcceptorPool

section Insert

variable {outcome : BindOutcome} {pool : AcceptorMap} {port : UInt16}

theorem bindListen_of_succeeds (h : outcome.succeeds = true) (port : UInt16) :
    bindListen outcome {} port =
      (⟨some (if port = 0 then outcome.chosen else port), true⟩,
        if port = 0 then outcome.chosen else port) := by
  simp only [BindOutcome.succeeds, Bool.and_eq_true] at h
  simp [bindListen, h]

theorem bindListen_of_fails (h : outcome.succeeds = false) (acceptor : Acceptor)
    (port : UInt16) : (bindListen outcome acceptor port).2 = 0 := by
  rw [bindListen]
  split_ifs <;> simp_all [BindOutcome.succeeds]

/-- A new entry that listens leaves the others as they are. -/
theorem AcceptorMap.AllListen.update (hpool : pool.AllListen) (hport : port ≠ 0) :
    AllListen (Function.update pool port (some ⟨some port, true⟩)) := by
  intro key hkey
  by_cases h : key = port
  · subst h
    exact ⟨hport, Function.update_self ..⟩
  · rw [Function.update_of_ne h] at hkey
    rw [Listens, Function.update_of_ne h]
    exact hpool key hkey

theorem AcceptorMap.AllListen.tryEmplace (hpool : pool.AllListen) (hport : port ≠ 0) :
    (pool.tryEmplace port ⟨some port, true⟩).AllListen := by
  rw [AcceptorMap.tryEmplace]
  split_ifs
  · exact hpool
  · exact hpool.update hport

theorem AcceptorMap.isSome_tryEmplace (pool : AcceptorMap) (port : UInt16)
    (acceptor : Acceptor) : (pool.tryEmplace port acceptor port).isSome = true := by
  rw [AcceptorMap.tryEmplace]
  split_ifs with h
  · exact h
  · rw [Function.update_self]
    rfl

theorem insertAcceptor_zero (outcome : BindOutcome) (pool : AcceptorMap) :
    insertAcceptor outcome pool 0 =
      (pool.tryEmplace (bindListen outcome {} 0).2 (bindListen outcome {} 0).1,
        ⟨some (bindListen outcome {} 0).2, (bindListen outcome {} 0).2⟩) := if_pos rfl

theorem insertAcceptor_present (outcome : BindOutcome) (hport : port ≠ 0)
    (hpresent : (pool port).isSome = true) :
    insertAcceptor outcome pool port = (pool, ⟨some port, port⟩) := by
  have hinserted : (pool port).isNone = false := by
    rw [← Option.not_isSome, hpresent]
    rfl
  simp [insertAcceptor, hport, hinserted, AcceptorMap.tryEmplace, hpresent]

theorem insertAcceptor_fails (hport : port ≠ 0) (habsent : pool port = none)
    (h : outcome.succeeds = false) : insertAcceptor outcome pool port = (pool, ⟨none, port⟩) := by
  have hpool : Function.update pool port none = pool := by
    rw [← habsent, Function.update_eq_self]
  simp [insertAcceptor, hport, habsent, AcceptorMap.tryEmplace, bindListen_of_fails h, hpool]

theorem insertAcceptor_succeeds (hport : port ≠ 0) (habsent : pool port = none)
    (h : outcome.succeeds = true) : insertAcceptor outcome pool port =
      (Function.update pool port (some ⟨some port, true⟩), ⟨some port, port⟩) := by
  simp [insertAcceptor, hport, habsent, AcceptorMap.tryEmplace, bindListen_of_succeeds h]

end Insert

namespace AcceptorPool

variable {ι : Type} {s s' : AcceptorPool ι} {action : AcceptorAction ι} {caller : ι}
  {outcome : BindOutcome}

/-- A step that puts an entry in order and returns it. -/
theorem keepsPool_of_listens {port : UInt16} (hentries : s'.pool.AllListen)
    (hlistens : (s'.pool port).isSome = true) (hreturned : s'.returned = some ⟨some port, port⟩)
    (hbinds : ∀ outcome, s.Binds action outcome → outcome.succeeds = true) :
    KeepsPool s action s' := by
  refine ⟨hentries, ?_, ?_⟩
  · intro result key hresult hkey
    rw [hreturned] at hresult
    cases hresult
    cases hkey
    exact ⟨rfl, hentries port hlistens⟩
  · intro outcome hbind hfails
    rw [hbinds outcome hbind] at hfails
    cases hfails

theorem not_binds_find {port : UInt16} : ¬ s.Binds (.find caller port) outcome := by
  rintro ⟨_, _, h, -⟩
  cases h

/-- A port that the system was to choose and did not is filed under 0. -/
theorem insert_zero_keepsPool_iff (hpool : s.pool.AllListen)
    (hs' : s'.pool = (insertAcceptor outcome s.pool 0).1)
    (hreturned : s'.returned = some (insertAcceptor outcome s.pool 0).2) :
    KeepsPool s (.insert caller outcome) s' ↔ outcome.succeeds = true := by
  rw [insertAcceptor_zero] at hs' hreturned
  cases h : outcome.succeeds with
  | false =>
    rw [bindListen_of_fails h] at hs'
    refine iff_of_false (fun hkeeps => ?_) Bool.false_ne_true
    have hbad := hkeeps.entries 0
    rw [hs'] at hbad
    exact (hbad (AcceptorMap.isSome_tryEmplace ..)).1 rfl
  | true =>
    rw [bindListen_of_succeeds h, if_pos rfl] at hs' hreturned
    refine iff_of_true (keepsPool_of_listens ?_ ?_ hreturned ?_) rfl
    · rw [hs']
      exact hpool.tryEmplace outcome.chosen_ne
    · rw [hs']
      exact AcceptorMap.isSome_tryEmplace ..
    · rintro _ ⟨_, _, ⟨⟩, -⟩
      exact h

theorem insert_keepsPool {port : UInt16} (hpool : s.pool.AllListen) (hport : port ≠ 0)
    (hmissed : s.missed caller = some port)
    (hs' : s'.pool = (insertAcceptor outcome s.pool port).1)
    (hreturned : s'.returned = some (insertAcceptor outcome s.pool port).2) :
    KeepsPool s (.insert caller outcome) s' := by
  cases hentry : s.pool port with
  | some acceptor =>
    have hpresent : (s.pool port).isSome = true := by rw [hentry]; rfl
    rw [insertAcceptor_present outcome hport hpresent] at hs' hreturned
    refine keepsPool_of_listens (hs' ▸ hpool) (hs' ▸ hpresent) hreturned ?_
    rintro _ ⟨_, port', ⟨⟩, hport', hnew⟩
    obtain rfl : port = port' := Option.some_injective _ (hmissed.symm.trans hport')
    simp [hport, hentry] at hnew
  | none =>
    cases h : outcome.succeeds with
    | false =>
      rw [insertAcceptor_fails hport hentry h] at hs' hreturned
      refine ⟨hs' ▸ hpool, ?_, fun _ _ _ => ⟨hs', port, hreturned⟩⟩
      intro result key hresult hkey
      rw [hreturned] at hresult
      cases hresult
      cases hkey
    | true =>
      rw [insertAcceptor_succeeds hport hentry h] at hs' hreturned
      refine keepsPool_of_listens ?_ ?_ hreturned ?_
      · rw [hs']
        exact hpool.update hport
      · simp [hs']
      · rintro _ ⟨_, _, ⟨⟩, -⟩
        exact h

variable [DecidableEq ι]

/-- A step of a pool that is in order. -/
theorem step_keepsPool_iff (hpool : s.pool.AllListen) (hstep : system.step s action = some s') :
    KeepsPool s action s' ↔ s.Chooses action := by
  cases action with
  | find caller port =>
    refine iff_of_true ?_ nofun
    cases hfound : findAcceptor s.pool port with
    | some result =>
      simp only [system, hfound] at hstep
      cases hstep
      rw [findAcceptor] at hfound
      split_ifs at hfound with hpresent
      cases hfound
      exact keepsPool_of_listens hpool hpresent rfl (fun _ h => absurd h not_binds_find)
    | none =>
      simp only [system, hfound] at hstep
      cases hstep
      exact ⟨hpool, nofun, fun _ h => absurd h not_binds_find⟩
  | insert caller outcome =>
    obtain ⟨port, hmissed, rfl⟩ := Option.map_eq_some_iff.mp hstep
    by_cases hport : port = 0
    · subst hport
      rw [insert_zero_keepsPool_iff hpool rfl rfl]
      constructor
      · rintro h _ _ ⟨⟩ -
        exact h
      · exact fun h => h caller outcome rfl hmissed
    · refine iff_of_true (insert_keepsPool hpool hport hmissed rfl rfl) ?_
      rintro _ _ ⟨⟩ hzero
      exact absurd (Option.some_injective _ (hmissed.symm.trans hzero)) hport

/-- Whatever sessions ask for, in whichever order, and whatever the system answers: each
step leaves a pool whose entries listen on their keys, returns only these, and fails
without a trace, exactly when each time the system is to choose a port it does so. -/
theorem keepsPool_iff (actions : List (AcceptorAction ι))
    (hactions : system.schedulable ({} : AcceptorPool ι) actions = true) :
    system.EveryStep KeepsPool ({} : AcceptorPool ι) actions ↔
      system.EveryStep (fun s action _ => s.Chooses action) ({} : AcceptorPool ι) actions := by
  refine system.everyStep_congr (fun s => s.pool.AllListen) ?_ nofun hactions
  intro s s' action hpool _ hstep
  exact ⟨step_keepsPool_iff hpool hstep, KeepsPool.entries⟩

def exhausted : BindOutcome := ⟨false, true, true, 0x8000, by decide⟩

/-- A session is given an acceptor that listens nowhere. -/
theorem keeps_failed_acceptor :
    system.schedulable ({} : AcceptorPool Unit) [.find () 0, .insert () exhausted] = true ∧
    ¬ system.EveryStep KeepsPool ({} : AcceptorPool Unit)
      [.find () 0, .insert () exhausted] := by
  refine ⟨rfl, fun h => ?_⟩
  obtain ⟨-, h⟩ := (system.everyStep_cons rfl).mp h
  obtain ⟨hkeeps, -⟩ := (system.everyStep_cons rfl).mp h
  exact (hkeeps.entries 0 rfl).1 rfl

/-- The next session finds it there. -/
example : ((system (ι := Unit)).run {} [.find () 0, .insert () exhausted, .find () 0]).map
    AcceptorPool.returned = some (some ⟨some 0, 0⟩) := rfl

def spare : BindOutcome := ⟨true, true, true, 0x8000, by decide⟩

/-- One session is given a port, while port 80 is refused to another. -/
theorem demo_keepsPool : system.EveryStep KeepsPool ({} : AcceptorPool Bool)
    [.find true 0, .find false 80, .insert true spare, .insert false exhausted] := by
  refine (keepsPool_iff _ rfl).mpr ?_
  refine (system.everyStep_cons rfl).mpr ⟨nofun, (system.everyStep_cons rfl).mpr ⟨nofun,
    (system.everyStep_cons rfl).mpr ⟨?_, (system.everyStep_cons rfl).mpr ⟨?_, trivial⟩⟩⟩⟩
  · rintro _ _ ⟨⟩ -
    rfl
  · rintro _ _ ⟨⟩ hzero
    exact absurd hzero (by decide)

end AcceptorPool
end PublicEndorsement.Proxy
