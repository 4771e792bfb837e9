import PublicEndorsement.PoolSteps

/-!
# The slots of the pool

Every handler passes its index on, and the pool grows by one slot at a time while there
is room. Two slots are taken before the size of the pool is looked at.
-/

namespace PublicEndorsement.Proxy.ClientSessionPool

variable {p : ClientSessionPool}

/-- Every handler has run with an index of both vectors, and the vector of sockets has not
outgrown what was reserved for it. -/
structure InRange (p : ClientSessionPool) : Prop where
  runs : ∀ run ∈ p.runs, run.inRange = true
  sockets : p.sockets ≤ p.capacity

structure Slotted (p : ClientSessionPool) : Prop where
  runs : ∀ run ∈ p.runs, run.inRange = true
  sockets : p.sockets ≤ p.capacity
  buffers : p.buffers.length = p.capacity
  pending : ∀ op ∈ p.pending, op.index < p.sockets

/-- A call of the handler of one of the sockets. -/
theorem Slotted.effect (h : p.Slotted) {k : ℕ} (hk : k < p.sockets) {p' : ClientSessionPool}
    (heffect : Effect k p p') : p'.Slotted := by
  obtain ⟨new, -, hruns, hnew⟩ := heffect.runs
  have hinRange : ∀ run ∈ p'.runs, run.inRange = true := by
    intro run hrun
    rw [hruns] at hrun
    rcases List.mem_append.mp hrun with hrun | hrun
    · exact h.runs run hrun
    · obtain ⟨hindex, hpool, hbuffers⟩ := hnew run hrun
      rw [HandlerRun.inRange, decide_eq_true_eq, hindex, hpool, hbuffers, h.buffers]
      exact ⟨hk, hk.trans_le h.sockets⟩
  have hbuffers : p'.buffers.length = p'.capacity := by
    rw [heffect.buffers, heffect.capacity, h.buffers]
  refine ⟨hinRange, ?_, hbuffers, heffect.pending_lt hk h.pending⟩
  rw [heffect.capacity]
  cases heffect.awaits with
  | nothing hpending hsockets => exact hsockets ▸ h.sockets
  | again handler hpending hsockets => exact hsockets ▸ h.sockets
  | grown hpending hsockets hlast hroom => exact hsockets ▸ hroom

/-- One completion. -/
theorem Slotted.of_step (p p' : ClientSessionPool) (a : PoolAction) (h : p.Slotted)
    (hstep : system.step p a = some p') : p'.Slotted := by
  rcases step_cases hstep with ⟨-, rfl⟩ | ⟨i, op, completion, -, hop, hdispatch⟩
  · exact ⟨h.runs, h.sockets, h.buffers, h.pending⟩
  · have hrest : ({ p with pending := p.pending.eraseIdx i } : ClientSessionPool).Slotted :=
      ⟨h.runs, h.sockets, h.buffers, fun op' hop' => h.pending op' (List.mem_of_mem_eraseIdx hop')⟩
    exact hrest.effect (h.pending op (List.mem_of_getElem? hop)) (effect_of_dispatch hdispatch)

theorem Slotted.step (p : ClientSessionPool) (a : PoolAction) (h : p.Slotted)
    (henabled : system.enabled p a = true) : ∃ p', system.step p a = some p' ∧ p'.Slotted := by
  obtain ⟨p', hstep⟩ := exists_step henabled
  exact ⟨p', hstep, h.of_step p p' a hstep⟩

theorem startBind_spec {io : StartIO} (h : startBind io = some p) :
    p.sockets = 1 ∧ p.runs = [] := by
  simp only [startBind, Option.bind_eq_bind, Option.bind_eq_some_iff] at h
  obtain ⟨_, -, _, -, _, -, _, -, _, -, _, -, _, -, h⟩ := h
  cases h
  exact ⟨rfl, rfl⟩

/-- What a successful `Start` leaves behind. -/
theorem start_spec {io : StartIO} (hstart : start io = some p) {type : MessageType} {backlog : ℤ}
    (hbacklog : io.listenRequest = .ok (type, backlog)) :
    p.sockets = 2 ∧ p.capacity = (min backlog kMaxConnections).toNat ∧
      p.buffers.length = p.capacity ∧ p.runs = [] ∧
      p.pending = [⟨.handle2ndResp, 0⟩, ⟨.handleConnect, 1⟩] := by
  obtain ⟨p₁, hbind, hlisten⟩ := Option.bind_eq_some_iff.mp hstart
  obtain ⟨hsockets, hruns⟩ := startBind_spec hbind
  simp only [startListen, hbacklog, Except.toOption, Option.bind_eq_bind, Option.bind_some,
    Option.bind_eq_some_iff] at hlisten
  obtain ⟨_, -, _, -, _, -, hlisten⟩ := hlisten
  cases hlisten
  have hmin : (if backlog > kMaxConnections then kMaxConnections else backlog) =
      min backlog kMaxConnections := by
    split_ifs <;> omega
  simp only [hmin, List.length_replicate, hsockets, hruns, and_self]

/-- The second slot is in use from the start. -/
theorem slotted_start {io : StartIO} (hstart : start io = some p) {type : MessageType}
    {backlog : ℤ} (hbacklog : io.listenRequest = .ok (type, backlog)) (htwo : 2 ≤ backlog) :
    p.Slotted := by
  obtain ⟨hsockets, hcapacity, hbuffers, hruns, hpending⟩ := start_spec hstart hbacklog
  refine ⟨by simp [hruns], ?_, hbuffers, ?_⟩
  · rw [hsockets, hcapacity, kMaxConnections]
    omega
  · rw [hpending, hsockets]
    simp

/-- In whatever order and with whatever outcome the operations of a started pool complete,
its handlers keep to their slots and the pool to its capacity, exactly when the backlog
asked for has room for the two slots that `Start` takes. -/
theorem inRange_iff (io : StartIO) (p : ClientSessionPool) (hstart : start io = some p)
    (type : MessageType) (backlog : ℤ) (hbacklog : io.listenRequest = .ok (type, backlog)) :
    (∀ actions, system.schedulable p actions = true →
      ∃ p', system.run p actions = some p' ∧ p'.InRange) ↔ 2 ≤ backlog := by
  constructor
  · intro h
    obtain ⟨p', hrun, hinRange⟩ := h [] rfl
    obtain ⟨hsockets, hcapacity, -⟩ := start_spec hstart hbacklog
    cases hrun
    have hle := hinRange.sockets
    rw [hsockets, hcapacity] at hle
    omega
  · intro htwo actions hactions
    obtain ⟨p', hrun, hslotted⟩ :=
      system.run_invariant Slotted.step (slotted_start hstart hbacklog htwo) hactions
    exact ⟨p', hrun, hslotted.runs, hslotted.sockets⟩

def demoStart (backlog : ℤ) : StartIO where
  bindRequest := .ok (.kBindRequest, 80)
  connect := none
  writeBindRequest := none
  proxyResp := .ok ⟨[0x05, 0x00, 0x05, 0x00, 0x00, 0x01, 0x00, 0x00, 0x00, 0x00, 0x00, 0x50], rfl⟩
  writeBindResponse := none
  listenRequest := .ok (.kListenRequest, backlog)
  writeListenResponse := none

theorem demo_inRange_iff : ∃ p, start (demoStart 64) = some p ∧
    ∀ actions, system.schedulable p actions = true →
      ∃ p', system.run p actions = some p' ∧ p'.InRange :=
  ⟨_, rfl, (inRange_iff (demoStart 64) _ rfl .kListenRequest 64 rfl).mpr (by decide)⟩

/-- A backlog of one: the handler of the second socket runs beyond the end of `buffers_`. -/
theorem backlog_one_out_of_range : ∃ p, start (demoStart 1) = some p ∧
    ∃ actions p', system.schedulable p actions = true ∧ system.run p actions = some p' ∧
      ⟨.handleConnect, 1, 2, 1⟩ ∈ p'.runs ∧ ¬ p'.InRange := by
  refine ⟨_, rfl, [.complete 1 (.connected none none)], _, rfl, rfl, by decide, ?_⟩
  intro h
  exact absurd h.sockets (by decide)

end PublicEndorsement.Proxy.ClientSessionPool
