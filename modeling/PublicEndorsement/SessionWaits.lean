import PublicEndorsement.ProxySessions

/-!
# One session and its waits

The accept and the wait for the client are started together, by the last callback of a handshake,
and end together. While they are outstanding nothing is read and nothing is forwarded, so that
calling them off never touches a read or a write.
-/

namespace PublicEndorsement.Proxy

/-! ## What a handshake starts -/

section Starts

variable {answers : SocketAnswers} {m : Socks5State} {b : Buffer} {r : Proceeded}

/-- Either nothing is started, or it is the last that is done. -/
def StartsAtEnd (calls : List HandshakeCall) (final : Started → Prop) : Prop :=
  calls.filterMap HandshakeCall.starts? = [] ∨
    ∃ op, calls.filterMap HandshakeCall.starts? = [op] ∧ final op

/-- A machine that asks for no more bytes. Where a `BIND` was given a port it waits, or the client
could not be told the port. -/
structure Socks5State.HasStarted (m : Socks5State) (op : Started) : Prop where
  requiredSize : m.requiredSize = 0
  bind : ∀ port, op = .bind port → m.state = .kWaitAccept ∨ m.state = .kFail

theorem requestConnect_starts (answers : SocketAnswers) (b : Buffer) (addr : SockAddr) :
    ∃ calls, Socks5State.requestConnect answers.callbacks b addr =
      .returnFalse ⟨.kWaitConnect, 0, rfl⟩ b calls ∧
      calls.filterMap HandshakeCall.starts? = [.connect] :=
  ⟨_, rfl, rfl⟩

theorem requestBind_starts (h : m.requestBind answers.callbacks b = some r) :
    StartsAtEnd r.calls (fun op => r.returned = false ∧ r.machine.HasStarted op) := by
  simp only [Socks5State.requestBind, Option.bind_eq_bind, Option.bind_eq_some_iff] at h
  obtain ⟨skipped, -, port, -, bind, hbind, h⟩ := h
  obtain rfl := Option.some_injective _ hbind
  dsimp only at h
  cases hfound : (answers.getAcceptor (ntohs port.1)).1 with
  | false =>
    simp only [hfound, Bool.false_eq_true, if_false, if_true] at h
    cases h
    exact .inl rfl
  | true =>
    simp only [hfound, if_true, reduceCtorEq, if_false] at h
    obtain ⟨response, -, h⟩ := Option.bind_eq_some_iff.mp h
    split_ifs at h
    · cases h
      exact .inr ⟨_, rfl, rfl, rfl, fun _ _ => .inr rfl⟩
    · cases h
      exact .inr ⟨_, rfl, rfl, rfl, fun _ _ => .inl rfl⟩

theorem createResp_starts (callbacks : Callbacks) (isBind : Bool) :
    (createResp callbacks isBind).2.filterMap HandshakeCall.starts? = [] := by
  unfold createResp
  cases callbacks.destAddress with
  | none => rfl
  | some destAddress =>
    dsimp only
    split_ifs <;> rfl

/-- A call of `Proceed` that starts something is the last one. -/
theorem proceed_starts (h : m.proceed answers.callbacks b = some r) :
    StartsAtEnd r.calls (fun op => r.returned = false ∧ r.machine.HasStarted op) := by
  unfold Socks5State.proceed at h
  split_ifs at h
  · cases h
    exact .inl rfl
  split at h
  · simp only [Socks5State.greetingHeader, Option.bind_eq_bind, Option.bind_eq_some_iff] at h
    obtain ⟨greeting, -, h⟩ := h
    split_ifs at h <;> cases h <;> exact .inl rfl
  · simp only [Socks5State.greetingMethods, Option.bind_eq_bind, Option.bind_eq_some_iff] at h
    obtain ⟨methods, -, h⟩ := h
    split_ifs at h
    · change (if _ then _ else _) = _ at h
      split_ifs at h <;> cases h <;> exact .inl rfl
    · cases h
      exact .inl rfl
  · simp only [Socks5State.requestHeader, Option.bind_eq_bind, Option.bind_eq_some_iff] at h
    obtain ⟨header, -, h⟩ := h
    split_ifs at h <;> cases h <;> exact .inl rfl
  · obtain ⟨n, addr, port, sockAddr, -, -, rfl⟩ := Socks5State.requestAddr_inv (.inl h)
    obtain ⟨calls, hr, hcalls⟩ := requestConnect_starts answers port.2 sockAddr
    rw [hr]
    exact .inr ⟨.connect, hcalls, rfl, rfl, by rintro port ⟨⟩⟩
  · obtain ⟨n, addr, port, sockAddr, -, -, rfl⟩ := Socks5State.requestAddr_inv (.inr h)
    obtain ⟨calls, hr, hcalls⟩ := requestConnect_starts answers port.2 sockAddr
    rw [hr]
    exact .inr ⟨.connect, hcalls, rfl, rfl, by rintro port ⟨⟩⟩
  · exact requestBind_starts h
  · cases h
    exact .inl rfl
  · cases h
    exact .inl rfl
  · simp only [Socks5State.response, Option.bind_eq_bind, Option.bind_eq_some_iff] at h
    obtain ⟨response, -, h⟩ := h
    split_ifs at h <;> cases h <;>
      exact .inl (by rw [Proceeded.ofBreak, List.filterMap_append, createResp_starts]; rfl)
  · cases h
    exact .inl rfl
  · cases h
    exact .inl rfl

theorem proceedLoop_starts {fuel : ℕ} {h h' : Handshake}
    (hrun : h.proceedLoop answers.callbacks fuel = some h')
    (hcalls : h.calls.filterMap HandshakeCall.starts? = []) :
    StartsAtEnd h'.calls h'.machine.HasStarted := by
  induction fuel generalizing h with
  | zero =>
    unfold Handshake.proceedLoop at hrun
    split_ifs at hrun
    cases hrun
    exact .inl hcalls
  | succ fuel ih =>
    unfold Handshake.proceedLoop at hrun
    split_ifs at hrun
    · cases hrun
      exact .inl hcalls
    obtain ⟨r, hr, hrun⟩ := Option.bind_eq_some_iff.mp hrun
    have hstarts := proceed_starts hr
    dsimp only at hrun
    rcases hstarts with hnone | ⟨op, hop, hlast, hstarted⟩
    · have hnone : (h.calls ++ r.calls).filterMap HandshakeCall.starts? = [] := by
        rw [List.filterMap_append, hcalls, hnone, List.append_nil]
      split_ifs at hrun
      · exact ih hrun hnone
      · cases hrun
        exact .inl hnone
    · rw [hlast, if_neg Bool.false_ne_true] at hrun
      cases hrun
      refine .inr ⟨op, ?_, hstarted⟩
      rw [List.filterMap_append, hcalls, hop, List.nil_append]

theorem handler_starts {ec : Option ErrorCode} {n : ℕ} {h h' : Handshake}
    (hrun : h.socks5HandshakeHandler answers.callbacks ec n = some h') (hcalls : h.calls = []) :
    StartsAtEnd h'.calls h'.machine.HasStarted := by
  obtain ⟨b, -, hrun⟩ := Option.bind_eq_some_iff.mp hrun
  dsimp only at hrun
  split_ifs at hrun
  · cases hrun
    exact .inl (by rw [hcalls]; rfl)
  obtain ⟨h₁, hloop, hrun⟩ := Option.bind_eq_some_iff.mp hrun
  have hstarts := proceedLoop_starts hloop (by rw [hcalls]; rfl)
  split_ifs at hrun
  · obtain ⟨reserved, -, h⟩ := Option.bind_eq_some_iff.mp hrun
    cases h
    exact hstarts
  · cases hrun
    exact hstarts

end Starts

/-! ## One session -/

namespace BridgeLife

variable {life : BridgeLife}

/-- A state that a bridge on its own can reach from its first read on. -/
def Lives (life : BridgeLife) : Prop :=
  ∃ freelists first, enter freelists .performSocks5Handshake = some first ∧
    system.Reaches first life

theorem Lives.inOrder (h : life.Lives) : life.InOrder := by
  obtain ⟨freelists, first, henter, actions, hactions, hrun⟩ := h
  obtain ⟨first', henter', hfirst⟩ := enter_inOrder freelists .performSocks5Handshake
  obtain rfl := Option.some_injective _ (henter.symm.trans henter')
  obtain ⟨s, hrun', hs⟩ := system.run_invariant (fun _ a hs ha => step_inOrder a hs ha) hfirst
    hactions
  exact Option.some_injective _ (hrun'.symm.trans hrun) ▸ hs

theorem Lives.step (h : life.Lives) {a : LifeAction} (ha : life.enabled a = true) :
    ∃ life', life.step a = some life' ∧ life'.Lives := by
  obtain ⟨life', hstep, -⟩ := step_inOrder a h.inOrder ha
  obtain ⟨freelists, first, henter, hreaches⟩ := h
  exact ⟨life', hstep, freelists, first, henter,
    hreaches.trans system (.step system ha hstep (.refl system life'))⟩

theorem Lives.handshaking (h : life.Lives) (hreading : life.reading ≠ none) :
    life.Handshaking :=
  h.inOrder.resolve_right fun hforwarding => hreading hforwarding.notReading

theorem afterSession_reading {step : SessionStep} {life' : BridgeLife}
    (h : life.afterSession step = some life') : life'.reading = life.reading := by
  obtain ⟨p, -, h⟩ := Option.bind_eq_some_iff.mp h
  cases h
  rfl

/-- The handlers of the connection start no read of the handshake. -/
theorem connectHandler_reading {answers : SocketAnswers} {ec : Option ErrorCode}
    {life' : BridgeLife} (h : life.step (.connectHandler answers ec) = some life') :
    life'.reading = life.reading := by
  obtain ⟨step, -, h⟩ := Option.bind_eq_some_iff.mp h
  exact afterSession_reading h

theorem acceptInboundConnection_reading {answers : SocketAnswers} {life' : BridgeLife}
    (h : life.step (.acceptInboundConnection answers) = some life') :
    life'.reading = life.reading := by
  obtain ⟨step, -, h⟩ := Option.bind_eq_some_iff.mp h
  exact afterSession_reading h

theorem forward_reading {action : BridgeAction} {life' : BridgeLife}
    (h : life.step (.forward action) = some life') : life'.reading = life.reading := by
  obtain ⟨p, -, h⟩ := Option.bind_eq_some_iff.mp h
  cases h
  rfl

/-- The handshake has failed, and nothing is read or forwarded: with its last handler the bridge
goes, and its sockets are closed. -/
structure Dropped (life : BridgeLife) : Prop where
  failed : life.machine.state = .kFail
  handshaking : life.Handshaking
  notReading : life.reading = none

/-- A bridge that has waited for a connection forwards it, unless its handshake has failed. -/
theorem acceptInboundConnection_settles {answers : SocketAnswers} {life' : BridgeLife}
    (h : life.Handshaking) (hreading : life.reading = none)
    (hstate : life.machine.state = .kWaitAccept ∨ life.machine.state = .kFail)
    (hstep : life.step (.acceptInboundConnection answers) = some life') :
    life'.Forwarding ∨ life'.Dropped := by
  rcases hstate with hwait | hfail
  · obtain ⟨forwarding, hrun, hforwarding⟩ := h.finishHandshake answers true hwait
    obtain rfl := Option.some_injective _ (hrun.symm.trans hstep)
    exact .inl hforwarding
  · have hdropped : life.step (.acceptInboundConnection answers) =
        some { life with machine := life.machine.fail } := by
      rw [BridgeLife.step, Session.acceptInboundConnection, Session.finishHandshake,
        connectionSucceed_of_not_waiting (by rw [hfail]; rintro ⟨⟩) (by rw [hfail]; rintro ⟨⟩)]
      rfl
    obtain rfl := Option.some_injective _ (hdropped.symm.trans hstep)
    exact .inr ⟨rfl, h.fail, hreading⟩

end BridgeLife

namespace ServedBridge

variable {γ : Type} {b b' : ServedBridge γ} {answers : SocketAnswers}

/-- The session has the connection, or is about to be told of it. -/
def Holds (b : ServedBridge γ) (sock : γ) : Prop :=
  b.accept = .completed (.ok sock) ∨ b.destSock = some sock

structure Sound (b : ServedBridge γ) : Prop where
  lives : b.life.Lives
  notAborted : b.readAborted = false
  quiet : b.connecting = true ∨ b.bound ≠ none → b.life.reading = none
  apart : b.bound ≠ none → b.connecting = false
  unbound : b.bound = none → b.accept = .idle ∧ b.wait = .idle ∧ b.destSock = none
  waiting : b.accept ≠ .idle → b.life.Handshaking ∧ b.destSock = none ∧
    b.wait ≠ .completed .canceled
  bindState : b.accept ≠ .idle →
    b.life.machine.state = .kWaitAccept ∨ b.life.machine.state = .kFail
  connected : b.destSock ≠ none → b.life.Forwarding ∨ b.life.Dropped
  watched : ∀ port, b.accept = .outstanding port → b.bound = some port ∧ b.wait ≠ .idle
  calledOff : b.accept = .idle → b.wait ≠ .outstanding
  spared : ∀ op ∈ b.canceled, op = .wait

structure Keeps (b b' : ServedBridge γ) : Prop where
  outstanding : ∀ port, b'.accept = .outstanding port ↔ b.accept = .outstanding port
  bound : b'.bound = b.bound
  holds : ∀ sock, b'.Holds sock ↔ b.Holds sock

/-- Once a session was bound and its accept has completed, it takes no further connection. -/
structure Follows (b b' : ServedBridge γ) : Prop where
  bound : b.bound ≠ none → b'.bound = b.bound
  outstanding : b.bound ≠ none → (∀ port, b.accept ≠ .outstanding port) →
    ∀ port, b'.accept ≠ .outstanding port
  holds : b.bound ≠ none → (∀ port, b.accept ≠ .outstanding port) →
    ∀ sock, b'.Holds sock ↔ b.Holds sock

theorem Keeps.follows (h : Keeps b b') : Follows b b' where
  bound _ := h.bound
  outstanding _ hnot port hport := hnot port ((h.outstanding port).mp hport)
  holds _ _ := h.holds

theorem follows_of_outstanding {port : UInt16} (hport : b.accept = .outstanding port)
    (hbound : b'.bound = b.bound) : Follows b b' where
  bound _ := hbound
  outstanding _ hnot := absurd hport (hnot port)
  holds _ hnot := absurd hport (hnot port)

theorem Follows.trans {b₁ b₂ b₃ : ServedBridge γ} (h : Follows b₁ b₂) (h' : Follows b₂ b₃) :
    Follows b₁ b₃ where
  bound hne := (h'.bound (h.bound hne ▸ hne)).trans (h.bound hne)
  outstanding hne hnot := h'.outstanding (h.bound hne ▸ hne) (h.outstanding hne hnot)
  holds hne hnot sock := (h'.holds (h.bound hne ▸ hne) (h.outstanding hne hnot) sock).trans
    (h.holds hne hnot sock)

theorem Sound.bound_of_accept (h : b.Sound) (haccept : b.accept ≠ .idle) : b.bound ≠ none :=
  fun hbound => haccept (h.unbound hbound).1

theorem Sound.bound_of_wait (h : b.Sound) (hwait : b.wait ≠ .idle) : b.bound ≠ none :=
  fun hbound => hwait (h.unbound hbound).2.1

/-- Where nothing is read or forwarded, a cancel hits nothing but the wait. -/
theorem cancelClient_eq (hreading : b.life.reading = none)
    (hfresh : ∀ d, ∃ buff, b.life.bridge.flow d = { buff := buff }) :
    b.cancelClient = { b with
      wait := if b.wait = .outstanding then .completed .canceled else b.wait
      canceled := b.canceled ++ if b.wait = .outstanding then [.wait] else [] } := by
  have hflow : abortFlow b.life.bridge = b.life.bridge.flow := by
    funext d
    obtain ⟨buff, hbuff⟩ := hfresh d
    cases d with
    | upstream => rw [abortFlow, hbuff]; rfl
    | downstream => rw [abortFlow, hbuff]; rfl
  have hops : b.clientOps = if b.wait = .outstanding then [.wait] else [] := by
    obtain ⟨up, hup⟩ := hfresh .upstream
    obtain ⟨down, hdown⟩ := hfresh .downstream
    rw [clientOps, hreading, hup, hdown]
    rfl
  rw [cancelClient, hops, hflow, hreading, Option.isSome_none, Bool.or_false]

theorem holds_of_idle {sock : γ} (h : b.accept = .idle) :
    b.Holds sock ↔ b.destSock = some sock := by
  rw [Holds, h, or_iff_right]
  rintro ⟨⟩

theorem Sound.holds_of_waiting {sock : γ} (h : b.Sound) (haccept : b.accept ≠ .idle) :
    b.Holds sock ↔ b.accept = .completed (.ok sock) := by
  rw [Holds, (h.waiting haccept).2.1, or_iff_left]
  rintro ⟨⟩

theorem not_outstanding_of_idle {port : UInt16} (h : b.accept = .idle) :
    b.accept ≠ .outstanding port := by
  rw [h]
  rintro ⟨⟩

theorem not_outstanding_of_completed {port : UInt16} {result : Except ErrorCode γ}
    (h : b.accept = .completed result) : b.accept ≠ .outstanding port := by
  rw [h]
  rintro ⟨⟩

/-- A session after its accept has completed and what it waited for otherwise was called off. -/
def released (b : ServedBridge γ) : ServedBridge γ := { b with accept := .idle }.cancelClient

theorem Sound.released (h : b.Sound) (haccept : b.accept ≠ .idle) :
    b.released.Sound ∧ b.released.life = b.life ∧ b.released.destSock = none := by
  have hbound := h.bound_of_accept haccept
  obtain ⟨hhandshaking, hdest, -⟩ := h.waiting haccept
  have hreading := h.quiet (.inr hbound)
  rw [ServedBridge.released,
    cancelClient_eq (b := { b with accept := .idle }) hreading hhandshaking.fresh]
  refine ⟨⟨h.lives, h.notAborted, h.quiet, h.apart, fun hnone => absurd hnone hbound,
    fun hne => absurd rfl hne, fun hne => absurd rfl hne, fun hne => absurd hdest hne,
    by rintro port ⟨⟩, fun _ => ?_, ?_⟩, rfl, hdest⟩
  · change (if b.wait = .outstanding then .completed .canceled else b.wait) ≠ .outstanding
    split_ifs with hwait
    · rintro ⟨⟩
    · exact hwait
  · intro op hop
    rcases List.mem_append.mp hop with hop | hop
    · exact h.spared op hop
    · change op ∈ (if b.wait = .outstanding then [ClientOp.wait] else []) at hop
      split_ifs at hop
      · exact List.mem_singleton.mp hop
      · cases hop

/-- A session that is done with its accept holds what the accept has brought. -/
theorem Sound.keeps_of_completed (h : b.Sound) {result : Except ErrorCode γ}
    (haccept : b.accept = .completed result) (hidle : b'.accept = .idle)
    (hbound : b'.bound = b.bound) (hdest : ∀ sock, b'.destSock = some sock ↔ result = .ok sock) :
    Keeps b b' where
  outstanding port :=
    iff_of_false (not_outstanding_of_idle hidle) (not_outstanding_of_completed haccept)
  bound := hbound
  holds sock := by
    rw [holds_of_idle hidle, hdest, h.holds_of_waiting (by rw [haccept]; rintro ⟨⟩), haccept,
      AcceptOp.completed.injEq]

theorem acceptHandler_sound (h : b.Sound) (answers : SocketAnswers) {result : Except ErrorCode γ}
    (haccept : b.accept = .completed result) :
    ∃ b', acceptHandler answers b = some b' ∧ b'.Sound ∧ Keeps b b' := by
  have hne : b.accept ≠ .idle := by rw [haccept]; rintro ⟨⟩
  obtain ⟨hsound, hlife, hnone⟩ := h.released hne
  rw [acceptHandler, haccept]
  cases result with
  | error ec =>
    refine ⟨b.released, rfl, hsound, h.keeps_of_completed haccept rfl rfl fun sock => ?_⟩
    rw [hnone]
    exact iff_of_false (by rintro ⟨⟩) (by rintro ⟨⟩)
  | ok sock =>
    obtain ⟨life, hstep, hlives⟩ := hsound.lives.step (a := .acceptInboundConnection answers) rfl
    refine ⟨{ b.released with destSock := some sock, life := life }, ?_, ?_,
      h.keeps_of_completed haccept rfl rfl fun sock' => ?_⟩
    · change (b.released.life.step (.acceptInboundConnection answers)).bind _ = _
      rw [hstep]
      rfl
    · have hbound := h.bound_of_accept hne
      have hsettles : life.Forwarding ∨ life.Dropped :=
        BridgeLife.acceptInboundConnection_settles (h.waiting hne).1 (h.quiet (.inr hbound))
          (h.bindState hne) (hlife ▸ hstep)
      exact ⟨hlives, hsound.notAborted,
        fun hor => (BridgeLife.acceptInboundConnection_reading hstep).trans (hsound.quiet hor),
        hsound.apart, fun hnone => absurd hnone hbound, fun hne => absurd rfl hne,
        fun hne => absurd rfl hne, fun _ => hsettles, by rintro port ⟨⟩, hsound.calledOff,
        hsound.spared⟩
    · rw [Option.some_inj, Except.ok.injEq]

/-- A session whose handshake is read has started nothing yet. -/
theorem handshakeHandler_lives (h : b.Sound) {chunk : List UInt8} {ec : Option ErrorCode}
    (henabled : b.life.enabled (.socks5HandshakeHandler answers chunk ec) = true) :
    ∃ life calls, b.handshakeHandler answers chunk ec =
        some ({ b with life := life, readAborted := false }, calls) ∧
      life.Lives ∧ life.Handshaking ∧
      StartsAtEnd calls (fun op => life.reading = none ∧ life.machine.HasStarted op) ∧
      b.connecting = false ∧ b.bound = none := by
  obtain ⟨life, hstep, hlives⟩ := h.lives.step henabled
  obtain ⟨spans, hreading, hfits⟩ := (Option.any_eq_true _ _).mp henabled
  have hsome : b.life.reading ≠ none := by rw [hreading]; rintro ⟨⟩
  have hhandshaking := h.lives.handshaking hsome
  obtain ⟨buff, bytes, hcommit, hbuff, hroom⟩ :=
    hhandshaking.inOrder.commit hreading (of_decide_eq_true hfits)
  obtain ⟨h', hrun, hinv⟩ := Handshake.handler_returns
    (h := { b.life.handshake with
      upstream := b.life.handshake.upstream.writeAll ((spans.flatMap Span.cells).zip chunk) })
    answers.callbacks_complete ec hcommit hbuff hroom hhandshaking.inOrder.requiredSize
  obtain rfl : b.life.withHandshake h' = life := by
    simpa only [BridgeLife.step, BridgeLife.socks5HandshakeHandler, hreading, hrun,
      Option.bind_eq_bind, Option.bind_some, Option.some.injEq] using hstep
  refine ⟨b.life.withHandshake h', h'.calls, ?_, hlives, hhandshaking.withHandshake hinv, ?_, ?_,
    ?_⟩
  · simp only [handshakeHandler, hreading, hrun, Option.bind_eq_bind, Option.bind_some]
  · rcases handler_starts hrun rfl with hnone | ⟨op, hop, hstarted⟩
    · exact .inl hnone
    · refine .inr ⟨op, hop, ?_, hstarted⟩
      by_contra hne
      have hasks : 0 < h'.machine.requiredSize := hinv.asks hne
      exact hasks.ne' hstarted.requiredSize
  · by_contra hconnecting
    exact hsome (h.quiet (.inl (Bool.of_not_eq_false hconnecting)))
  · by_contra hbound
    exact hsome (h.quiet (.inr hbound))

/-- A session that does not wait goes on. -/
theorem Sound.goesOn (h : b.Sound) (hidle : b.accept = .idle) {life : BridgeLife}
    (hlives : life.Lives) (hreading : life.reading = b.life.reading) {connecting : Bool}
    (hconnecting : connecting = true → b.connecting = true)
    (hconnected : b.destSock ≠ none → life.Forwarding ∨ life.Dropped) :
    Sound { b with life := life, connecting := connecting } where
  lives := hlives
  notAborted := h.notAborted
  quiet hor := hreading.trans (h.quiet (hor.imp_left hconnecting))
  apart hbound := by
    have hfalse := h.apart hbound
    by_contra htrue
    rw [hconnecting (Bool.of_not_eq_false htrue)] at hfalse
    cases hfalse
  unbound := h.unbound
  waiting hne := absurd hidle hne
  bindState hne := absurd hidle hne
  connected := hconnected
  watched _ hport := absurd hport (not_outstanding_of_idle hidle)
  calledOff := h.calledOff
  spared := h.spared

/-- A session that has not been bound goes on with its handshake. -/
theorem Sound.handshakes (h : b.Sound) (hbound : b.bound = none) {life : BridgeLife}
    (hlives : life.Lives) {connecting : Bool} (hreading : connecting = true → life.reading = none) :
    Sound { b with life := life, readAborted := false, connecting := connecting } where
  lives := hlives
  notAborted := rfl
  quiet hor := hreading (hor.resolve_right fun hne => hne hbound)
  apart hne := absurd hbound hne
  unbound := h.unbound
  waiting hne := absurd (h.unbound hbound).1 hne
  bindState hne := absurd (h.unbound hbound).1 hne
  connected hne := absurd (h.unbound hbound).2.2 hne
  watched _ hport := absurd hport (not_outstanding_of_idle (h.unbound hbound).1)
  calledOff := h.calledOff
  spared := h.spared

theorem Sound.binds (h : b.Sound) (hbound : b.bound = none) (hconnecting : b.connecting = false)
    {life : BridgeLife} (hlives : life.Lives) (hhandshaking : life.Handshaking)
    (hreading : life.reading = none) (port : UInt16)
    (hstarted : life.machine.HasStarted (.bind port)) :
    Sound { b with
      life := life, readAborted := false, bound := some port, accept := .outstanding port
      wait := .outstanding } where
  lives := hlives
  notAborted := rfl
  quiet _ := hreading
  apart _ := hconnecting
  unbound := by rintro ⟨⟩
  waiting _ := ⟨hhandshaking, (h.unbound hbound).2.2, by rintro ⟨⟩⟩
  bindState _ := hstarted.bind port rfl
  connected hne := absurd (h.unbound hbound).2.2 hne
  watched _ hport := ⟨congrArg some (AcceptOp.outstanding.inj hport), by rintro ⟨⟩⟩
  calledOff := by rintro ⟨⟩
  spared := h.spared

theorem Sound.completes (h : b.Sound) {port : UInt16} (hport : b.accept = .outstanding port)
    (result : Except ErrorCode γ) : Sound { b with accept := .completed result } where
  lives := h.lives
  notAborted := h.notAborted
  quiet := h.quiet
  apart := h.apart
  unbound hbound := absurd hbound (h.bound_of_accept (by rw [hport]; rintro ⟨⟩))
  waiting _ := h.waiting (by rw [hport]; rintro ⟨⟩)
  bindState _ := h.bindState (by rw [hport]; rintro ⟨⟩)
  connected := h.connected
  watched := by rintro port ⟨⟩
  calledOff := by rintro ⟨⟩
  spared := h.spared

/-- The wait for the client ends in its own way, or its handler has run. -/
theorem Sound.waited (h : b.Sound) {wait : ClientWait} (hbound : b.bound ≠ none)
    (hwait : wait ≠ .outstanding) (hcanceled : wait ≠ .completed .canceled)
    (hidle : ∀ port, b.accept = .outstanding port → wait ≠ .idle) :
    Sound { b with wait := wait } where
  lives := h.lives
  notAborted := h.notAborted
  quiet := h.quiet
  apart := h.apart
  unbound hnone := absurd hnone hbound
  waiting hne := ⟨(h.waiting hne).1, (h.waiting hne).2.1, hcanceled⟩
  bindState := h.bindState
  connected := h.connected
  watched port hport := ⟨(h.watched port hport).1, hidle port hport⟩
  calledOff _ := hwait
  spared := h.spared

end ServedBridge

end PublicEndorsement.Proxy
