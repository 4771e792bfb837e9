import PublicEndorsement.Socks5Handshake

/-!
# What a client is told about its handshake

The handlers that end a handshake, and when the success that `Socks5State` reports is
one the client was told of.
-/

namespace PublicEndorsement.Proxy

/-- A bridge when its connection to the destination has come about. -/
structure Session where
  machine : Socks5State
  bridge : ProxyBridge

structure SessionStep where
  machine : Socks5State
  bridge : Option ProxyBridge
  calls : List HandshakeCall
  forwarding : Bool

namespace Session

def finishHandshake (callbacks : Callbacks) (s : Session) : Option SessionStep := do
  let (succeeded, m, calls) ← s.machine.connectionSucceed callbacks
  if succeeded then some ⟨m, s.bridge.forwardTraffic, calls, true⟩
  else some ⟨m, some s.bridge, calls, false⟩

def connectHandler (callbacks : Callbacks) (ec : Option ErrorCode) (s : Session) :
    Option SessionStep :=
  if ec.isSome then some ⟨s.machine, some s.bridge, [], false⟩ else s.finishHandshake callbacks

def acceptInboundConnection (callbacks : Callbacks) (s : Session) : Option SessionStep :=
  s.finishHandshake callbacks

end Session

namespace HandshakeCall

def grants : HandshakeCall → Bool
  | .response data ret => decide (data.take 3 = [0x05, 0x00, 0x00] ∧ ret = .kStatusOK)
  | _ => false

def refuses : HandshakeCall → Bool
  | .response data ret => decide (data.take 3 = [0x05, 0x01, 0x00] ∨ ret = .kStatusFail)
  | _ => false

end HandshakeCall

/-- A step enters `kSuccess` only when it granted the request, and `kFail` whenever it
refused. -/
structure Truthful (before after : HandshakeState) (calls : List HandshakeCall) : Prop where
  success : before ≠ .kSuccess → after = .kSuccess → ∃ call ∈ calls, call.grants = true
  failure : ∀ call ∈ calls, call.refuses = true → after = .kFail

/-- Every step from the given machine reports what the client was told. -/
structure ReportsTruthfully (callbacks : Callbacks) (m : Socks5State) (b : Buffer)
    (bridge : ProxyBridge) : Prop where
  proceed : ∀ r, m.proceed callbacks b = some r → Truthful m.state r.machine.state r.calls
  connectionSucceed : ∀ returned m' calls,
    m.connectionSucceed callbacks = some (returned, m', calls) →
    Truthful m.state m'.state calls ∧ (returned = true → ∃ call ∈ calls, call.grants = true)
  connectHandler : ∀ ec step, Session.connectHandler callbacks ec ⟨m, bridge⟩ = some step →
    ∀ call ∈ step.calls, call.refuses = true → step.forwarding = false
  acceptInboundConnection : ∀ step,
    Session.acceptInboundConnection callbacks ⟨m, bridge⟩ = some step →
    ∀ call ∈ step.calls, call.refuses = true → step.forwarding = false

def Callbacks.findsAddress (callbacks : Callbacks) (remote : Bool) : Bool :=
  callbacks.destAddress.any (fun destAddress => decide ((destAddress remote).1 = .kStatusOK))

/-- How the final reply is delivered; nothing, when there is no callback for it. -/
def Callbacks.delivers (callbacks : Callbacks) (isBind : Bool) : Option CallbackStatus :=
  callbacks.response.map (fun response => response (createResp callbacks isBind).1)

/-- The final reply of a state is one that grants the request, and is delivered. From
`kResponse`, a failure to deliver is noted, so that an error reply does no harm then. -/
def HandshakeState.FinalReplyArrives (callbacks : Callbacks) : HandshakeState → Prop
  | .kResponse => callbacks.delivers false = some .kStatusOK → callbacks.findsAddress false = true
  | .kWaitConnect => ∀ ret, callbacks.delivers false = some ret →
      callbacks.findsAddress false = true ∧ ret = .kStatusOK
  | .kWaitAccept => ∀ ret, callbacks.delivers true = some ret →
      callbacks.findsAddress true = true ∧ ret = .kStatusOK
  | _ => True

section

variable {callbacks : Callbacks} {m : Socks5State} {b : Buffer} {r : Proceeded}

theorem createResp_calls (callbacks : Callbacks) (isBind : Bool) :
    ∀ call ∈ (createResp callbacks isBind).2, call.grants = false ∧ call.refuses = false := by
  rw [createResp]
  cases callbacks.destAddress with
  | none => simp
  | some destAddress =>
    dsimp only
    split_ifs <;> simp [HandshakeCall.grants, HandshakeCall.refuses]

theorem createResp_take (callbacks : Callbacks) (isBind : Bool) :
    (createResp callbacks isBind).1.take 3 =
      if callbacks.findsAddress isBind then [0x05, 0x00, 0x00] else [0x05, 0x01, 0x00] := by
  rw [createResp, Callbacks.findsAddress]
  cases callbacks.destAddress with
  | none => rfl
  | some destAddress =>
    dsimp only
    split_ifs with h₁ h₂ h₂
    · rfl
    · simp [h₁] at h₂
    · simp [h₁] at h₂
    · rfl

def finalCalls (callbacks : Callbacks) (isBind : Bool) (ret : CallbackStatus) :
    List HandshakeCall :=
  (createResp callbacks isBind).2 ++ [.response (createResp callbacks isBind).1 ret]

theorem exists_grants_finalCalls {isBind : Bool} {ret : CallbackStatus} :
    (∃ call ∈ finalCalls callbacks isBind ret, call.grants = true) ↔
      callbacks.findsAddress isBind = true ∧ ret = .kStatusOK := by
  constructor
  · rintro ⟨call, hmem, hgrants⟩
    rcases List.mem_append.mp hmem with hmem | hmem
    · rw [(createResp_calls callbacks isBind call hmem).1] at hgrants
      cases hgrants
    · rw [List.mem_singleton.mp hmem, HandshakeCall.grants, createResp_take] at hgrants
      split_ifs at hgrants with hfound
      · exact ⟨hfound, (of_decide_eq_true hgrants).2⟩
      · simp at hgrants
  · rintro ⟨hfound, rfl⟩
    refine ⟨_, List.mem_append_right _ List.mem_cons_self, ?_⟩
    rw [HandshakeCall.grants, createResp_take, if_pos hfound]
    rfl

theorem exists_refuses_finalCalls {isBind : Bool} {ret : CallbackStatus} :
    (∃ call ∈ finalCalls callbacks isBind ret, call.refuses = true) ↔
      callbacks.findsAddress isBind = false ∨ ret = .kStatusFail := by
  constructor
  · rintro ⟨call, hmem, hrefuses⟩
    rcases List.mem_append.mp hmem with hmem | hmem
    · rw [(createResp_calls callbacks isBind call hmem).2] at hrefuses
      cases hrefuses
    · rw [List.mem_singleton.mp hmem, HandshakeCall.refuses, createResp_take] at hrefuses
      split_ifs at hrefuses with hfound
      · exact .inr ((of_decide_eq_true hrefuses).resolve_left (by decide))
      · exact .inl (Bool.not_eq_true _ ▸ hfound)
  · intro h
    refine ⟨_, List.mem_append_right _ List.mem_cons_self, ?_⟩
    rw [HandshakeCall.refuses, createResp_take]
    rcases h with hfound | rfl
    · simp [hfound]
    · simp

/-- Whatever its callbacks answer, a machine that waits moves on to success. -/
theorem connectionSucceed_of_waiting (callbacks : Callbacks) {isBind : Bool}
    (hm : m.state = if isBind then .kWaitAccept else .kWaitConnect) :
    m.connectionSucceed callbacks = (callbacks.delivers isBind).map (fun ret =>
      (true, ⟨.kSuccess, m.requiredSize, trivial⟩, finalCalls callbacks isBind ret)) := by
  rw [Callbacks.delivers, Option.map_map]
  cases isBind <;> cases hresponse : callbacks.response <;>
    simp [Socks5State.connectionSucceed, hm, hresponse, finalCalls, Socks5State.fail,
      apply_ite Socks5State.requiredSize]

theorem connectionSucceed_of_not_waiting (h₁ : m.state ≠ .kWaitConnect)
    (h₂ : m.state ≠ .kWaitAccept) :
    m.connectionSucceed callbacks = some (false, m.fail, []) := by
  rw [Socks5State.connectionSucceed]
  split
  · exact absurd ‹_› h₁
  · exact absurd ‹_› h₂
  · rfl

/-- A step that neither succeeds nor sends an error reply, and notes a failed delivery. -/
structure Harmless (r : Proceeded) : Prop where
  state : r.machine.state ≠ .kSuccess
  calls : ∀ call ∈ r.calls, call.refuses = true → r.machine.state = .kFail

theorem Harmless.truthful (h : Harmless r) (before : HandshakeState) :
    Truthful before r.machine.state r.calls :=
  ⟨fun _ hafter => absurd hafter h.state, h.calls⟩

theorem Harmless.of_silent (hstate : r.machine.state ≠ .kSuccess) (hcalls : r.calls = []) :
    Harmless r := by
  refine ⟨hstate, fun call hmem => ?_⟩
  rw [hcalls] at hmem
  exact absurd hmem List.not_mem_nil

theorem Truthful.refl (state : HandshakeState) : Truthful state state [] :=
  ⟨fun hne hafter => absurd hafter hne, fun _ hmem => absurd hmem List.not_mem_nil⟩

theorem greetingHeader_harmless (h : m.greetingHeader b = some r) : Harmless r := by
  simp only [Socks5State.greetingHeader, Option.bind_eq_bind, Option.bind_eq_some_iff] at h
  obtain ⟨_, -, h⟩ := h
  split_ifs at h <;> cases h <;> exact .of_silent (by rintro ⟨⟩) rfl

theorem greetingMethods_harmless (h : m.greetingMethods callbacks b = some r) : Harmless r := by
  obtain ⟨methods, calls, -, rfl | ⟨rfl, hcalls⟩⟩ := Socks5State.greetingMethods_inv h
  · exact ⟨nofun, fun _ _ _ => rfl⟩
  · refine ⟨nofun, fun call hmem hrefuses => ?_⟩
    rw [hcalls call hmem] at hrefuses
    simp [HandshakeCall.refuses] at hrefuses

theorem requestHeader_harmless (h : m.requestHeader b = some r) : Harmless r := by
  simp only [Socks5State.requestHeader, Option.bind_eq_bind, Option.bind_eq_some_iff] at h
  obtain ⟨_, -, h⟩ := h
  split_ifs at h <;> cases h <;> exact .of_silent (by rintro ⟨⟩) rfl

theorem requestConnect_harmless (addr : SockAddr) :
    Harmless (Socks5State.requestConnect callbacks b addr) := by
  rw [Socks5State.requestConnect]
  split
  · exact .of_silent (by rintro ⟨⟩) rfl
  · split <;> exact ⟨by rintro ⟨⟩, by simp [Proceeded.ofBreak, Proceeded.returnFalse,
      HandshakeCall.refuses]⟩

theorem requestAddr_harmless (h : Socks5State.requestAddrV4 callbacks b = some r ∨
    Socks5State.requestAddrV6 callbacks b = some r) : Harmless r := by
  obtain ⟨n, addr, port, sockAddr, -, -, rfl⟩ := Socks5State.requestAddr_inv h
  exact requestConnect_harmless sockAddr

theorem requestBind_harmless (h : m.requestBind callbacks b = some r) : Harmless r := by
  obtain ⟨skipped, port, -, -, ⟨calls, rfl⟩ | ⟨bound, ret, sent, hsent, rfl⟩⟩ :=
    Socks5State.requestBind_inv h
  · exact ⟨nofun, fun _ _ _ => rfl⟩
  · have htake : (Socks5State.bindResp bound).take 3 = [0x05, 0x00, 0x00] := rfl
    refine ⟨nofun, ?_⟩
    simp [Proceeded.returnFalse, HandshakeCall.refuses, hsent, htake]

theorem proceed_harmless (hm : m.state ≠ .kResponse) (h : m.proceed callbacks b = some r) :
    Truthful m.state r.machine.state r.calls := by
  rw [Socks5State.proceed] at h
  split_ifs at h with hshort
  · cases h
    exact .refl _
  · split at h
    · exact (greetingHeader_harmless h).truthful _
    · exact (greetingMethods_harmless h).truthful _
    · exact (requestHeader_harmless h).truthful _
    · exact (requestAddr_harmless (.inl h)).truthful _
    · exact (requestAddr_harmless (.inr h)).truthful _
    · exact (requestBind_harmless h).truthful _
    · cases h
      exact .refl _
    · cases h
      exact .refl _
    · exact absurd ‹_› hm
    · cases h
      exact .refl _
    · cases h
      exact (Harmless.of_silent (by rintro ⟨⟩) rfl).truthful _

theorem proceed_of_response (callbacks : Callbacks) (b : Buffer) (hm : m.state = .kResponse) :
    m.proceed callbacks b = (callbacks.delivers false).map (fun ret =>
      .ofBreak (if ret ≠ .kStatusOK then m.fail else ⟨.kSuccess, 1, trivial⟩) b
        (finalCalls callbacks false ret)) := by
  have hsize : m.requiredSize = 0 := by
    have hrequired := m.required
    rwa [hm] at hrequired
  rw [Socks5State.proceed, Socks5State.insufficientBuffer, hsize, hm, Callbacks.delivers,
    Option.map_map]
  cases hresponse : callbacks.response with
  | none => simp [Socks5State.response, hresponse]
  | some response =>
    by_cases hsent : response (createResp callbacks false).1 = .kStatusOK <;>
      simp [Socks5State.response, hresponse, finalCalls, hsent]

/-- The handlers start forwarding exactly when `ConnectionSucceed` returns true. -/
theorem reportsTruthfully_of (bridge : ProxyBridge)
    (hproceed : ∀ r, m.proceed callbacks b = some r → Truthful m.state r.machine.state r.calls)
    (hsucceed : ∀ returned m' calls, m.connectionSucceed callbacks = some (returned, m', calls) →
      Truthful m.state m'.state calls ∧
      (returned = true → ∃ call ∈ calls, call.grants = true) ∧
      ∀ call ∈ calls, call.refuses = true → returned = false) :
    ReportsTruthfully callbacks m b bridge := by
  have hfinish : ∀ step, Session.finishHandshake callbacks ⟨m, bridge⟩ = some step →
      ∀ call ∈ step.calls, call.refuses = true → step.forwarding = false := by
    intro step h
    obtain ⟨⟨returned, m', calls⟩, hrun, hstep⟩ := Option.bind_eq_some_iff.mp h
    have hrefused := (hsucceed returned m' calls hrun).2.2
    cases returned <;> cases hstep <;> exact hrefused
  refine ⟨hproceed, ?_, ?_, hfinish⟩
  · intro returned m' calls h
    obtain ⟨htruthful, hgranted, -⟩ := hsucceed returned m' calls h
    exact ⟨htruthful, hgranted⟩
  · intro ec step h
    rw [Session.connectHandler] at h
    split_ifs at h
    · cases h
      exact nofun
    · exact hfinish step h

theorem reportsTruthfully_of_not_waiting (h₁ : m.state ≠ .kWaitConnect)
    (h₂ : m.state ≠ .kWaitAccept) (bridge : ProxyBridge)
    (hproceed : ∀ r, m.proceed callbacks b = some r →
      Truthful m.state r.machine.state r.calls) :
    ReportsTruthfully callbacks m b bridge := by
  refine reportsTruthfully_of bridge hproceed ?_
  intro returned m' calls h
  rw [connectionSucceed_of_not_waiting h₁ h₂] at h
  cases h
  exact ⟨⟨nofun, nofun⟩, nofun, nofun⟩

theorem reportsTruthfully_of_waiting (isBind : Bool)
    (hm : m.state = if isBind then .kWaitAccept else .kWaitConnect) (bridge : ProxyBridge) :
    ReportsTruthfully callbacks m b bridge ↔ ∀ ret, callbacks.delivers isBind = some ret →
      callbacks.findsAddress isBind = true ∧ ret = .kStatusOK := by
  have hrun := fun ret (hret : callbacks.delivers isBind = some ret) => by
    simpa only [hret, Option.map_some] using connectionSucceed_of_waiting callbacks hm
  constructor
  · intro h ret hret
    exact exists_grants_finalCalls.mp ((h.connectionSucceed _ _ _ (hrun ret hret)).2 rfl)
  · intro h
    refine reportsTruthfully_of bridge (fun r => proceed_harmless ?_) ?_
    · rw [hm]
      cases isBind <;> decide
    · intro returned m' calls hsucceed
      rw [connectionSucceed_of_waiting callbacks hm] at hsucceed
      obtain ⟨ret, hret, hresult⟩ := Option.map_eq_some_iff.mp hsucceed
      cases hresult
      obtain ⟨hfound, rfl⟩ := h ret hret
      have hgranted := exists_grants_finalCalls.mpr ⟨hfound, rfl⟩
      have hrefused : ¬ ∃ call ∈ finalCalls callbacks isBind .kStatusOK,
          call.refuses = true := by
        rw [exists_refuses_finalCalls]
        simp [hfound]
      push Not at hrefused
      exact ⟨⟨fun _ _ => hgranted, fun call hmem hyes => absurd hyes (hrefused call hmem)⟩,
        fun _ => hgranted, fun call hmem hyes => absurd hyes (hrefused call hmem)⟩

theorem reportsTruthfully_of_response (hm : m.state = .kResponse) (bridge : ProxyBridge) :
    ReportsTruthfully callbacks m b bridge ↔
      (callbacks.delivers false = some .kStatusOK → callbacks.findsAddress false = true) := by
  constructor
  · intro h hret
    have hproceed := proceed_of_response callbacks b hm
    rw [hret, Option.map_some] at hproceed
    have hgranted := (h.proceed _ hproceed).success (by simp [hm]) rfl
    exact (exists_grants_finalCalls.mp hgranted).1
  · intro h
    refine reportsTruthfully_of_not_waiting (by simp [hm]) (by simp [hm]) bridge ?_
    intro r hr
    rw [proceed_of_response callbacks b hm] at hr
    obtain ⟨ret, hret, rfl⟩ := Option.map_eq_some_iff.mp hr
    by_cases hok : ret = .kStatusOK
    · subst hok
      have hfound := h hret
      refine ⟨fun _ _ => exists_grants_finalCalls.mpr ⟨hfound, rfl⟩, fun call hmem hyes => ?_⟩
      have hrefused := exists_refuses_finalCalls.mp ⟨call, hmem, hyes⟩
      simp [hfound] at hrefused
    · simp only [Proceeded.ofBreak, ne_eq, hok, not_false_eq_true, if_true]
      exact ⟨fun _ hafter => HandshakeState.noConfusion hafter, fun _ _ _ => rfl⟩

/-- `Socks5State` reports a success only for a handshake the client was told succeeded,
and the bridge forwards only then, exactly when the final reply grants the request and
arrives. -/
theorem reportsTruthfully_iff (callbacks : Callbacks) (m : Socks5State) (b : Buffer)
    (bridge : ProxyBridge) :
    ReportsTruthfully callbacks m b bridge ↔ m.state.FinalReplyArrives callbacks := by
  cases hm : m.state with
  | kResponse => exact reportsTruthfully_of_response hm bridge
  | kWaitConnect => exact reportsTruthfully_of_waiting false hm bridge
  | kWaitAccept => exact reportsTruthfully_of_waiting true hm bridge
  | _ =>
    refine iff_of_true (reportsTruthfully_of_not_waiting ?_ ?_ bridge ?_) trivial
    · simp [hm]
    · simp [hm]
    · exact fun r => proceed_harmless (by simp [hm])

end

def brokenPipe : Callbacks where
  response := some (fun _ => .kStatusFail)
  connect := some (fun _ => .kStatusInProgress)
  destAddress := some (fun _ => (.kStatusOK, .inet ⟨[127, 0, 0, 1], rfl⟩ ⟨[4, 0], rfl⟩))
  bind := none

/-- A machine that waits reports a success although the client was told nothing. -/
theorem success_after_failed_delivery :
    ¬ ReportsTruthfully brokenPipe ⟨.kWaitConnect, 0, rfl⟩
      (.create defaultBlockSize BufferUser.demoFreelist)
      ⟨fun _ => { buff := .create defaultBlockSize BufferUser.demoFreelist }⟩ := by
  intro h
  obtain ⟨-, hgranted⟩ := h.connectionSucceed true ⟨.kSuccess, 0, trivial⟩ _ rfl
  obtain ⟨call, hmem, hgrants⟩ := hgranted rfl
  fin_cases hmem <;> simp [HandshakeCall.grants] at hgrants

end PublicEndorsement.Proxy
