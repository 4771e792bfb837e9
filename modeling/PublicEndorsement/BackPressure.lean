import PublicEndorsement.BridgeLife
import PublicEndorsement.BridgeResults
import PublicEndorsement.HandshakeProgress

/-!
# How much a bridge buffers

A read is started only while its direction has room, and what it may still deliver is
counted together with what is buffered. This sum is bounded from the first read of the
handshake on, whatever client and destination do.
-/

namespace PublicEndorsement.Proxy

namespace Flow

variable {initial : List UInt8} {f f' : Flow}

/-- The data of a direction with all that its outstanding read may add. -/
structure Backed (f : Flow) : Prop where
  idle : f.reading = false → f.reads = []
  bounded : f.buff.dataSize + (f.reads.map AsyncOp.size).sum <
    kMaxBufferSize + kReadSize + defaultBlockSize.capacity

namespace Backed

theorem scheduleRead (h : f.Backed) (hrun : f.scheduleRead = some f') : f'.Backed := by
  rw [Flow.scheduleRead] at hrun
  split_ifs at hrun with hwants
  · obtain ⟨⟨spans, total, b⟩, hreserve, hone⟩ := Option.bind_eq_some_iff.mp hrun
    cases hone
    obtain ⟨hidle, -, -, hroom⟩ := wantsRead_iff.mp hwants
    obtain ⟨hdata, hspans⟩ := BasicBuffer.reserveAtLeast_size hreserve
    refine ⟨fun hfalse => Bool.noConfusion hfalse, ?_⟩
    change b.dataSize + ((f.reads ++ [AsyncOp.start spans]).map AsyncOp.size).sum < _
    rw [h.idle hidle, List.nil_append, List.map_singleton, List.sum_singleton]
    change b.dataSize + (spans.map Span.len).sum < _
    omega
  · cases hrun
    exact h

theorem scheduleWrite (h : f.Backed) (hrun : f.scheduleWrite = some f') : f'.Backed := by
  rw [Flow.scheduleWrite] at hrun
  split_ifs at hrun with hwants
  · obtain ⟨⟨spans, b⟩, hpeek, hone⟩ := Option.bind_eq_some_iff.mp hrun
    cases hone
    refine ⟨h.idle, ?_⟩
    change b.dataSize + (f.reads.map AsyncOp.size).sum < _
    rw [BasicBuffer.dataSize_peek hpeek]
    exact h.bounded
  · cases hrun
    exact h

theorem receive {i : ℕ} {bytes : List UInt8} {ec : Option ErrorCode} (h : f.Backed)
    (hrun : f.receive i bytes ec = some f') : f'.Backed := by
  obtain ⟨op, hop, rfl⟩ := Option.map_eq_some_iff.mp hrun
  obtain ⟨hi, rfl⟩ := List.getElem?_eq_some_iff.mp hop
  have hsizes : (f.reads.set i (f.reads[i].complete ec bytes.length)).map AsyncOp.size =
      f.reads.map AsyncOp.size := by
    rw [List.map_set]
    change (f.reads.map AsyncOp.size).set i f.reads[i].size = _
    rw [← List.getElem_map AsyncOp.size, List.set_getElem_self]
    rwa [List.length_map]
  refine ⟨fun hidle => ?_, ?_⟩
  · rw [h.idle hidle] at hi
    cases hi
  · rw [fill, BasicBuffer.dataSize_writeAll, hsizes]
    exact h.bounded

theorem send {i n : ℕ} {ec : Option ErrorCode} (h : f.Backed)
    (hrun : f.send i n ec = some f') : f'.Backed := by
  obtain ⟨op, -, rfl⟩ := Option.map_eq_some_iff.mp hrun
  exact ⟨h.idle, h.bounded⟩

/-- What a read handler commits was counted as outstanding. -/
theorem readHandler {i n : ℕ} {op : AsyncOp} {ec : Option ErrorCode} (h : f.Backed)
    (hgood : f.Good initial) (hop : f.reads[i]? = some op) (hdone : op.completion = some (ec, n))
    (hrun : Flow.readHandler ec n { f with reads := f.reads.eraseIdx i } = some f') :
    f'.Backed := by
  obtain ⟨r, w, hcarries, -⟩ := hgood
  rw [hcarries.reads] at hop
  obtain ⟨rfl, rfl⟩ := getElem?_toList hop
  obtain ⟨b, hcommit, hone⟩ := Option.bind_eq_some_iff.mp hrun
  cases hone
  have hreads : f.reads = [op] := hcarries.reads
  have hdata := BasicBuffer.dataSize_commit hcommit
  have hfits := hcarries.read_fits op rfl
  have hbounded := h.bounded
  rw [AsyncOp.transferred, hdone, Option.map_some, Option.getD_some] at hfits
  rw [hreads, List.map_singleton, List.sum_singleton] at hbounded
  rw [afterRead_eq]
  -- The read is taken off, and in its place counts what it has delivered.
  refine ⟨fun _ => ?_, ?_⟩
  · change f.reads.eraseIdx 0 = []
    rw [hreads]
    rfl
  · change b.dataSize + ((f.reads.eraseIdx 0).map AsyncOp.size).sum < _
    rw [hreads]
    change b.dataSize + 0 < _
    change b.dataSize = f.buff.dataSize + n at hdata
    omega

theorem writeHandler {i n : ℕ} {ec : Option ErrorCode} (h : f.Backed)
    (hrun : Flow.writeHandler ec n { f with writes := f.writes.eraseIdx i } = some f') :
    f'.Backed := by
  obtain ⟨b, hdrain, hone⟩ := Option.bind_eq_some_iff.mp hrun
  cases hone
  have hdata := BasicBuffer.dataSize_drain hdrain
  have hbounded := h.bounded
  rw [afterWrite_eq]
  refine ⟨h.idle, ?_⟩
  change b.dataSize + (f.reads.map AsyncOp.size).sum < _
  change b.dataSize = f.buff.dataSize - n at hdata
  omega

end Backed
end Flow

namespace ProxyBridge

variable {p p' : ProxyBridge} {initial : Direction → List UInt8} {d : Direction}

def Backed (p : ProxyBridge) : Prop := ∀ d, (p.flow d).Backed

theorem Backed.modify {act : Flow → Option Flow} (h : p.Backed)
    (hact : ∀ f', act (p.flow d) = some f' → f'.Backed) (hrun : p.modify d act = some p') :
    p'.Backed := by
  obtain ⟨f, hone, rfl⟩ := Option.map_eq_some_iff.mp hrun
  exact forall_update (P := fun _ f => f.Backed) h (hact f hone)

theorem Backed.forwardTraffic (h : p.Backed) (hrun : p.forwardTraffic = some p') :
    p'.Backed := by
  simp only [ProxyBridge.forwardTraffic, Option.bind_eq_bind, Option.bind_eq_some_iff] at hrun
  obtain ⟨p₁, h₁, p₂, h₂, p₃, h₃, h₄⟩ := hrun
  have hp₁ := h.modify (fun _ => (h .upstream).scheduleRead) h₁
  have hp₂ := hp₁.modify (fun _ => (hp₁ .downstream).scheduleWrite) h₂
  have hp₃ := hp₂.modify (fun _ => (hp₂ .downstream).scheduleRead) h₃
  exact hp₃.modify (fun _ => (hp₃ .upstream).scheduleWrite) h₄

/-- A completed operation is taken off by `f₁`, and its handler `act` runs. -/
theorem Backed.handler {act : Flow → Option Flow} {f₁ : Flow} (h : p.Backed)
    (hact : ∀ f', act f₁ = some f' → f'.Backed)
    (hrun : (ProxyBridge.modify d act ⟨Function.update p.flow d f₁⟩).bind
      ProxyBridge.forwardTraffic = some p') : p'.Backed := by
  obtain ⟨p₁, hmodify, hforward⟩ := Option.bind_eq_some_iff.mp hrun
  obtain ⟨f, hone, rfl⟩ := Option.map_eq_some_iff.mp hmodify
  dsimp only at hone hforward
  rw [Function.update_self] at hone
  rw [Function.update_idem] at hforward
  have hp₁ : Backed ⟨Function.update p.flow d f⟩ :=
    forall_update (P := fun _ f => f.Backed) h (hact f hone)
  exact hp₁.forwardTraffic hforward

theorem Backed.step {a : BridgeAction} (h : p.Backed) (hgood : p.Good initial)
    (hstep : p.step a = some p') : p'.Backed := by
  cases a with
  | receive d i bytes ec => exact h.modify (fun _ => (h d).receive) hstep
  | send d i n ec => exact h.modify (fun _ => (h d).send) hstep
  | readHandler d i =>
    simp only [ProxyBridge.step, Option.bind_eq_bind, Option.bind_eq_some_iff] at hstep
    obtain ⟨op, hop, ⟨ec, n⟩, hdone, p₁, herase, hrun⟩ := hstep
    cases herase
    rw [boundReadHandler_eq] at hrun
    exact h.handler (fun _ => (h d).readHandler (hgood d) hop hdone) hrun
  | writeHandler d i =>
    simp only [ProxyBridge.step, Option.bind_eq_bind, Option.bind_eq_some_iff] at hstep
    obtain ⟨op, -, ⟨ec, n⟩, -, p₁, herase, hrun⟩ := hstep
    cases herase
    rw [boundWriteHandler_eq] at hrun
    exact h.handler (fun _ => (h d).writeHandler) hrun

end ProxyBridge

theorem SocketAnswers.callbacks_complete (answers : SocketAnswers) :
    answers.callbacks.Complete := ⟨rfl, rfl⟩

namespace BridgeLife

variable {s : BridgeLife} {answers : SocketAnswers}

def handshakeReserved (s : BridgeLife) : Direction → ℕ
  | .upstream => s.handshake.reserved
  | .downstream => 0

def reserved (s : BridgeLife) (d : Direction) : ℕ :=
  ((s.bridge.flow d).reads.map AsyncOp.size).sum + s.handshakeReserved d

structure Handshaking (s : BridgeLife) : Prop where
  inOrder : s.handshake.InOrder
  fresh : ∀ d, ∃ b, s.bridge.flow d = { buff := b }
  downstream : Holds (s.bridge.flow .downstream).buff none []

structure Forwarding (s : BridgeLife) : Prop where
  notReading : s.reading = none
  notWaiting : s.machine.state ≠ .kWaitConnect ∧ s.machine.state ≠ .kWaitAccept
  settled : ∃ initial, s.bridge.Settled initial
  backed : s.bridge.Backed

theorem Handshaking.bounded (h : s.Handshaking) (d : Direction) :
    (s.bridge.flow d).buff.dataSize + s.reserved d <
      kMaxBufferSize + kReadSize + defaultBlockSize.capacity := by
  have hreads : (s.bridge.flow d).reads = [] := by
    obtain ⟨b, hflow⟩ := h.fresh d
    rw [hflow]
  rw [reserved, hreads, List.map_nil, List.sum_nil, Nat.zero_add]
  cases d with
  | upstream =>
    have hbounded := h.inOrder.bounded
    have hmax : 255 ≤ kMaxBufferSize := by decide
    change s.handshake.upstream.dataSize + s.handshake.reserved < _
    omega
  | downstream =>
    rw [h.downstream.dataSize_eq]
    change 0 < kMaxBufferSize + kReadSize + defaultBlockSize.capacity
    decide

theorem Forwarding.bounded (h : s.Forwarding) (d : Direction) :
    (s.bridge.flow d).buff.dataSize + s.reserved d <
      kMaxBufferSize + kReadSize + defaultBlockSize.capacity := by
  have hbounded := (h.backed d).bounded
  cases d with
  | upstream =>
    simpa [reserved, handshakeReserved, handshake, Handshake.reserved, h.notReading]
      using hbounded
  | downstream => simpa [reserved, handshakeReserved] using hbounded

/-- Forwarding starts on the buffers as the handshake has left them. -/
theorem forwardTraffic_forwards (hfresh : ∀ d, ∃ b, s.bridge.flow d = { buff := b })
    (hb : ∀ d, ∃ bytes, Holds (s.bridge.flow d).buff none bytes)
    (hroom : ∀ d, (s.bridge.flow d).buff.dataSize <
      kMaxBufferSize + kReadSize + defaultBlockSize.capacity) :
    ∃ p initial, s.bridge.forwardTraffic = some p ∧ p.Settled initial ∧ p.Backed := by
  have hgood : s.bridge.Good (fun d => (s.bridge.flow d).buff.contents) := by
    intro d
    obtain ⟨bytes, data, space, hrep, -⟩ := hb d
    obtain ⟨b, hflow⟩ := hfresh d
    change (s.bridge.flow d).Good (s.bridge.flow d).buff.contents
    rw [hflow] at hrep ⊢
    exact .start hrep
  have hbacked : s.bridge.Backed := by
    intro d
    have hroom := hroom d
    obtain ⟨b, hflow⟩ := hfresh d
    rw [hflow] at hroom ⊢
    exact ⟨fun _ => rfl, hroom⟩
  obtain ⟨p, hrun, hsettled⟩ := ProxyBridge.forwardTraffic_spec hgood
  exact ⟨p, _, hrun, hsettled, hbacked.forwardTraffic hrun⟩

theorem Handshaking.withHandshake {h : Handshake} (hs : s.Handshaking) (hinv : h.InOrder) :
    (s.withHandshake h).Handshaking := by
  have hupstream : (s.withHandshake h).bridge.flow .upstream =
      { s.bridge.flow .upstream with buff := h.upstream } := by
    simp [BridgeLife.withHandshake]
  have hdownstream : (s.withHandshake h).bridge.flow .downstream = s.bridge.flow .downstream := by
    simp [BridgeLife.withHandshake]
  refine ⟨?_, ?_, ?_⟩
  · have hhandshake : (s.withHandshake h).handshake =
        { machine := h.machine, upstream := h.upstream, reading := h.reading } := by
      rw [handshake, hupstream]
      rfl
    rw [hhandshake]
    exact ⟨hinv.holds, hinv.requiredSize, hinv.asks, hinv.bounded⟩
  · intro d
    cases d with
    | upstream =>
      obtain ⟨b, hflow⟩ := hs.fresh .upstream
      rw [hupstream, hflow]
      exact ⟨h.upstream, rfl⟩
    | downstream =>
      rw [hdownstream]
      exact hs.fresh .downstream
  · rw [hdownstream]
    exact hs.downstream

def InOrder (s : BridgeLife) : Prop := s.Handshaking ∨ s.Forwarding

theorem InOrder.bounded (h : s.InOrder) (d : Direction) :
    (s.bridge.flow d).buff.dataSize + s.reserved d <
      kMaxBufferSize + kReadSize + defaultBlockSize.capacity :=
  h.elim (fun h => h.bounded d) (fun h => h.bounded d)

theorem enter_inOrder (freelists : Direction → Freelist) (entry : BridgeEntry) :
    ∃ s, enter freelists entry = some s ∧ s.InOrder := by
  have hempty := fun d => Holds.create (freelists d)
  cases entry with
  | performSocks5Handshake =>
    obtain ⟨h, hstart, hinv⟩ := Handshake.startRead_inOrder (h := (create freelists).handshake)
      (hempty .upstream) (by decide : 2 ≤ 255) (by decide : 0 < 2)
    refine ⟨(create freelists).withHandshake h, by rw [enter, hstart]; rfl, .inl ?_⟩
    have hcreated : (create freelists).Handshaking :=
      ⟨⟨⟨[], hempty .upstream⟩, (by decide : 2 ≤ 255), fun hne => absurd rfl hne,
        (by decide : 0 < 255 + defaultBlockSize.capacity)⟩, fun d => ⟨_, rfl⟩, hempty .downstream⟩
    exact hcreated.withHandshake hinv
  | forwardTraffic =>
    obtain ⟨p, initial, hrun, hsettled, hbacked⟩ :=
      forwardTraffic_forwards (s := create freelists) (fun d => ⟨_, rfl⟩)
        (fun d => ⟨[], hempty d⟩)
        (fun _ => (by decide : 0 < kMaxBufferSize + kReadSize + defaultBlockSize.capacity))
    refine ⟨{ create freelists with bridge := p }, by rw [enter, hrun]; rfl, .inr ?_⟩
    exact ⟨rfl, ⟨nofun, nofun⟩, ⟨initial, hsettled⟩, hbacked⟩

theorem socks5HandshakeHandler_inOrder {chunk : List UInt8} (ec : Option ErrorCode)
    (h : s.InOrder)
    (henabled : s.enabled (.socks5HandshakeHandler answers chunk ec) = true) :
    ∃ s', s.socks5HandshakeHandler answers chunk ec = some s' ∧ s'.InOrder := by
  obtain ⟨spans, hreading, hfits⟩ := (Option.any_eq_true _ _).mp henabled
  rcases h with h | h
  · obtain ⟨b, bytes, hcommit, hb, hroom⟩ := h.inOrder.commit hreading (of_decide_eq_true hfits)
    obtain ⟨h', hrun, hinv⟩ := Handshake.handler_returns
      (h := { s.handshake with
        upstream := s.handshake.upstream.writeAll ((spans.flatMap Span.cells).zip chunk) })
      answers.callbacks_complete ec hcommit hb hroom h.inOrder.requiredSize
    refine ⟨s.withHandshake h', ?_, .inl (h.withHandshake hinv)⟩
    simp only [socks5HandshakeHandler, hreading, Option.bind_eq_bind, Option.bind_some, hrun]
  · rw [h.notReading] at hreading
    cases hreading

theorem Handshaking.fail (h : s.Handshaking) :
    Handshaking { s with machine := s.machine.fail } :=
  ⟨⟨h.inOrder.holds, h.inOrder.requiredSize, h.inOrder.asks, h.inOrder.bounded⟩, h.fresh,
    h.downstream⟩

/-- A machine that does not wait fails when it is told of a connection, and nothing else
changes. -/
theorem InOrder.fail (h : s.InOrder) : InOrder { s with machine := s.machine.fail } := by
  rcases h with h | h
  · exact .inl h.fail
  · exact .inr ⟨h.notReading, ⟨nofun, nofun⟩, h.settled, h.backed⟩

/-- A machine that waits asks for nothing, so that no read is outstanding when forwarding
starts. -/
theorem Handshaking.reading_of_waiting (h : s.Handshaking) {isBind : Bool}
    (hm : s.machine.state = if isBind then .kWaitAccept else .kWaitConnect) :
    s.reading = none := by
  have hsize : s.machine.requiredSize = 0 := by
    have hrequired := s.machine.required
    rw [hm] at hrequired
    cases isBind <;> exact hrequired
  by_contra hne
  exact absurd (h.inOrder.asks hne) (by simp [handshake, hsize])

/-- A bridge that waits begins to forward. -/
theorem Handshaking.finishHandshake (answers : SocketAnswers) (h : s.Handshaking) (isBind : Bool)
    (hm : s.machine.state = if isBind then .kWaitAccept else .kWaitConnect) :
    ∃ s', (Session.finishHandshake answers.callbacks ⟨s.machine, s.bridge⟩).bind s.afterSession =
      some s' ∧ s'.Forwarding := by
  -- The buffer is free, so forwarding may reserve space in it for its own first read.
  have hreading := h.reading_of_waiting hm
  have hupstream : ∃ bytes, Holds (s.bridge.flow .upstream).buff none bytes :=
    hreading ▸ h.inOrder.holds
  obtain ⟨p, initial, hrun, hsettled, hbacked⟩ := forwardTraffic_forwards h.fresh
    (fun | .upstream => hupstream | .downstream => ⟨[], h.downstream⟩)
    (fun d => Nat.lt_of_le_of_lt (Nat.le_add_right _ _) (h.bounded d))
  obtain ⟨ret, hret⟩ : ∃ ret, answers.callbacks.delivers isBind = some ret := ⟨_, rfl⟩
  have hsucceed := connectionSucceed_of_waiting answers.callbacks hm
  rw [hret, Option.map_some] at hsucceed
  refine ⟨{ s with machine := ⟨.kSuccess, s.machine.requiredSize, trivial⟩, bridge := p }, ?_,
    hreading, ⟨nofun, nofun⟩, ⟨initial, hsettled⟩, hbacked⟩
  simp only [Session.finishHandshake, hsucceed, hrun, Option.bind_eq_bind, Option.bind_some,
    if_true, afterSession]

theorem finishHandshake_of_waiting (answers : SocketAnswers) (h : s.InOrder) (isBind : Bool)
    (hm : s.machine.state = if isBind then .kWaitAccept else .kWaitConnect) :
    ∃ s', (Session.finishHandshake answers.callbacks ⟨s.machine, s.bridge⟩).bind s.afterSession =
      some s' ∧ s'.InOrder := by
  rcases h with h | h
  · obtain ⟨s', hrun, hforwarding⟩ := h.finishHandshake answers isBind hm
    exact ⟨s', hrun, .inr hforwarding⟩
  · cases isBind with
    | false => exact absurd hm h.notWaiting.1
    | true => exact absurd hm h.notWaiting.2

theorem finishHandshake_inOrder (answers : SocketAnswers) (h : s.InOrder) :
    ∃ s', (Session.finishHandshake answers.callbacks ⟨s.machine, s.bridge⟩).bind s.afterSession =
      some s' ∧ s'.InOrder := by
  by_cases hconnect : s.machine.state = .kWaitConnect
  · exact finishHandshake_of_waiting answers h false hconnect
  · by_cases haccept : s.machine.state = .kWaitAccept
    · exact finishHandshake_of_waiting answers h true haccept
    · refine ⟨_, ?_, h.fail⟩
      rw [Session.finishHandshake, connectionSucceed_of_not_waiting hconnect haccept]
      rfl

theorem enabled_of_fresh (hfresh : ∀ d, ∃ b, s.bridge.flow d = { buff := b })
    (action : BridgeAction) : s.bridge.enabled action = false := by
  cases action with
  | receive d | send d | readHandler d | writeHandler d =>
    obtain ⟨b, hflow⟩ := hfresh d
    simp [ProxyBridge.enabled, hflow]

theorem Forwarding.step (h : s.Forwarding) {action : BridgeAction}
    (henabled : s.bridge.enabled action = true) :
    ∃ s', s.step (.forward action) = some s' ∧ s'.Forwarding := by
  obtain ⟨initial, hsettled⟩ := h.settled
  obtain ⟨p, hstep, hsettled'⟩ := ProxyBridge.step_settled action hsettled henabled
  refine ⟨{ s with bridge := p }, by rw [BridgeLife.step, hstep]; rfl, ?_⟩
  exact ⟨h.notReading, h.notWaiting, ⟨initial, hsettled'⟩, h.backed.step hsettled.good hstep⟩

/-- Nothing that can happen to a bridge in order makes it fail or leaves it out of order. -/
theorem step_inOrder (a : LifeAction) (h : s.InOrder) (henabled : s.enabled a = true) :
    ∃ s', s.step a = some s' ∧ s'.InOrder := by
  cases a with
  | socks5HandshakeHandler answers chunk ec => exact socks5HandshakeHandler_inOrder ec h henabled
  | connectHandler answers ec =>
    cases ec with
    | some ec => exact ⟨s, rfl, h⟩
    | none => exact finishHandshake_inOrder answers h
  | acceptInboundConnection answers => exact finishHandshake_inOrder answers h
  | forward action =>
    rcases h with h | h
    · -- Nothing of forwarding is outstanding yet.
      exact absurd henabled (Bool.eq_false_iff.mp (enabled_of_fresh h.fresh action))
    · obtain ⟨s', hstep, hforwarding⟩ := h.step henabled
      exact ⟨s', hstep, .inr hforwarding⟩

/-- Whatever client and destination do, and in whatever order the operations complete, a
bridge runs on, and in each direction the buffered data, even with all that outstanding
reads may add to it, stays below the bound. -/
theorem buffers_bounded (freelists : Direction → Freelist) (entry : BridgeEntry)
    (actions : List LifeAction) (h : possible freelists entry actions = true) :
    ∃ s, live freelists entry actions = some s ∧ ∀ d,
      (s.bridge.flow d).buff.dataSize <
        kMaxBufferSize + kReadSize + defaultBlockSize.capacity ∧
      (s.bridge.flow d).buff.dataSize + s.reserved d <
        kMaxBufferSize + kReadSize + defaultBlockSize.capacity := by
  obtain ⟨s₀, hstart, hinv⟩ := enter_inOrder freelists entry
  rw [possible, hstart, Option.all_some] at h
  obtain ⟨s, hrun, hs⟩ := system.run_invariant (fun _ a hs ha => step_inOrder a hs ha) hinv h
  refine ⟨s, by rw [live, hstart, Option.bind_some, hrun], fun d => ?_⟩
  have hbounded := hs.bounded d
  exact ⟨Nat.lt_of_le_of_lt (Nat.le_add_right _ _) hbounded, hbounded⟩

def demoAnswers : SocketAnswers where
  write := fun _ => none
  endpoint := fun _ => some (.inet (127 ::ᵥ 0 ::ᵥ 0 ::ᵥ 1 ::ᵥ .nil) (4 ::ᵥ 0 ::ᵥ .nil))
  getAcceptor := fun port => (false, port)

def demoLife : List LifeAction :=
  [.socks5HandshakeHandler demoAnswers [0x05, 0x01, 0x00] none,
    .socks5HandshakeHandler demoAnswers
      [0x05, 0x01, 0x00, 0x01, 0x7f, 0x00, 0x00, 0x01, 0x04, 0x00] none,
    .connectHandler demoAnswers none,
    .forward (.receive .upstream 0 [1, 2, 3] none),
    .forward (.readHandler .upstream 0)]

theorem demo_buffers_bounded :
    ∃ s, live (fun _ => BufferUser.demoFreelist) .performSocks5Handshake demoLife = some s ∧
      ∀ d, (s.bridge.flow d).buff.dataSize <
          kMaxBufferSize + kReadSize + defaultBlockSize.capacity ∧
        (s.bridge.flow d).buff.dataSize + s.reserved d <
          kMaxBufferSize + kReadSize + defaultBlockSize.capacity :=
  buffers_bounded (fun _ => BufferUser.demoFreelist) .performSocks5Handshake demoLife
    (by decide +kernel)

end BridgeLife
end PublicEndorsement.Proxy
