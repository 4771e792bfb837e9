import PublicEndorsement.PoolSlots
import PublicEndorsement.PreloadAccept
import PublicEndorsement.Socks5Client

/-!
# Inbound connections from end to end

The port of a `bind` and the address of a peer each pass through several layouts: the
replies of the proxy, the reads of the pool, the messages to the application, and the
socket address that `accept4` writes.
-/

namespace PublicEndorsement.Proxy

open Socks5

@[simp] theorem ntohs_htons (port : UInt16) : ntohs (htons port) = port := by
  have hlt := port.toNat_lt
  apply UInt16.toNat_inj.mp
  change (UInt16.ofNat ((UInt8.ofNat (port.toNat / 256)).toNat * 256 +
    (UInt8.ofNat port.toNat).toNat)).toNat = port.toNat
  simp only [UInt16.toNat_ofNat', UInt8.toNat_ofNat']
  omega

namespace ClientSessionPool

variable {p p' : ClientSessionPool} {k : ℕ}

/-- No socket has more than one operation outstanding. -/
structure Own (p : ClientSessionPool) : Prop where
  distinct : (p.pending.map PoolOp.index).Nodup
  bounded : ∀ op ∈ p.pending, op.index < p.sockets

namespace Own

theorem erase (h : p.Own) {i : ℕ} {op : PoolOp} (hop : p.pending[i]? = some op) :
    ({ p with pending := p.pending.eraseIdx i } : ClientSessionPool).Own ∧
      op.index ∉ (p.pending.eraseIdx i).map PoolOp.index := by
  obtain ⟨hi, rfl⟩ := List.getElem?_eq_some_iff.mp hop
  have hperm := (List.getElem_cons_eraseIdx_perm hi).map PoolOp.index
  obtain ⟨hfree, hdistinct⟩ := List.nodup_cons.mp (hperm.nodup_iff.mpr h.distinct)
  exact ⟨⟨hdistinct, fun op' hop' => h.bounded op' (List.mem_of_mem_eraseIdx hop')⟩, hfree⟩

/-- The handler of a socket that has nothing outstanding any more. -/
theorem effect (h : p.Own) (hk : k < p.sockets) (hfree : k ∉ p.pending.map PoolOp.index)
    (heffect : Effect k p p') : p'.Own := by
  refine ⟨?_, heffect.pending_lt hk h.bounded⟩
  cases heffect.awaits with
  | nothing hpending hsockets => exact hpending ▸ h.distinct
  | again handler hpending hsockets =>
    rw [hpending, List.map_append, List.map_singleton]
    exact List.nodup_append_comm.mp (List.nodup_cons.mpr ⟨hfree, h.distinct⟩)
  | grown hpending hsockets hlast hroom =>
    have hnew : k + 1 ∉ p.pending.map PoolOp.index := by
      intro hmem
      obtain ⟨op, hop, hindex⟩ := List.mem_map.mp hmem
      have hlt := h.bounded op hop
      omega
    rw [hpending, List.map_append]
    refine List.nodup_append_comm.mp (List.nodup_cons.mpr ⟨?_, ?_⟩)
    · simpa using hfree
    · exact List.nodup_cons.mpr ⟨hnew, h.distinct⟩

theorem step (p p' : ClientSessionPool) (a : PoolAction) (h : p.Own)
    (hstep : system.step p a = some p') : p'.Own := by
  rcases step_cases hstep with ⟨-, rfl⟩ | ⟨i, op, completion, -, hop, hdispatch⟩
  · exact ⟨h.distinct, h.bounded⟩
  · obtain ⟨hrest, hfree⟩ := h.erase hop
    exact hrest.effect (h.bounded op (List.mem_of_getElem? hop)) hfree
      (effect_of_dispatch hdispatch)

end Own

def bindRequest (port : UInt16) : Octets 13 := fillInPort bindReqTemplate (htons port)

theorem fillInPort_fillInPort (request : Octets 13) (port port' : Octets 2) :
    fillInPort (fillInPort request port) port' = fillInPort request port' := by
  apply Subtype.ext
  change ((request.toList.take 11 ++ port.toList).take 11) ++ port'.toList = _
  rw [List.take_left' (by simp)]
  rfl

/-- What the pool has sent to the proxy: the application's request, and then only requests
for the port that was bound. -/
structure Standby (first again : Octets 13) (p : ClientSessionPool) : Prop where
  request : p.proxyBindRequest = again
  toProxy : ∃ later, p.toProxy = first :: later ∧ ∀ message ∈ later, message = again

theorem Standby.step {first again : Octets 13} (p p' : ClientSessionPool) (a : PoolAction)
    (h : p.Standby first again) (hstep : system.step p a = some p') :
    p'.Standby first again := by
  rcases step_cases hstep with ⟨-, rfl⟩ | ⟨i, op, completion, -, -, hdispatch⟩
  · exact ⟨h.request, h.toProxy⟩
  · have heffect := effect_of_dispatch hdispatch
    obtain ⟨later, hlater, hall⟩ := h.toProxy
    refine ⟨heffect.request.trans h.request, ?_⟩
    rcases heffect.toProxy with hsame | hsent
    · exact ⟨later, hsame.trans hlater, hall⟩
    · refine ⟨later ++ [again], ?_, ?_⟩
      · rw [hsent]
        exact congrArg₂ (· ++ [·]) hlater h.request
      · intro message hmessage
        rcases List.mem_append.mp hmessage with hmessage | hmessage
        · exact hall message hmessage
        · exact List.mem_singleton.mp hmessage

/-- The pools that `Start` and any completions lead to. -/
def Reachable (p : ClientSessionPool) : Prop :=
  ∃ io p₀ actions, start io = some p₀ ∧ system.run p₀ actions = some p

theorem own_of_start {io : StartIO} (h : start io = some p) : p.Own := by
  obtain ⟨p₁, -, hlisten⟩ := Option.bind_eq_some_iff.mp h
  cases hrequest : io.listenRequest with
  | error e => simp [startListen, hrequest, Except.toOption] at hlisten
  | ok request =>
    obtain ⟨type, backlog⟩ := request
    obtain ⟨hsockets, -, -, -, hpending⟩ := start_spec h hrequest
    constructor
    · rw [hpending]
      decide
    · rw [hpending, hsockets]
      simp

theorem Reachable.own (h : p.Reachable) : p.Own := by
  obtain ⟨io, p₀, actions, hstart, hrun⟩ := h
  exact system.invariant_of_run Own.step (own_of_start hstart) hrun

/-- A message that waits for the vendor's socket. `since` handlers had run when it was put
into its buffer. -/
structure Carries (since k : ℕ) (message : MicroBuffer) (p : ClientSessionPool) : Prop where
  own : p.Own
  since_le : since ≤ p.runs.length
  waits : (∀ run ∈ p.runs.drop since, run.index ≠ k) →
    ⟨.handleSendFd, k⟩ ∈ p.pending ∧ p.buf k = message

theorem Effect.mem_pending {j : ℕ} (h : Effect j p p') {op : PoolOp} (hop : op ∈ p.pending) :
    op ∈ p'.pending := by
  cases h.awaits with
  | nothing hpending hsockets => exact hpending ▸ hop
  | again handler hpending hsockets => exact hpending ▸ List.mem_append_left _ hop
  | grown hpending hsockets hlast hroom => exact hpending ▸ List.mem_append_left _ hop

theorem Carries.step {since : ℕ} {message : MicroBuffer} (p p' : ClientSessionPool)
    (a : PoolAction) (h : p.Carries since k message) (hstep : system.step p a = some p') :
    p'.Carries since k message := by
  have hown := Own.step p p' a h.own hstep
  rcases step_cases hstep with ⟨-, rfl⟩ | ⟨i, op, completion, -, hop, hdispatch⟩
  · exact ⟨hown, h.since_le, h.waits⟩
  · have heffect := effect_of_dispatch hdispatch
    obtain ⟨new, hne, hruns, hnew⟩ := heffect.runs
    change p'.runs = p.runs ++ new at hruns
    have hdrop : p'.runs.drop since = p.runs.drop since ++ new := by
      rw [hruns, List.drop_append_of_le_length h.since_le]
    refine ⟨hown, ?_, ?_⟩
    · rw [hruns, List.length_append]
      exact h.since_le.trans (Nat.le_add_right _ _)
    · intro hidle
      rw [hdrop] at hidle
      obtain ⟨hmem, hbuf⟩ := h.waits fun run hrun => hidle run (List.mem_append_left _ hrun)
      -- The handler that ran is that of another socket.
      have hother : k ≠ op.index := by
        obtain ⟨run, hrun⟩ := List.exists_mem_of_ne_nil new hne
        rw [← (hnew run hrun).1]
        exact (hidle run (List.mem_append_right _ hrun)).symm
      refine ⟨heffect.mem_pending ?_, (heffect.others k hother).trans hbuf⟩
      obtain ⟨hi, rfl⟩ := List.getElem?_eq_some_iff.mp hop
      rw [← (List.getElem_cons_eraseIdx_perm hi).mem_iff] at hmem
      rcases List.mem_cons.mp hmem with heq | hrest
      · exact absurd (congrArg PoolOp.index heq) hother
      · exact hrest

/-- The next handler to run on socket `k` is `HandleSendFd`, and what it then sends is the
message, whatever the other sockets do in the meantime. -/
def HandsOver (k : ℕ) (message : MicroBuffer) (p : ClientSessionPool) : Prop :=
  ∀ actions p', system.run p actions = some p' →
    (∀ run ∈ p'.runs.drop p.runs.length, run.index ≠ k) →
    ⟨.handleSendFd, k⟩ ∈ p'.pending ∧
    ∀ j op, p'.pending[j]? = some op → op.index = k → op.handler = .handleSendFd ∧
      (p'.stop = false → ∃ p'', system.step p' (.complete j (.writable none true)) = some p'' ∧
        p''.toClient = p'.toClient ++ [.newConnectionResponse message])

/-- What is sent is the buffer of the slot, which is then connected anew. -/
theorem step_handleSendFd {j : ℕ} (hop : p.pending[j]? = some ⟨.handleSendFd, k⟩)
    (hstop : p.stop = false) :
    ∃ p', system.step p (.complete j (.writable none true)) = some p' ∧
      p'.toClient = p.toClient ++ [.newConnectionResponse (p.buf k)] ∧
      p'.runs = p.runs ++ [⟨.handleSendFd, k, p.sockets, p.buffers.length⟩,
        ⟨.initiateSocket, k, p.sockets, p.buffers.length⟩] ∧
      p'.pending = p.pending.eraseIdx j ++ [⟨.handleConnect, k⟩] := by
  refine ⟨_, Option.bind_eq_some_iff.mpr ⟨_, hop, rfl⟩, ?_⟩
  simp [handleSendFd, enter, hstop, initiateSocket, await, buf]

theorem handsOver_of_mem {message : MicroBuffer} (hown : p.Own)
    (hmem : ⟨.handleSendFd, k⟩ ∈ p.pending) (hbuf : p.buf k = message) :
    p.HandsOver k message := by
  intro actions p' hrun hidle
  have hcarries : p'.Carries p.runs.length k message :=
    system.invariant_of_run Carries.step ⟨hown, le_rfl, fun _ => ⟨hmem, hbuf⟩⟩ hrun
  obtain ⟨hmem', hbuf'⟩ := hcarries.waits hidle
  refine ⟨hmem', ?_⟩
  intro j op hop hindex
  have hop' : op = ⟨.handleSendFd, k⟩ :=
    List.inj_on_of_nodup_map hcarries.own.distinct (List.mem_of_getElem? hop) hmem' hindex
  subst hop'
  refine ⟨rfl, ?_⟩
  intro hstop
  obtain ⟨p'', hstep, hsent, -⟩ := step_handleSendFd hop hstop
  exact ⟨p'', hstep, hbuf' ▸ hsent⟩

theorem toList_respAddr_newConnResp (buf : MicroBuffer) (padding : Octets 2) :
    (respAddr (newConnResp buf padding)).toList = (buf.toList.drop 4).take 16 := by
  change (((buf.toList.drop 4).take 16 ++ (buf.toList.drop 20).take 2) ++
    padding.toList).take 16 = _
  rw [List.append_assoc, List.take_left' (by simp)]

theorem toList_respPort_newConnResp (buf : MicroBuffer) (padding : Octets 2) :
    (respPort (newConnResp buf padding)).toList = (buf.toList.drop 20).take 2 := by
  change ((((buf.toList.drop 4).take 16 ++ (buf.toList.drop 20).take 2) ++
    padding.toList).drop 16).take 2 = _
  rw [List.append_assoc, List.drop_left' (by simp), List.take_left' (by simp)]

/-- The second reply of the proxy, for a peer on an IPv6 socket. -/
def secondReply (a : Octets 16) (r : Octets 2) : Octets 22 :=
  ⟨[0x05, 0x00, 0x00] ++ fillAddrPort (.inet6 a r), by simp [fillAddrPort]⟩

/-- `BND.ADDR` and `BND.PORT` of a second reply, its address being taken for an IPv6 one. -/
def replyAddr (reply : Octets 22) : Octets 16 := ⟨(reply.toList.drop 4).take 16, by simp⟩

def replyPort (reply : Octets 22) : Octets 2 := ⟨reply.toList.drop 20, by simp⟩

/-- The layouts of the reply and of the message fit together. -/
theorem resp_newConnResp (reply : Octets 22) (buf : MicroBuffer) (padding : Octets 2) :
    respAddr (newConnResp (overwrite reply.toList buf) padding) = replyAddr reply ∧
      respPort (newConnResp (overwrite reply.toList buf) padding) = replyPort reply := by
  have hlen := reply.toList_length
  have hbytes := toList_overwrite (show reply.toList.length ≤ 24 by omega) buf
  constructor
  · apply List.Vector.toList_injective
    rw [toList_respAddr_newConnResp, hbytes, List.drop_append_of_le_length (by omega),
      List.take_append_of_le_length (by rw [List.length_drop]; omega)]
    rfl
  · apply List.Vector.toList_injective
    rw [toList_respPort_newConnResp, hbytes, List.drop_append_of_le_length (by omega),
      List.take_left' (by rw [List.length_drop]; omega)]
    rfl

theorem replyAddr_secondReply (a : Octets 16) (r : Octets 2) : replyAddr (secondReply a r) = a := by
  apply List.Vector.toList_injective
  exact List.take_left' a.toList_length

theorem replyPort_secondReply (a : Octets 16) (r : Octets 2) : replyPort (secondReply a r) = r := by
  apply List.Vector.toList_injective
  exact List.drop_left' a.toList_length

theorem handle2ndResp_granted (hstop : p.stop = false) (hrep : (p.buf k).get 1 = 0x00)
    (padding : Octets 2) :
    p.handle2ndResp k k2ndBindResponseSize none padding =
      ((p.enter .handle2ndResp k).fill k (newConnResp (p.buf k) padding).toList).await
        .handleSendFd k := by
  have hstop' : (p.enter .handle2ndResp k).stop = false := hstop
  have hrep' : ((p.enter .handle2ndResp k).buf k).get 1 = 0x00 := hrep
  rw [handle2ndResp]
  simp only [hstop', hrep', Bool.false_eq_true, if_false, Option.isSome_none, lt_irrefl, ne_eq,
    not_true_eq_false, or_self]
  rfl

/-- A second response that grants the request is laid out anew in its buffer, and waits
for the vendor's socket. -/
theorem step_granted (hstop : p.stop = false) {i : ℕ}
    (hop : p.pending[i]? = some ⟨.handle2ndResp, k⟩) (hk : k < p.buffers.length)
    (reply : Octets 22) (hgranted : reply.get 1 = 0x00) (padding : Octets 2) :
    ∃ p', system.step p (.complete i (.received reply.toList none padding)) = some p' ∧
      ⟨.handleSendFd, k⟩ ∈ p'.pending ∧
      p'.buf k = newConnResp (overwrite reply.toList (p.buf k)) padding := by
  obtain ⟨p₀, hp₀⟩ : ∃ p₀, p₀ = ({ p with pending := p.pending.eraseIdx i } :
      ClientSessionPool).fill k reply.toList := ⟨_, rfl⟩
  have hbuf : p₀.buf k = overwrite reply.toList (p.buf k) := by
    rw [hp₀]
    exact buf_fill_self hk _
  have hlen := reply.toList_length
  have hrep : (p₀.buf k).get 1 = 0x00 := by
    rw [← hgranted, hbuf, List.Vector.get_eq_get_toList, List.Vector.get_eq_get_toList,
      List.get_of_eq (toList_overwrite (by omega) _)]
    exact List.getElem_append_left (by rw [hlen]; exact (1 : Fin 22).isLt)
  have hroom : k < p₀.buffers.length := by
    rw [hp₀, length_fill]
    exact hk
  have hstep : system.step p (.complete i (.received reply.toList none padding)) =
      some (p₀.handle2ndResp k k2ndBindResponseSize none padding) := by
    refine Option.bind_eq_some_iff.mpr ⟨_, hop, ?_⟩
    rw [hp₀]
    change some (handle2ndResp k reply.toList.length none padding _) = _
    rw [hlen]
    rfl
  rw [handle2ndResp_granted (by rw [hp₀]; exact hstop) hrep] at hstep
  refine ⟨_, hstep, List.mem_append_right _ List.mem_cons_self, ?_⟩
  rw [← hbuf]
  exact (buf_fill_self hroom _).trans (overwrite_toList _ _)

/-- A second response is handed over to the application. -/
theorem step_secondReply (hreachable : p.Reachable) (hstop : p.stop = false) {i : ℕ}
    (hop : p.pending[i]? = some ⟨.handle2ndResp, k⟩) (hk : k < p.buffers.length)
    (a : Octets 16) (r : Octets 2) (padding : Octets 2) :
    ∃ p' message,
      system.step p (.complete i (.received (secondReply a r).toList none padding)) = some p' ∧
      p'.HandsOver k message ∧ respAddr message = a ∧ respPort message = r := by
  obtain ⟨p', hstep, hmem, hbuf⟩ := step_granted hstop hop hk (secondReply a r) rfl padding
  have hown := Own.step _ _ _ hreachable.own hstep
  obtain ⟨haddr, hport⟩ := resp_newConnResp (secondReply a r) (p.buf k) padding
  exact ⟨p', _, hstep, handsOver_of_mem hown hmem hbuf, haddr.trans (replyAddr_secondReply a r),
    hport.trans (replyPort_secondReply a r)⟩

/-- A message that a server of the protocol reads as a `BIND` request for the port. -/
def IsBindRequest (port : UInt16) (message : Octets 13) : Prop :=
  ∃ (g : Greeting) (r : Request), message.toList = g.bytes ++ r.bytes ∧ r.command = .bind ∧
    ntohs r.port = port

def bindTo (port : UInt16) : Request := ⟨.bind, .v4, ⟨[0x00, 0x00, 0x00, 0x00], rfl⟩, htons port⟩

theorem toList_bindRequest (port : UInt16) :
    (bindRequest port).toList = noAuthGreeting.bytes ++ (bindTo port).bytes :=
  rfl

theorem isBindRequest_bindRequest (port : UInt16) : IsBindRequest port (bindRequest port) :=
  ⟨noAuthGreeting, bindTo port, toList_bindRequest port, rfl, ntohs_htons port⟩

def firstReply (bound : UInt16) : Octets 12 := ⟨[0x05, 0x00] ++ Socks5State.bindResp bound, rfl⟩

/-- Everything up to the response to the application's `bind` goes well. -/
structure StartIO.Binds (io : StartIO) (port : UInt16) (reply : Octets 12) : Prop where
  bindRequest : io.bindRequest = .ok (.kBindRequest, port)
  connect : io.connect = none
  writeBindRequest : io.writeBindRequest = none
  proxyResp : io.proxyResp = .ok reply
  writeBindResponse : io.writeBindResponse = none

theorem startBind_firstReply {io : StartIO} {port bound : UInt16}
    (h : StartIO.Binds io port (firstReply bound)) :
    ∃ p, startBind io = some p ∧ p.port = bound ∧ p.toClient = [.bindResponse bound] ∧
      p.Standby (bindRequest port) (bindRequest bound) := by
  have hstart : startBind io = some
      { capacity := 0
        sockets := 1
        buffers := []
        proxyBindRequest := fillInPort (bindRequest port) (htons bound)
        port := ntohs (htons bound)
        toProxy := [bindRequest port]
        toClient := [.bindResponse (ntohs (htons bound))] } := by
    rw [startBind, h.bindRequest, h.connect, h.writeBindRequest, h.proxyResp, h.writeBindResponse]
    rfl
  refine ⟨_, hstart, ntohs_htons bound, ?_, ?_, [], rfl, by simp⟩
  · rw [ntohs_htons]
  · exact fillInPort_fillInPort bindReqTemplate (htons port) (htons bound)

theorem standby_startListen {io : StartIO} {first again : Octets 13} (h : p.Standby first again)
    (hlisten : startListen io p = some p') : p'.Standby first again := by
  simp only [startListen, Option.bind_eq_bind, Option.bind_eq_some_iff] at hlisten
  obtain ⟨_, -, _, -, _, -, _, -, hlisten⟩ := hlisten
  cases hlisten
  exact ⟨h.request, h.toProxy⟩

end ClientSessionPool

open ClientSessionPool

/-- What `accept4` makes of a message that comes with a descriptor. -/
theorem accept4_of_message {io : AcceptIO} (hunix : io.isUnix = true)
    (hconnected : io.connected = true) {message : MicroBuffer} {fd : ℤ} (hfd : 0 ≤ fd)
    (hrecv : io.recvmsg = some (message, some ⟨true, fd⟩)) (flowinfo scopeId : Octets 4)
    (addrlen : ℕ) : accept4 io flowinfo scopeId (some addrlen) =
      .accepted fd (some (acceptedAddr message flowinfo scopeId addrlen)) := by
  simp [accept4, hunix, hconnected, hrecv, not_lt.mpr hfd]

/-- A port that the application binds and the address of a peer that connects to it are
carried faithfully. The proxy's replies, whose callback has bound a port for the one asked
for, make the pool answer with that port and ask for it ever after. The second reply, for
a peer on an IPv6 socket, makes the pool hand over a message from which `accept4` gives the
application the address and the port of that peer. -/
theorem inbound_path_faithful (callbacks : Callbacks) (port : UInt16)
    (hcallbacks : callbacks.Serve (fun r => r.command = .bind ∧ ntohs r.port = port))
    (freelist : Freelist) (chunks : List (List UInt8))
    (hsent : chunks.flatten = (bindRequest port).toList)
    (hchunks : Handshake.feedable callbacks freelist chunks = true) :
    ∃ h, Handshake.handshake callbacks freelist chunks = some h ∧
      h.machine.state = .kWaitAccept ∧
      h.calls.filter Handshake.actsOnRequest =
        [.bind port (callbacks.boundPort port) .kStatusOK] ∧
      (∃ reply : Octets 12, reply.toList = replies h.calls ∧ ∀ io : StartIO,
        StartIO.Binds io port reply → ∃ p, startBind io = some p ∧
          p.port = callbacks.boundPort port ∧
          p.toClient = [.bindResponse (callbacks.boundPort port)] ∧
          ∀ p₁ actions p', startListen io p = some p₁ → system.run p₁ actions = some p' →
            ∃ later, p'.toProxy = bindRequest port :: later ∧
              ∀ message ∈ later, IsBindRequest (callbacks.boundPort port) message) ∧
      (∀ destAddress a r, callbacks.destAddress = some destAddress →
        destAddress true = (.kStatusOK, .inet6 a r) →
        ∃ m calls, h.machine.connectionSucceed callbacks = some (true, m, calls) ∧
        ∀ (p : ClientSessionPool) (i k : ℕ) (padding : Octets 2), p.Reachable → p.stop = false →
          p.pending[i]? = some ⟨.handle2ndResp, k⟩ → k < p.buffers.length →
          ∃ p' message,
            system.step p (.complete i (.received (replies calls) none padding)) = some p' ∧
            p'.HandsOver k message ∧
            ∀ (io : AcceptIO) (fd : ℤ) (flowinfo scopeId : Octets 4) (addrlen : ℕ),
              io.isUnix = true → io.connected = true → 0 ≤ fd →
              io.recvmsg = some (message, some ⟨true, fd⟩) →
              ∃ bytes, accept4 io flowinfo scopeId (some addrlen) = .accepted fd (some bytes) ∧
                (28 ≤ addrlen → bytes = (sockaddrIn6 r flowinfo a scopeId).toList) ∧
                (∀ v4, a = mapped v4 → 16 ≤ addrlen → addrlen < 28 →
                  bytes = (sockaddrIn r v4).toList)) := by
  have hdrive : reader.drive .greetingHeader chunks.flatten = (.waiting (bindTo port), []) := by
    rw [hsent, toList_bindRequest, drive_greeting, ← List.append_nil (bindTo port).bytes,
      drive_request]
  obtain ⟨h, hrun, hstate, hcalls, -⟩ :=
    Handshake.handshake_reads hcallbacks hchunks (fun r' hr' => by
      rw [hdrive] at hr'
      cases hr'
      exact ⟨rfl, ntohs_htons port⟩)
  rw [hdrive] at hstate hcalls
  have hmade : h.calls = [methodReply, .bind port (callbacks.boundPort port) .kStatusOK,
      .response (Socks5State.bindResp (callbacks.boundPort port)) .kStatusOK] := by
    rw [hcalls, Phase.calls, Request.calls]
    simp [bindTo]
  refine ⟨h, hrun, hstate, ?_, ⟨firstReply (callbacks.boundPort port), ?_, ?_⟩, ?_⟩
  · rw [hmade]
    rfl
  · rw [hmade]
    rfl
  · intro io hio
    obtain ⟨p, hstart, hport, hclient, hstandby⟩ := startBind_firstReply hio
    refine ⟨p, hstart, hport, hclient, ?_⟩
    intro p₁ actions p' hlisten hpool
    have hstandby' := system.invariant_of_run Standby.step
      (standby_startListen hstandby hlisten) hpool
    obtain ⟨later, hlater, hall⟩ := hstandby'.toProxy
    refine ⟨later, hlater, ?_⟩
    intro message hmessage
    rw [hall message hmessage]
    exact isBindRequest_bindRequest _
  · intro destAddress a r hdest hpeer
    refine ⟨_, _, connectionSucceed_granted .bind hcallbacks hdest hpeer hstate, ?_⟩
    intro p i k padding hreachable hstop hop hk
    obtain ⟨p', message, hstep, hhands, haddr, hport⟩ :=
      step_secondReply hreachable hstop hop hk a r padding
    refine ⟨p', message, ?_, hhands, ?_⟩
    · have hreplies : replies [.destAddress true .kStatusOK,
          .response ([0x05, 0x00, 0x00] ++ fillAddrPort (.inet6 a r)) .kStatusOK] =
          (secondReply a r).toList := List.append_nil _
      rw [← hstep, ← hreplies]
      rfl
    · intro io fd flowinfo scopeId addrlen hunix hconnected hfd hrecv
      refine ⟨_, accept4_of_message hunix hconnected hfd hrecv flowinfo scopeId addrlen, ?_, ?_⟩
      · intro hlong
        rw [acceptedAddr_of_in6 hlong, haddr, hport]
      · intro v4 hv4 hroom hshort
        rw [acceptedAddr_of_in (haddr.trans hv4) hroom hshort, hport]

def demoPeer : Octets 4 := 0x0a ::ᵥ 0x00 ::ᵥ 0x00 ::ᵥ 0x07 ::ᵥ .nil

def demoPeerPort : Octets 2 := 0x10 ::ᵥ 0x00 ::ᵥ .nil

/-- The application asks for port 80, and its peer is 10.0.0.7:4096. -/
def demoInbound : Callbacks :=
  { Handshake.demoCallbacks with
    destAddress := some (fun _ => (.kStatusOK, .inet6 (mapped demoPeer) demoPeerPort)) }

def demoRequest : List (List UInt8) :=
  [[0x05, 0x01, 0x00, 0x05, 0x02], [0x00, 0x01, 0x00, 0x00, 0x00, 0x00, 0x00, 0x50]]

def demoApplication : StartIO where
  bindRequest := .ok (.kBindRequest, 80)
  connect := none
  writeBindRequest := none
  proxyResp := .ok (firstReply 8080)
  writeBindResponse := none
  listenRequest := .ok (.kListenRequest, 1)
  writeListenResponse := none

def demoPool : ClientSessionPool where
  capacity := 1
  sockets := 2
  buffers := [List.Vector.replicate 24 0]
  proxyBindRequest := bindRequest 8080
  port := 8080
  pending := [⟨.handle2ndResp, 0⟩, ⟨.handleConnect, 1⟩]
  toProxy := [bindRequest 80]
  toClient := [.bindResponse 8080, .listenResponse]

theorem start_demoApplication : start demoApplication = some demoPool := rfl

def demoAccept (message : MicroBuffer) : AcceptIO := ⟨true, true, some (message, some ⟨true, 5⟩)⟩

theorem replies_demoInbound :
    (Handshake.handshake demoInbound BufferUser.demoFreelist demoRequest).map
      (fun h => replies h.calls) = some (firstReply 8080).toList := by
  decide +kernel

/-- From the first bytes of the request to the address that the application is told. -/
theorem demo_inbound_path_faithful : ∃ h m calls p' message,
    Handshake.handshake demoInbound BufferUser.demoFreelist demoRequest = some h ∧
    h.calls.filter Handshake.actsOnRequest = [.bind 80 8080 .kStatusOK] ∧
    (∀ actions p, system.run demoPool actions = some p → ∃ later,
      p.toProxy = bindRequest 80 :: later ∧ ∀ message ∈ later, IsBindRequest 8080 message) ∧
    h.machine.connectionSucceed demoInbound = some (true, m, calls) ∧
    system.step demoPool (.complete 0 (.received (replies calls) none ⟨[0, 0], rfl⟩)) = some p' ∧
    p'.HandsOver 0 message ∧
    accept4 (demoAccept message) ⟨[0, 0, 0, 0], rfl⟩ ⟨[0, 0, 0, 0], rfl⟩ (some 16) =
      .accepted 5 (some (sockaddrIn demoPeerPort demoPeer).toList) := by
  obtain ⟨h, hrun, -, hcalls, ⟨reply, hreply, hbinds⟩, haccepts⟩ :=
    inbound_path_faithful demoInbound 80
      ⟨⟨_, rfl, fun _ => rfl⟩, fun _ _ _ => ⟨_, rfl, rfl⟩, fun _ _ _ => ⟨_, rfl, rfl⟩⟩
      BufferUser.demoFreelist demoRequest (by decide +kernel) (by decide +kernel)
  have hreplies := replies_demoInbound
  rw [hrun] at hreplies
  obtain rfl : reply = firstReply 8080 :=
    List.Vector.toList_injective (hreply.trans (Option.some.inj hreplies))
  obtain ⟨p, hstart, -, -, hlater⟩ := hbinds demoApplication ⟨rfl, rfl, rfl, rfl, rfl⟩
  have hlisten : startListen demoApplication p = some demoPool := by
    rw [← start_demoApplication, start, hstart]
    rfl
  obtain ⟨m, calls, hsucceed, hpool⟩ := haccepts _ (mapped demoPeer) demoPeerPort rfl rfl
  obtain ⟨p', message, hstep, hhands, haccept⟩ := hpool demoPool 0 0 ⟨[0, 0], rfl⟩
    ⟨demoApplication, demoPool, [], start_demoApplication, rfl⟩ rfl rfl (by decide)
  obtain ⟨bytes, haccepted, -, hbytes⟩ := haccept (demoAccept message) 5 ⟨[0, 0, 0, 0], rfl⟩
    ⟨[0, 0, 0, 0], rfl⟩ 16 rfl rfl (by decide) rfl
  rw [hbytes demoPeer rfl (by decide) (by decide)] at haccepted
  exact ⟨h, m, calls, p', message, hrun, hcalls,
    fun actions p₂ => hlater demoPool actions p₂ hlisten, hsucceed, hstep, hhands, haccepted⟩

end PublicEndorsement.Proxy
