import PublicEndorsement.Socks5Grammar
import PublicEndorsement.Socks5Handshake

/-!
# One field of the handshake

With callbacks that go along, each call of `Proceed` does to the buffer and to the
state machine what the reader of the grammar does to the bytes.
-/

namespace PublicEndorsement.Proxy

open BasicBuffer Socks5

variable {b : Buffer} {reservation : Option (List Span)} {bytes : List UInt8}

def Holds (b : Buffer) (reservation : Option (List Span)) (bytes : List UInt8) : Prop :=
  ∃ data space, Represents b reservation none data space ∧ b.contents = bytes

namespace Holds

theorem create (freelist : Freelist) : Holds (.create defaultBlockSize freelist) none [] := by
  obtain ⟨data, space, h⟩ := @BufferUser.wellformed_create defaultBlockSize freelist
  refine ⟨data, space, h, ?_⟩
  rfl

theorem dataSize_eq (h : Holds b reservation bytes) : b.dataSize = bytes.length := by
  obtain ⟨data, space, h, rfl⟩ := h
  exact h.dataSize_eq

theorem copyOut (h : Holds b reservation bytes) (toNull : Bool) (n : ℕ) :
    ∃ b', b.copyOut toNull n =
        some (if toNull then [] else bytes.take n, min n bytes.length, b') ∧
      Holds b' reservation (bytes.drop n) := by
  obtain ⟨data, space, h, rfl⟩ := h
  obtain ⟨copied, size, b', data', space', hcopy, h', hstep⟩ := h.copyOut toNull n
  obtain ⟨hitems, hsize, hqueue⟩ := hstep.copyOut_inv
  dsimp only at hitems hsize
  refine ⟨b', ?_, data', space', h', congrArg FifoQueue.contents hqueue⟩
  rw [hcopy, hitems, hsize]
  rfl

theorem copyOutArray {n : ℕ} {rest : List UInt8} (field : Octets n)
    (h : Holds b reservation (field.toList ++ rest)) :
    ∃ b', Proxy.copyOutArray n b = some (field, b') ∧ Holds b' reservation rest := by
  obtain ⟨b', hcopy, h'⟩ := h.copyOut false n
  rw [List.take_left' field.toList_length] at hcopy
  rw [List.drop_left' field.toList_length] at h'
  refine ⟨b', ?_, h'⟩
  rw [Proxy.copyOutArray, hcopy]
  simp

theorem reserveAtLeast (h : Holds b none bytes) :
    ∃ spans size b', b.reserveAtLeast 1 = some (spans, size, b') ∧ Holds b' (some spans) bytes := by
  obtain ⟨data, space, h, rfl⟩ := h
  obtain ⟨spans, b', data', space', hreserve, h', hstep⟩ := h.reserveAtLeast le_rfl
  obtain ⟨region, -, hqueue⟩ := hstep.reserveAtLeast_inv
  exact ⟨spans, _, b', hreserve, data', space', h', congrArg FifoQueue.contents hqueue⟩

/-- Bytes that a read has put into its spans are appended when they are committed. -/
theorem commit {spans : List Span} {chunk : List UInt8} (h : Holds b (some spans) bytes)
    (hle : chunk.length ≤ (spans.flatMap Span.cells).length) :
    ∃ b', (b.writeAll ((spans.flatMap Span.cells).zip chunk)).commit chunk.length = some b' ∧
      Holds b' none (bytes ++ chunk) := by
  obtain ⟨data, space, h, rfl⟩ := h
  obtain ⟨hfill, hcontents, htake⟩ := h.fill hle
  obtain ⟨b', data', space', hcommit, h', hstep⟩ := hfill.commit hle
  obtain ⟨region, hregion, hqueue⟩ := hstep.commit_inv
  refine ⟨b', hcommit, data', space', h', ?_⟩
  have hbytes := congrArg FifoQueue.contents hqueue
  have hread : (b.writeAll ((spans.flatMap Span.cells).zip chunk)).readSpans spans = region :=
    Option.some_injective _ hregion
  change b'.contents = _ ++ _ at hbytes
  rw [hbytes, ← hread, htake]
  exact congrArg (· ++ chunk) hcontents

end Holds

/-- The replies reach the client. Of the requests that are served, a connection is still
being made when the connect callback returns, and a port is bound. -/
structure Callbacks.Serve (callbacks : Callbacks) (served : Socks5.Request → Prop) : Prop where
  response : ∃ f, callbacks.response = some f ∧ ∀ data, f data = .kStatusOK
  connect : ∀ r, served r → r.command = .connect →
    ∃ f, callbacks.connect = some f ∧ f r.sockAddr = .kStatusInProgress
  bind : ∀ r, served r → r.command = .bind →
    ∃ f, callbacks.bind = some f ∧ (f (ntohs r.port)).1 = .kStatusOK

def Callbacks.Cooperative (callbacks : Callbacks) : Prop := callbacks.Serve (fun _ => True)

def Callbacks.boundPort (callbacks : Callbacks) (port : UInt16) : UInt16 :=
  (callbacks.bind.map (fun f => (f port).2)).getD port

namespace Socks5

def Request.calls (callbacks : Callbacks) (r : Request) : List HandshakeCall :=
  match r.command with
  | .connect => [.connect r.sockAddr .kStatusInProgress]
  | .bind =>
    let bound := callbacks.boundPort (ntohs r.port)
    [.bind (ntohs r.port) bound .kStatusOK, .response (Socks5State.bindResp bound) .kStatusOK]

def Command.waitState : Command → HandshakeState
  | .connect => .kWaitConnect
  | .bind => .kWaitAccept

def methodReply : HandshakeCall := .response [0x05, 0x00] .kStatusOK

namespace Phase

def calls (callbacks : Callbacks) : Phase → List HandshakeCall
  | .greetingHeader => []
  | .methods _ => []
  | .requestHeader => [methodReply]
  | .address _ _ => [methodReply]
  | .waiting r => methodReply :: r.calls callbacks
  | .failed greeted => if greeted then [methodReply] else []

def state : Phase → HandshakeState
  | .greetingHeader => .kGreetingHeader
  | .methods _ => .kGreetingMethods
  | .requestHeader => .kRequestHeader
  | .address .connect .v4 => .kRequestAddrV4
  | .address .connect .v6 => .kRequestAddrV6
  | .address .bind _ => .kRequestBind
  | .waiting r => r.command.waitState
  | .failed _ => .kFail

/-- A state machine in the given phase. The size asked for after a failure is what it
happened to be before. -/
structure Describes (p : Phase) (m : Socks5State) : Prop where
  state : m.state = p.state
  size : m.state ≠ .kFail → m.requiredSize = p.size

structure Takes (callbacks : Callbacks) (p : Phase) (field rest : List UInt8) (r : Proceeded) :
    Prop where
  describes : (p.next field).Describes r.machine
  holds : Holds r.buffer none rest
  calls : p.calls callbacks ++ r.calls = (p.next field).calls callbacks
  returned : r.returned = !(p.next field).done

variable {callbacks : Callbacks} {served : Request → Prop} {rest field : List UInt8}
  {p q : Phase} {m : Socks5State}
  {calls : List HandshakeCall}

theorem Describes.fail {greeted : Bool} : (failed greeted).Describes m.fail :=
  ⟨rfl, fun h => absurd rfl h⟩

/-- A field after which the loop goes on, or ends with a failure. -/
theorem Takes.ofBreak (hnext : p.next field = q) (hq : q.Describes m) (hb : Holds b none rest)
    (hcalls : p.calls callbacks ++ calls = q.calls callbacks)
    (hdone : decide (m.state ≠ .kFail) = !q.done) :
    Takes callbacks p field rest (.ofBreak m b calls) :=
  ⟨hnext ▸ hq, hb, hnext ▸ hcalls, hnext ▸ hdone⟩

/-- A field after which the application has to act. -/
theorem Takes.returnFalse (hnext : p.next field = q) (hq : q.Describes m)
    (hb : Holds b none rest) (hcalls : p.calls callbacks ++ calls = q.calls callbacks)
    (hdone : q.done = true) : Takes callbacks p field rest (.returnFalse m b calls) :=
  ⟨hnext ▸ hq, hb, hnext ▸ hcalls, by rw [hnext, hdone]; rfl⟩

theorem greetingHeader_takes (m : Socks5State) {ver nMethods : UInt8}
    (hb : Holds b none (ver :: nMethods :: rest)) :
    ∃ r, m.greetingHeader b = some r ∧
      Takes callbacks .greetingHeader [ver, nMethods] rest r := by
  obtain ⟨b', hcopy, hb'⟩ := Holds.copyOutArray (n := 2) ⟨[ver, nMethods], rfl⟩ hb
  rw [Socks5State.greetingHeader, hcopy]
  by_cases h : ver ≠ 0x05 ∨ nMethods = 0
  · have hnext : next .greetingHeader [ver, nMethods] = .failed false := by rw [next, if_pos h]
    exact ⟨_, dif_pos h, .ofBreak hnext .fail hb' rfl rfl⟩
  · have hnext : next .greetingHeader [ver, nMethods] = .methods nMethods := by
      rw [next, if_neg h]
    exact ⟨_, dif_neg h, .ofBreak hnext ⟨rfl, fun _ => rfl⟩ hb' rfl rfl⟩

theorem greetingMethods_takes (hcallbacks : callbacks.Serve served) {nMethods : UInt8}
    (hsize : m.requiredSize = field.length) (hb : Holds b none (field ++ rest)) :
    ∃ r, m.greetingMethods callbacks b = some r ∧
      Takes callbacks (.methods nMethods) field rest r := by
  obtain ⟨response, hresponse, hok⟩ := hcallbacks.response
  obtain ⟨b', hcopy, hb'⟩ := Holds.copyOutArray (n := m.requiredSize) ⟨field, hsize.symm⟩ hb
  rw [Socks5State.greetingMethods, hcopy]
  by_cases h : 0x00 ∉ field
  · have hnext : next (.methods nMethods) field = .failed false := by rw [next, if_pos h]
    exact ⟨_, if_pos h, .ofBreak hnext .fail hb' rfl rfl⟩
  · have hnext : next (.methods nMethods) field = .requestHeader := by rw [next, if_neg h]
    refine ⟨.ofBreak ⟨.kRequestHeader, 4, rfl⟩ b' [methodReply], (if_neg h).trans ?_,
      .ofBreak hnext ⟨rfl, fun _ => rfl⟩ hb' rfl rfl⟩
    simp only [hresponse, hok, ne_eq, not_true_eq_false, if_false]
    rfl

theorem requestHeader_refuses (m : Socks5State) {ver cmd rsv atyp : UInt8} {b' : Buffer}
    (hcopy : copyOutArray 4 b = some (⟨[ver, cmd, rsv, atyp], rfl⟩, b'))
    (hbad : ver ≠ 0x05 ∨ rsv ≠ 0x00 ∨ cmd ∉ [0x01, 0x02] ∨ atyp ∉ [0x01, 0x04]) :
    m.requestHeader b = some (.ofBreak m.fail b' []) := by
  rw [Socks5State.requestHeader, hcopy]
  change (if ver ≠ 0x05 ∨ rsv ≠ 0x00 then _ else if cmd = 0x01 then
    (if atyp = 0x01 then _ else if atyp = 0x04 then _ else _) else if cmd = 0x02 then
    (if atyp = 0x01 then _ else if atyp = 0x04 then _ else _) else _) = _
  rw [← or_assoc] at hbad
  rcases hbad with hfixed | hcmd | hatyp
  · exact if_pos hfixed
  · rw [List.mem_pair, not_or] at hcmd
    rw [if_neg hcmd.1, if_neg hcmd.2, ite_self]
  · rw [List.mem_pair, not_or] at hatyp
    simp only [if_neg hatyp.1, if_neg hatyp.2, ite_self]

theorem requestHeader_takes (m : Socks5State) {ver cmd rsv atyp : UInt8}
    (hb : Holds b none (ver :: cmd :: rsv :: atyp :: rest)) :
    ∃ r, m.requestHeader b = some r ∧
      Takes callbacks .requestHeader [ver, cmd, rsv, atyp] rest r := by
  obtain ⟨b', hcopy, hb'⟩ := Holds.copyOutArray (n := 4) ⟨[ver, cmd, rsv, atyp], rfl⟩ hb
  rcases next_requestHeader ver cmd rsv atyp with
    ⟨command, family, hheader, hnext⟩ | ⟨hbad, hnext⟩
  · simp only [List.cons.injEq] at hheader
    obtain ⟨rfl, rfl, rfl, rfl, -⟩ := hheader
    rw [Socks5State.requestHeader, hcopy]
    cases command <;> cases family <;>
      exact ⟨_, rfl, .ofBreak hnext ⟨rfl, fun _ => rfl⟩ hb' rfl rfl⟩
  · exact ⟨.ofBreak m.fail b' [], requestHeader_refuses m hcopy hbad,
      .ofBreak hnext .fail hb' rfl rfl⟩

theorem requestConnect_takes (hcallbacks : callbacks.Serve served) {r : Request}
    (hserved : served r) (hcommand : r.command = .connect)
    (hnext : p.next field = .waiting r)
    (hcalls : p.calls callbacks = [methodReply]) (hb : Holds b none rest) :
    Takes callbacks p field rest (Socks5State.requestConnect callbacks b r.sockAddr) := by
  obtain ⟨connect, hconnect, hprogress⟩ := hcallbacks.connect r hserved hcommand
  rw [Socks5State.requestConnect, hconnect]
  simp only [hprogress]
  refine .returnFalse hnext ⟨?_, fun _ => rfl⟩ hb ?_ rfl
  · rw [Phase.state, hcommand]
    rfl
  · rw [hcalls, Phase.calls, Request.calls, hcommand]
    rfl

theorem requestAddrV4_eq {b₁ b₂ : Buffer} {addr : Octets 4} {port : Octets 2}
    (haddr : copyOutArray 4 b = some (addr, b₁)) (hport : copyOutArray 2 b₁ = some (port, b₂)) :
    Socks5State.requestAddrV4 callbacks b =
      some (Socks5State.requestConnect callbacks b₂ (.inet addr port)) := by
  simp [Socks5State.requestAddrV4, haddr, hport]

theorem requestAddrV6_eq {b₁ b₂ : Buffer} {addr : Octets 16} {port : Octets 2}
    (haddr : copyOutArray 16 b = some (addr, b₁)) (hport : copyOutArray 2 b₁ = some (port, b₂)) :
    Socks5State.requestAddrV6 callbacks b =
      some (Socks5State.requestConnect callbacks b₂ (.inet6 addr port)) := by
  simp [Socks5State.requestAddrV6, haddr, hport]

theorem requestAddr_takes (hcallbacks : callbacks.Serve served) {r : Request}
    (hserved : served r) (hcommand : r.command = .connect)
    (hb : Holds b none ((r.addr.toList ++ r.port.toList) ++ rest)) :
    ∃ r', (match r.family with
        | .v4 => Socks5State.requestAddrV4 callbacks b
        | .v6 => Socks5State.requestAddrV6 callbacks b) = some r' ∧
      Takes callbacks (.address r.command r.family) (r.addr.toList ++ r.port.toList) rest r' := by
  rw [List.append_assoc] at hb
  obtain ⟨b₁, haddr, hb₁⟩ := Holds.copyOutArray r.addr hb
  obtain ⟨b₂, hport, hb₂⟩ := Holds.copyOutArray r.port hb₁
  refine ⟨_, ?_, requestConnect_takes hcallbacks hserved hcommand (next_address r) rfl hb₂⟩
  obtain ⟨command, family, addr, port⟩ := r
  cases family
  · exact requestAddrV4_eq haddr hport
  · exact requestAddrV6_eq haddr hport

theorem requestBind_takes (hcallbacks : callbacks.Serve served) {r : Request}
    (hserved : served r) (hcommand : r.command = .bind)
    (hsize : m.requiredSize = r.family.size + 2)
    (hb : Holds b none ((r.addr.toList ++ r.port.toList) ++ rest)) :
    ∃ r', m.requestBind callbacks b = some r' ∧
      Takes callbacks (.address r.command r.family) (r.addr.toList ++ r.port.toList) rest r' := by
  obtain ⟨bind, hbind, hok⟩ := hcallbacks.bind r hserved hcommand
  obtain ⟨response, hresponse, hsent⟩ := hcallbacks.response
  rw [List.append_assoc] at hb
  obtain ⟨b₁, hskip, hb₁⟩ := hb.copyOut true (m.requiredSize - 2)
  rw [hsize, Nat.add_sub_cancel, List.drop_left' r.addr.toList_length] at hb₁
  obtain ⟨b₂, hport, hb₂⟩ := Holds.copyOutArray r.port hb₁
  refine ⟨.returnFalse ⟨.kWaitAccept, 0, rfl⟩ b₂ (r.calls callbacks), ?_, ?_⟩
  · rw [Socks5State.requestBind, hskip]
    simp only [Option.bind_eq_bind, Option.bind_some, hport, hbind, hresponse, hok, hsent,
      reduceCtorEq, if_false, Request.calls, hcommand, Callbacks.boundPort, Option.map_some,
      Option.getD_some]
  · refine .returnFalse (next_address r) ⟨?_, fun _ => rfl⟩ hb₂ rfl rfl
    rw [Phase.state, hcommand]
    rfl

theorem Describes.size_of_not_done (hp : p.Describes m) (hdone : p.done = false) :
    m.requiredSize = p.size := by
  refine hp.size ?_
  rw [hp.state]
  cases p with
  | waiting r => simp [Phase.done] at hdone
  | failed greeted => simp [Phase.done] at hdone
  | address command family => cases command <;> cases family <;> simp [Phase.state]
  | _ => simp [Phase.state]

theorem not_insufficient (hp : p.Describes m) (hdone : p.done = false)
    (hlen : field.length = p.size) (hb : Holds b none (field ++ rest)) :
    m.insufficientBuffer b = false := by
  rw [Socks5State.insufficientBuffer, hb.dataSize_eq, hp.size_of_not_done hdone,
    List.length_append, hlen]
  simp

/-- One call of `Proceed` takes one field. -/
theorem proceed_takes (hcallbacks : callbacks.Serve served) (hp : p.Describes m)
    (hdone : p.done = false) (hlen : field.length = p.size) (hb : Holds b none (field ++ rest))
    (hserved : ∀ r, p.next field = .waiting r → served r) :
    ∃ r, m.proceed callbacks b = some r ∧ Takes callbacks p field rest r := by
  have hstate := hp.state
  rw [Socks5State.proceed, not_insufficient hp hdone hlen hb, hstate]
  cases p with
  | greetingHeader =>
    obtain ⟨ver, nMethods, rfl⟩ := List.length_eq_two.mp hlen
    exact greetingHeader_takes m hb
  | methods nMethods =>
    have hsize : m.requiredSize = field.length := by
      rw [hlen, hp.size_of_not_done hdone]
    exact greetingMethods_takes hcallbacks hsize hb
  | requestHeader =>
    obtain ⟨ver, cmd, rsv, atyp, rfl⟩ : ∃ ver cmd rsv atyp, field = [ver, cmd, rsv, atyp] := by
      match field, hlen with
      | [ver, cmd, rsv, atyp], _ => exact ⟨ver, cmd, rsv, atyp, rfl⟩
    exact requestHeader_takes m hb
  | address command family =>
    obtain ⟨addr, port, rfl⟩ := exists_addr_port hlen
    cases command with
    | connect =>
      have h := requestAddr_takes (r := ⟨.connect, family, addr, port⟩) hcallbacks
        (hserved _ (next_address ⟨.connect, family, addr, port⟩)) rfl hb
      cases family <;> exact h
    | bind =>
      have hsize : m.requiredSize = family.size + 2 := hp.size_of_not_done hdone
      exact requestBind_takes (r := ⟨.bind, family, addr, port⟩) hcallbacks
        (hserved _ (next_address ⟨.bind, family, addr, port⟩)) rfl hsize hb
  | waiting r => simp [Phase.done] at hdone
  | failed greeted => simp [Phase.done] at hdone

end Phase
end Socks5
end PublicEndorsement.Proxy
