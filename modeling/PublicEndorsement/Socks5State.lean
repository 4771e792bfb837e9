import PublicEndorsement.ProxyBridge

/-!
# The SOCKS5 state machine of the proxy

`Socks5State` with its callbacks. Each call of `Proceed` takes one field of the
handshake from the buffer; what the callbacks answer is up to their owner. Calling a
callback that is not set throws, and the model then returns nothing.
-/

namespace PublicEndorsement.Proxy

/-- The bytes of a fixed-size array, in the order of their addresses. -/
abbrev Octets (n : ℕ) := List.Vector UInt8 n

/-- A `uint16_t` as it lies in memory in network byte order. -/
def htons (port : UInt16) : Octets 2 :=
  ⟨[UInt8.ofNat (port.toNat / 256), UInt8.ofNat port.toNat], rfl⟩

def ntohs (bytes : Octets 2) : UInt16 :=
  UInt16.ofNat ((bytes.get 0).toNat * 256 + (bytes.get 1).toNat)

/-- A socket address; ports and addresses are kept in network byte order. -/
inductive SockAddr where
  | inet (sinAddr : Octets 4) (sinPort : Octets 2)
  | inet6 (sin6Addr : Octets 16) (sin6Port : Octets 2)
  | other (family : ℕ)
  deriving DecidableEq

def fillAddrPort : SockAddr → List UInt8
  | .inet sinAddr sinPort => 0x01 :: (sinAddr.toList ++ sinPort.toList)
  | .inet6 sin6Addr sin6Port => 0x04 :: (sin6Addr.toList ++ sin6Port.toList)
  | .other _ => []

inductive HandshakeState where
  | kGreetingHeader
  | kGreetingMethods
  | kRequestHeader
  | kRequestAddrV4
  | kRequestAddrV6
  | kRequestBind
  | kWaitConnect
  | kWaitAccept
  | kResponse
  | kSuccess
  | kFail
  deriving DecidableEq, Repr

inductive CallbackStatus where
  | kStatusOK
  | kStatusInProgress
  | kStatusFail
  deriving DecidableEq, Repr

/-- The callbacks that are set. An address is looked up on the destination socket, its
remote one for a `BIND`; a bind answers with the port that was bound. -/
structure Callbacks where
  response : Option (List UInt8 → CallbackStatus)
  connect : Option (SockAddr → CallbackStatus)
  destAddress : Option (Bool → CallbackStatus × SockAddr)
  bind : Option (UInt16 → CallbackStatus × UInt16)

inductive HandshakeCall where
  | response (data : List UInt8) (ret : CallbackStatus)
  | connect (addr : SockAddr) (ret : CallbackStatus)
  | destAddress (remote : Bool) (ret : CallbackStatus)
  | bind (port bound : UInt16) (ret : CallbackStatus)
  deriving DecidableEq

def HandshakeState.requires : HandshakeState → ℕ → Prop
  | .kGreetingHeader, n => n = 2
  | .kGreetingMethods, n => 1 ≤ n ∧ n ≤ 255
  | .kRequestHeader, n => n = 4
  | .kRequestAddrV4, n => n = 4 + 2
  | .kRequestAddrV6, n => n = 16 + 2
  | .kRequestBind, n => n = 4 + 2 ∨ n = 16 + 2
  | .kWaitConnect, n => n = 0
  | .kWaitAccept, n => n = 0
  | .kResponse, n => n = 0
  | .kSuccess, _ => True
  | .kFail, _ => True

structure Socks5State where
  state : HandshakeState
  requiredSize : ℕ
  required : state.requires requiredSize

namespace Socks5State

def create : Socks5State := ⟨.kGreetingHeader, 2, rfl⟩

/-- `state_ = kFail`; the size asked for stays what it was. -/
def fail (m : Socks5State) : Socks5State := ⟨.kFail, m.requiredSize, trivial⟩

def insufficientBuffer (m : Socks5State) (buffer : Buffer) : Bool :=
  decide (buffer.dataSize < m.requiredSize)

end Socks5State

def createResp (callbacks : Callbacks) (isBind : Bool) : List UInt8 × List HandshakeCall :=
  let errResp := [0x05, 0x01, 0x00, 0x01, 0x00, 0x00, 0x00, 0x00, 0x00, 0x00]
  match callbacks.destAddress with
  | none => (errResp, [])
  | some destAddress =>
    let (ret, addr) := destAddress isBind
    if ret = .kStatusOK then
      ([0x05, 0x00, 0x00] ++ fillAddrPort addr, [.destAddress isBind ret])
    else (errResp, [.destAddress isBind ret])

structure Proceeded where
  returned : Bool
  machine : Socks5State
  buffer : Buffer
  calls : List HandshakeCall

namespace Proceeded

/-- The end of `Proceed`, which every `break` leads to. -/
def ofBreak (m : Socks5State) (buffer : Buffer) (calls : List HandshakeCall) : Proceeded :=
  ⟨decide (m.state ≠ .kFail), m, buffer, calls⟩

def returnFalse (m : Socks5State) (buffer : Buffer) (calls : List HandshakeCall) : Proceeded :=
  ⟨false, m, buffer, calls⟩

end Proceeded

/-- `CopyOut` to an array of `n` bytes, of which none may be left unset. -/
def copyOutArray (n : ℕ) (buffer : Buffer) : Option (Octets n × Buffer) := do
  let (bytes, _, buffer) ← buffer.copyOut false n
  if h : bytes.length = n then some (⟨bytes, h⟩, buffer) else none

namespace Socks5State

open Proceeded

variable (callbacks : Callbacks) (m : Socks5State) (buffer : Buffer)

def greetingHeader : Option Proceeded := do
  let (greeting, buffer) ← copyOutArray 2 buffer
  if h : greeting.get 0 ≠ 0x05 ∨ greeting.get 1 = 0 then some (ofBreak m.fail buffer [])
  else
    have hsize : 1 ≤ (greeting.get 1).toNat ∧ (greeting.get 1).toNat ≤ 255 := by
      have hne := (not_or.mp h).2
      have hlt := (greeting.get 1).toNat_lt
      rw [← UInt8.toNat_inj, UInt8.toNat_zero] at hne
      omega
    some (ofBreak ⟨.kGreetingMethods, (greeting.get 1).toNat, hsize⟩ buffer [])

def greetingMethods : Option Proceeded := do
  let nMethods := m.requiredSize
  let (methods, buffer) ← copyOutArray nMethods buffer
  if 0x00 ∉ methods.toList then some (ofBreak m.fail buffer [])
  else
    let kGreetingResp := [0x05, 0x00]
    let requestHeader : Socks5State := ⟨.kRequestHeader, 4, rfl⟩
    match callbacks.response with
    | none => some (ofBreak requestHeader buffer [])
    | some response =>
      let ret := response kGreetingResp
      if ret ≠ .kStatusOK then some (ofBreak m.fail buffer [.response kGreetingResp ret])
      else some (ofBreak requestHeader buffer [.response kGreetingResp ret])

def requestHeader : Option Proceeded := do
  let (header, buffer) ← copyOutArray 4 buffer
  if header.get 0 ≠ 0x05 ∨ header.get 2 ≠ 0x00 then some (ofBreak m.fail buffer [])
  else if header.get 1 = 0x01 then
    let atyp := header.get 3
    if atyp = 0x01 then some (ofBreak ⟨.kRequestAddrV4, 6, rfl⟩ buffer [])
    else if atyp = 0x04 then some (ofBreak ⟨.kRequestAddrV6, 16 + 2, rfl⟩ buffer [])
    else some (ofBreak m.fail buffer [])
  else if header.get 1 = 0x02 then
    let atyp := header.get 3
    if atyp = 0x01 then some (ofBreak ⟨.kRequestBind, 6, .inl rfl⟩ buffer [])
    else if atyp = 0x04 then some (ofBreak ⟨.kRequestBind, 16 + 2, .inr rfl⟩ buffer [])
    else some (ofBreak m.fail buffer [])
  else some (ofBreak m.fail buffer [])

/-- The states for the two address families do the same with the address they read. -/
def requestConnect (addr : SockAddr) : Proceeded :=
  match callbacks.connect with
  | none => ofBreak ⟨.kWaitConnect, 0, rfl⟩ buffer []
  | some connect =>
    match connect addr with
    | .kStatusOK => ofBreak ⟨.kResponse, 0, rfl⟩ buffer [.connect addr .kStatusOK]
    | .kStatusInProgress =>
      returnFalse ⟨.kWaitConnect, 0, rfl⟩ buffer [.connect addr .kStatusInProgress]
    | .kStatusFail => ofBreak ⟨.kFail, 0, trivial⟩ buffer [.connect addr .kStatusFail]

def requestAddrV4 : Option Proceeded := do
  let (sinAddr, buffer) ← copyOutArray 4 buffer
  let (sinPort, buffer) ← copyOutArray 2 buffer
  some (requestConnect callbacks buffer (.inet sinAddr sinPort))

def requestAddrV6 : Option Proceeded := do
  let (sin6Addr, buffer) ← copyOutArray 16 buffer
  let (sin6Port, buffer) ← copyOutArray 2 buffer
  some (requestConnect callbacks buffer (.inet6 sin6Addr sin6Port))

/-- The first reply to a `BIND`, always with an IPv4 address of zeros. -/
def bindResp (bound : UInt16) : List UInt8 :=
  [0x05, 0x00, 0x00, 0x01, 0x00, 0x00, 0x00, 0x00] ++ (htons bound).toList

def requestBind : Option Proceeded := do
  let (_, _, buffer) ← buffer.copyOut true (m.requiredSize - 2)
  let (port, buffer) ← copyOutArray 2 buffer
  let bind ← callbacks.bind
  let (ret, bound) := bind (ntohs port)
  let bindCall := HandshakeCall.bind (ntohs port) bound ret
  if ret = .kStatusFail then some (ofBreak ⟨.kFail, 0, trivial⟩ buffer [bindCall])
  else
    let response ← callbacks.response
    let ret := response (bindResp bound)
    let calls := [bindCall, .response (bindResp bound) ret]
    if ret = .kStatusFail then some (ofBreak ⟨.kFail, 0, trivial⟩ buffer calls)
    else some (returnFalse ⟨.kWaitAccept, 0, rfl⟩ buffer calls)

def response : Option Proceeded := do
  let (resp, calls) := createResp callbacks false
  let response ← callbacks.response
  let ret := response resp
  let calls := calls ++ [.response resp ret]
  if ret ≠ .kStatusOK then some (ofBreak m.fail buffer calls)
  else some (ofBreak ⟨.kSuccess, 1, trivial⟩ buffer calls)

def proceed : Option Proceeded :=
  if m.insufficientBuffer buffer then some (returnFalse m buffer [])
  else match m.state with
    | .kGreetingHeader => m.greetingHeader buffer
    | .kGreetingMethods => m.greetingMethods callbacks buffer
    | .kRequestHeader => m.requestHeader buffer
    | .kRequestAddrV4 => requestAddrV4 callbacks buffer
    | .kRequestAddrV6 => requestAddrV6 callbacks buffer
    | .kRequestBind => m.requestBind callbacks buffer
    | .kWaitConnect => some (returnFalse m buffer [])
    | .kWaitAccept => some (returnFalse m buffer [])
    | .kResponse => m.response callbacks buffer
    | .kSuccess => some (returnFalse m buffer [])
    | .kFail => some (returnFalse ⟨.kFail, 0, trivial⟩ buffer [])

def connectionSucceed : Option (Bool × Socks5State × List HandshakeCall) :=
  let send := fun (isBind : Bool) => do
    let (resp, calls) := createResp callbacks isBind
    let response ← callbacks.response
    let ret := response resp
    let m := if ret ≠ .kStatusOK then m.fail else m
    -- Overwrites the failure that may just have been noted.
    let m : Socks5State := ⟨.kSuccess, m.requiredSize, trivial⟩
    some (decide (m.state = .kSuccess), m, calls ++ [.response resp ret])
  match m.state with
  | .kWaitConnect => send false
  | .kWaitAccept => send true
  | _ => some (false, m.fail, [])

section Transitions

variable {callbacks : Callbacks} {m : Socks5State} {b : Buffer} {r : Proceeded}

/-- The methods are refused, or their reply cannot be delivered, or the request comes
next. -/
theorem greetingMethods_inv (h : m.greetingMethods callbacks b = some r) :
    ∃ methods calls, copyOutArray m.requiredSize b = some methods ∧
      (r = .ofBreak m.fail methods.2 calls ∨
        r = .ofBreak ⟨.kRequestHeader, 4, rfl⟩ methods.2 calls ∧
          ∀ call ∈ calls, call = .response [0x05, 0x00] .kStatusOK) := by
  simp only [greetingMethods, Option.bind_eq_bind, Option.bind_eq_some_iff] at h
  obtain ⟨methods, hcopy, h⟩ := h
  split_ifs at h
  · split at h
    · cases h
      exact ⟨methods, [], hcopy, .inr ⟨rfl, nofun⟩⟩
    · split_ifs at h with hsent <;> cases h
      · exact ⟨methods, _, hcopy, .inl rfl⟩
      · refine ⟨methods, _, hcopy, .inr ⟨rfl, fun call hcall => ?_⟩⟩
        rw [List.mem_singleton.mp hcall, not_not.mp hsent]
  · cases h
    exact ⟨methods, [], hcopy, .inl rfl⟩

/-- Addresses of both families are read in the same way. -/
theorem requestAddr_inv
    (h : requestAddrV4 callbacks b = some r ∨ requestAddrV6 callbacks b = some r) :
    ∃ n, ∃ (addr : Octets n × Buffer) (port : Octets 2 × Buffer) (sockAddr : SockAddr),
      copyOutArray n b = some addr ∧ copyOutArray 2 addr.2 = some port ∧
      r = requestConnect callbacks port.2 sockAddr := by
  rcases h with h | h
  · simp only [requestAddrV4, Option.bind_eq_bind, Option.bind_eq_some_iff] at h
    obtain ⟨addr, haddr, port, hport, h⟩ := h
    exact ⟨4, addr, port, _, haddr, hport, (Option.some_injective _ h).symm⟩
  · simp only [requestAddrV6, Option.bind_eq_bind, Option.bind_eq_some_iff] at h
    obtain ⟨addr, haddr, port, hport, h⟩ := h
    exact ⟨16, addr, port, _, haddr, hport, (Option.some_injective _ h).symm⟩

/-- A `BIND` fails, or it is told the port it was given and waits. -/
theorem requestBind_inv (h : m.requestBind callbacks b = some r) :
    ∃ skipped port, b.copyOut true (m.requiredSize - 2) = some skipped ∧
      copyOutArray 2 skipped.2.2 = some port ∧
      ((∃ calls, r = .ofBreak ⟨.kFail, 0, trivial⟩ port.2 calls) ∨
        ∃ bound ret sent, sent ≠ .kStatusFail ∧
          r = .returnFalse ⟨.kWaitAccept, 0, rfl⟩ port.2
            [.bind (ntohs port.1) bound ret, .response (bindResp bound) sent]) := by
  simp only [requestBind, Option.bind_eq_bind, Option.bind_eq_some_iff] at h
  obtain ⟨skipped, hskip, port, hport, bind, -, h⟩ := h
  refine ⟨skipped, port, hskip, hport, ?_⟩
  split_ifs at h
  · cases h
    exact .inl ⟨_, rfl⟩
  · obtain ⟨response, -, h⟩ := Option.bind_eq_some_iff.mp h
    split_ifs at h with hsent <;> cases h
    · exact .inl ⟨_, rfl⟩
    · exact .inr ⟨_, _, _, hsent, rfl⟩

theorem response_inv (h : m.response callbacks b = some r) :
    ∃ calls, r = .ofBreak m.fail b calls ∨ r = .ofBreak ⟨.kSuccess, 1, trivial⟩ b calls := by
  simp only [response, Option.bind_eq_bind, Option.bind_eq_some_iff] at h
  obtain ⟨response, -, h⟩ := h
  split_ifs at h <;> cases h
  · exact ⟨_, .inl rfl⟩
  · exact ⟨_, .inr rfl⟩

end Transitions
end Socks5State
end PublicEndorsement.Proxy
