import PublicEndorsement.HandshakeOutcome

/-!
# A bridge from its first read on

The members of a `ProxyBridge` together: the state machine of the handshake and its
outstanding read, beside the two directions. The handshake reads into the upstream
buffer, and forwarding starts with what it has left there.
-/

namespace PublicEndorsement.Proxy

/-- What the sockets answer to the callbacks of a bridge while one of its handlers runs:
how a write to the client ends, the address of the destination socket, and whether there
is an acceptor, with the port it was given. -/
structure SocketAnswers where
  write : List UInt8 → Option ErrorCode
  endpoint : Bool → Option SockAddr
  getAcceptor : UInt16 → Bool × UInt16

/-- The callbacks that `SetSocks5StateCallbacks` sets. A connection is always made
asynchronously. -/
def SocketAnswers.callbacks (answers : SocketAnswers) : Callbacks where
  response := some (fun data => if (answers.write data).isSome then .kStatusFail else .kStatusOK)
  connect := some (fun _ => .kStatusInProgress)
  destAddress := some (fun remote =>
    match answers.endpoint remote with
    | none => (.kStatusFail, .other 0)
    | some addr => (.kStatusOK, addr))
  bind := some (fun port =>
    let (found, bound) := answers.getAcceptor port
    (if found then .kStatusOK else .kStatusFail, bound))

/-- `reading` are the spans offered to the outstanding read of the handshake; the reads
and writes of forwarding are those of the two directions. -/
structure BridgeLife where
  machine : Socks5State
  reading : Option (List Span)
  bridge : ProxyBridge

inductive BridgeEntry where
  | performSocks5Handshake
  | forwardTraffic
  deriving DecidableEq

/-- What can happen next: the read of the handshake completes and its handler runs, the
connection to the destination comes about or fails, or forwarding goes on. -/
inductive LifeAction where
  | socks5HandshakeHandler (answers : SocketAnswers) (chunk : List UInt8) (ec : Option ErrorCode)
  | connectHandler (answers : SocketAnswers) (ec : Option ErrorCode)
  | acceptInboundConnection (answers : SocketAnswers)
  | forward (action : BridgeAction)

namespace BridgeLife

def create (freelists : Direction → Freelist) : BridgeLife where
  machine := .create
  reading := none
  bridge := ⟨fun d => { buff := .create defaultBlockSize (freelists d) }⟩

def handshake (s : BridgeLife) : Handshake where
  machine := s.machine
  upstream := (s.bridge.flow .upstream).buff
  reading := s.reading

def withHandshake (s : BridgeLife) (h : Handshake) : BridgeLife where
  machine := h.machine
  reading := h.reading
  bridge := ⟨Function.update s.bridge.flow .upstream
    { s.bridge.flow .upstream with buff := h.upstream }⟩

def enter (freelists : Direction → Freelist) : BridgeEntry → Option BridgeLife
  | .performSocks5Handshake => do
    let h ← (create freelists).handshake.startRead
    some ((create freelists).withHandshake h)
  | .forwardTraffic => do
    let p ← (create freelists).bridge.forwardTraffic
    some { create freelists with bridge := p }

def afterSession (s : BridgeLife) (step : SessionStep) : Option BridgeLife := do
  let p ← step.bridge
  some { s with machine := step.machine, bridge := p }

def socks5HandshakeHandler (answers : SocketAnswers) (chunk : List UInt8) (ec : Option ErrorCode)
    (s : BridgeLife) : Option BridgeLife := do
  let spans ← s.reading
  let filled := s.handshake.upstream.writeAll ((spans.flatMap Span.cells).zip chunk)
  let h ← Handshake.socks5HandshakeHandler answers.callbacks ec chunk.length
    { s.handshake with upstream := filled }
  some (s.withHandshake h)

def step (s : BridgeLife) : LifeAction → Option BridgeLife
  | .socks5HandshakeHandler answers chunk ec => s.socks5HandshakeHandler answers chunk ec
  | .connectHandler answers ec => do
    let step ← Session.connectHandler answers.callbacks ec ⟨s.machine, s.bridge⟩
    s.afterSession step
  | .acceptInboundConnection answers => do
    let step ← Session.acceptInboundConnection answers.callbacks ⟨s.machine, s.bridge⟩
    s.afterSession step
  | .forward action => do
    let p ← s.bridge.step action
    some { s with bridge := p }

/-- The handlers of the connection may be called at any time. -/
def enabled (s : BridgeLife) : LifeAction → Bool
  | .socks5HandshakeHandler _ chunk _ =>
    s.reading.any (fun spans => decide (chunk.length ≤ (spans.flatMap Span.cells).length))
  | .connectHandler _ _ => true
  | .acceptInboundConnection _ => true
  | .forward action => s.bridge.enabled action

def system : GuardedSystem BridgeLife LifeAction where
  enabled := enabled
  step := step

def live (freelists : Direction → Freelist) (entry : BridgeEntry) (actions : List LifeAction) :
    Option BridgeLife :=
  (enter freelists entry).bind (fun s => system.run s actions)

def possible (freelists : Direction → Freelist) (entry : BridgeEntry)
    (actions : List LifeAction) : Bool :=
  (enter freelists entry).all (fun s => system.schedulable s actions)

end BridgeLife
end PublicEndorsement.Proxy
