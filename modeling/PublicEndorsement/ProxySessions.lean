import PublicEndorsement.BackPressure

/-!
# The sessions of a proxy server

`ProxyServer` makes a bridge for every client. A bridge that was asked to bind waits in two ways
at once: for an inbound connection at the acceptor of its port, which it shares with the other
sessions on that port, and for its client, which may go away. Whichever comes first calls the
other off. Handlers of one session run one after the other, on its strand; all else may happen in
any order.
-/

namespace PublicEndorsement.Proxy

/-! ## One session -/

/-- What `async_wait` ends with; a client that closed its connection or has sent something makes
it readable. -/
inductive WaitResult where
  | canceled
  | ready (ec : Option ErrorCode)
  deriving DecidableEq

/-- The `async_wait` for the client. After its completion the handler is called once. -/
inductive ClientWait where
  | idle
  | outstanding
  | completed (result : WaitResult)
  deriving DecidableEq

inductive AcceptOp (γ : Type) where
  | idle
  | outstanding (port : UInt16)
  | completed (result : Except ErrorCode γ)
  deriving DecidableEq

inductive ClientOp where
  | handshakeRead
  | forwardRead
  | forwardWrite
  | wait
  deriving DecidableEq

/-- A bridge with its operations that are neither reads nor writes. `bound` is the port that a
`BIND` was given, `destSock` the inbound connection in `dest_sock_`, and `canceled` are all the
operations that `client_sock_.cancel` has hit. -/
structure ServedBridge (γ : Type) where
  life : BridgeLife
  readAborted : Bool := false
  connecting : Bool := false
  bound : Option UInt16 := none
  accept : AcceptOp γ := .idle
  wait : ClientWait := .idle
  destSock : Option γ := none
  canceled : List ClientOp := []

def operationAborted : ErrorCode := .other 125

def AsyncOp.abort (op : AsyncOp) : AsyncOp :=
  if op.completion.isNone then op.complete (some operationAborted) 0 else op

def AsyncOp.isOpen (op : AsyncOp) : Bool := op.completion.isNone

namespace ServedBridge

variable {γ : Type}

def clientOps (b : ServedBridge γ) : List ClientOp :=
  (if b.life.reading.isSome then [.handshakeRead] else []) ++
    ((b.life.bridge.flow .upstream).reads.filter AsyncOp.isOpen).map (fun _ => .forwardRead) ++
    ((b.life.bridge.flow .downstream).writes.filter AsyncOp.isOpen).map (fun _ => .forwardWrite) ++
    (if b.wait = .outstanding then [.wait] else [])

def abortFlow (p : ProxyBridge) : Direction → Flow
  | .upstream => { p.flow .upstream with
      reads := (p.flow .upstream).reads.map AsyncOp.abort }
  | .downstream => { p.flow .downstream with
      writes := (p.flow .downstream).writes.map AsyncOp.abort }

/-- `client_sock_.cancel`: all that is outstanding on the socket is aborted. -/
def cancelClient (b : ServedBridge γ) : ServedBridge γ :=
  { b with
    life := { b.life with bridge := ⟨abortFlow b.life.bridge⟩ }
    readAborted := b.readAborted || b.life.reading.isSome
    wait := if b.wait = .outstanding then .completed .canceled else b.wait
    canceled := b.canceled ++ b.clientOps }

def acceptInboundConnection (answers : SocketAnswers) (sock : γ) (b : ServedBridge γ) :
    Option (ServedBridge γ) := do
  let b := { b.cancelClient with destSock := some sock }
  let life ← b.life.step (.acceptInboundConnection answers)
  some { b with life := life }

/-- The handler of `async_accept`; a failure runs `StopWaitingInbound(false)`. -/
def acceptHandler (answers : SocketAnswers) (b : ServedBridge γ) : Option (ServedBridge γ) :=
  match b.accept with
  | .completed (.error _) => some { b with accept := .idle }.cancelClient
  | .completed (.ok sock) => acceptInboundConnection answers sock { b with accept := .idle }
  | _ => none

def handshakeHandler (answers : SocketAnswers) (chunk : List UInt8) (ec : Option ErrorCode)
    (b : ServedBridge γ) : Option (ServedBridge γ × List HandshakeCall) := do
  let spans ← b.life.reading
  let filled := b.life.handshake.upstream.writeAll ((spans.flatMap Span.cells).zip chunk)
  let h ← Handshake.socks5HandshakeHandler answers.callbacks ec chunk.length
    { b.life.handshake with upstream := filled }
  some ({ b with life := b.life.withHandshake h, readAborted := false }, h.calls)

end ServedBridge

/-! ## All sessions -/

inductive Started where
  | connect
  | bind (port : UInt16)
  deriving DecidableEq

def HandshakeCall.starts? : HandshakeCall → Option Started
  | .connect _ _ => some .connect
  | .bind _ bound .kStatusOK => some (.bind bound)
  | _ => none

structure Taken (ι γ : Type) where
  port : UInt16
  session : ι
  sock : γ
  deriving DecidableEq

/-- `queue` are the sessions with an `async_accept` outstanding, in the order in which they
started it, and `backlog` the connections that have arrived and were not accepted yet. -/
structure ProxySessions (ι γ : Type) where
  session : ι → Option (ServedBridge γ) := fun _ => none
  queue : UInt16 → List ι := fun _ => []
  backlog : UInt16 → List γ := fun _ => []
  taken : List (Taken ι γ) := []

/-- What can happen next: a client connects; the read of a handshake or a connect completes and
its handler runs; a connection arrives at a port; an accept completes or fails; a client is gone
or has sent something; the handlers of both waits run; forwarding goes on. -/
inductive SessionAction (ι γ : Type) where
  | accepted (c : ι) (freelists : Direction → Freelist)
  | socks5HandshakeHandler (c : ι) (answers : SocketAnswers) (chunk : List UInt8)
    (ec : Option ErrorCode)
  | connectHandler (c : ι) (answers : SocketAnswers) (ec : Option ErrorCode)
  | arrive (port : UInt16) (sock : γ)
  | accept (port : UInt16)
  | acceptFailure (port : UInt16) (ec : ErrorCode)
  | clientReady (c : ι) (ec : Option ErrorCode)
  | acceptHandler (c : ι) (answers : SocketAnswers)
  | waitHandler (c : ι)
  | forward (c : ι) (action : BridgeAction)

namespace ProxySessions

variable {ι γ : Type} [DecidableEq ι]

def put (c : ι) (b : ServedBridge γ) (s : ProxySessions ι γ) : ProxySessions ι γ :=
  { s with session := Function.update s.session c (some b) }

def handle (c : ι) (handler : ServedBridge γ → Option (ServedBridge γ)) (s : ProxySessions ι γ) :
    Option (ProxySessions ι γ) := do
  let b ← s.session c
  let b ← handler b
  some (s.put c b)

def start (c : ι) (b : ServedBridge γ) (s : ProxySessions ι γ) : Started → ProxySessions ι γ
  | .connect => s.put c { b with connecting := true }
  | .bind port =>
    { s.put c { b with bound := some port, accept := .outstanding port, wait := .outstanding } with
      queue := Function.update s.queue port (s.queue port ++ [c]) }

/-- At most one operation is started, by the last callback of a handler. -/
def socks5HandshakeHandler (c : ι) (answers : SocketAnswers) (chunk : List UInt8)
    (ec : Option ErrorCode) (s : ProxySessions ι γ) : Option (ProxySessions ι γ) := do
  let b ← s.session c
  let (b, calls) ← b.handshakeHandler answers chunk ec
  match calls.filterMap HandshakeCall.starts? with
  | [] => some (s.put c b)
  | [op] => some (s.start c b op)
  | _ => none

/-- The first accept that is outstanding at a port completes. -/
def completeAccept (port : UInt16) (result : Except ErrorCode γ) (s : ProxySessions ι γ) :
    Option (ProxySessions ι γ) := do
  let c ← (s.queue port).head?
  let b ← s.session c
  some { s.put c { b with accept := .completed result } with
    queue := Function.update s.queue port (s.queue port).tail }

/-- `cancel_signal_.emit`: the accept of the session is aborted, if it is outstanding. -/
def emitCancel (c : ι) (b : ServedBridge γ) (s : ProxySessions ι γ) : ProxySessions ι γ :=
  match b.accept with
  | .outstanding port =>
    { s.put c { b with accept := .completed (.error operationAborted) } with
      queue := Function.update s.queue port ((s.queue port).erase c) }
  | _ => s.put c b

/-- The handler of `async_wait`; unless it was canceled, it runs `StopWaitingInbound`. -/
def waitHandler (c : ι) (s : ProxySessions ι γ) : Option (ProxySessions ι γ) := do
  let b ← s.session c
  match b.wait with
  | .completed .canceled => some (s.put c { b with wait := .idle })
  | .completed (.ready _) => some (s.emitCancel c { b with wait := .idle })
  | _ => none

def step (s : ProxySessions ι γ) : SessionAction ι γ → Option (ProxySessions ι γ)
  | .accepted c freelists => do
    let life ← BridgeLife.enter freelists .performSocks5Handshake
    some (s.put c { life := life })
  | .socks5HandshakeHandler c answers chunk ec => s.socks5HandshakeHandler c answers chunk ec
  | .connectHandler c answers ec => s.handle c (fun b => do
    let life ← b.life.step (.connectHandler answers ec)
    some { b with life := life, connecting := false })
  | .arrive port sock =>
    some { s with backlog := Function.update s.backlog port (s.backlog port ++ [sock]) }
  | .accept port => do
    let c ← (s.queue port).head?
    let sock ← (s.backlog port).head?
    let s ← s.completeAccept port (.ok sock)
    some { s with
      backlog := Function.update s.backlog port (s.backlog port).tail
      taken := s.taken ++ [⟨port, c, sock⟩] }
  | .acceptFailure port ec => s.completeAccept port (.error ec)
  | .clientReady c ec => s.handle c (fun b => some { b with wait := .completed (.ready ec) })
  | .acceptHandler c answers => s.handle c (ServedBridge.acceptHandler answers)
  | .waitHandler c => s.waitHandler c
  | .forward c action => s.handle c (fun b => do
    let life ← b.life.step (.forward action)
    some { b with life := life })

/-- An operation completes only while it is outstanding, and a handler runs after that. A read
that was aborted has read nothing. -/
def enabled (s : ProxySessions ι γ) : SessionAction ι γ → Bool
  | .accepted c _ => (s.session c).isNone
  | .socks5HandshakeHandler c answers chunk ec => (s.session c).any (fun b =>
    b.life.enabled (.socks5HandshakeHandler answers chunk ec) &&
      (!b.readAborted || decide (chunk = [] ∧ ec = some operationAborted)))
  | .connectHandler c _ _ => (s.session c).any ServedBridge.connecting
  | .arrive _ _ => true
  | .accept port => !(s.queue port).isEmpty && !(s.backlog port).isEmpty
  | .acceptFailure port _ => !(s.queue port).isEmpty
  | .clientReady c _ => (s.session c).any (fun b => decide (b.wait = .outstanding))
  | .acceptHandler c _ => (s.session c).any (fun b =>
    match b.accept with
    | .completed _ => true
    | _ => false)
  | .waitHandler c => (s.session c).any (fun b =>
    match b.wait with
    | .completed _ => true
    | _ => false)
  | .forward c action => (s.session c).any (fun b => b.life.enabled (.forward action))

def system : GuardedSystem (ProxySessions ι γ) (SessionAction ι γ) where
  enabled := enabled
  step := step

end ProxySessions
end PublicEndorsement.Proxy
