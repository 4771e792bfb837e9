import PublicEndorsement.GuardedSystem
import PublicEndorsement.Socks5State

/-!
# The pool of standby connections

`ClientSessionPool` keeps connections to the proxy on which a `BIND` is waiting. The
operations on its sockets complete in any order and with any outcome; every handler is
given the index of its socket.
-/

namespace PublicEndorsement.Proxy

inductive MessageType where
  | kBindRequest
  | kBindResponse
  | kListenRequest
  | kListenResponse
  | kNewConnectionResponse
  | kInvalidMessage
  deriving DecidableEq, Repr

/-- `kMicroBufferSize` bytes; a `NewConnectionResponse` fills them. -/
abbrev MicroBuffer := Octets 24

inductive VendorMessage where
  | bindResponse (port : UInt16)
  | listenResponse
  | newConnectionResponse (message : MicroBuffer)

structure StartIO where
  bindRequest : Except ErrorCode (MessageType × UInt16)
  connect : Option ErrorCode
  writeBindRequest : Option ErrorCode
  proxyResp : Except ErrorCode (Octets 12)
  writeBindResponse : Option ErrorCode
  listenRequest : Except ErrorCode (MessageType × ℤ)
  writeListenResponse : Option ErrorCode

inductive PoolHandler where
  | initiateSocket
  | handleConnect
  | handle1stResp
  | handle2ndResp
  | handleSendFd
  deriving DecidableEq, Repr

structure PoolOp where
  handler : PoolHandler
  index : ℕ
  deriving DecidableEq, Repr

/-- A call of a handler, with the sizes of the two vectors at that moment. -/
structure HandlerRun where
  handler : PoolHandler
  index : ℕ
  poolSize : ℕ
  buffersSize : ℕ
  deriving DecidableEq, Repr

def HandlerRun.inRange (run : HandlerRun) : Bool :=
  decide (run.index < run.poolSize ∧ run.index < run.buffersSize)

/-- The pool. `sockets` is the size of `pool_` and `capacity` is `pool_size_`; `toProxy` and
`toClient` are the messages written so far. -/
structure ClientSessionPool where
  capacity : ℕ
  sockets : ℕ
  buffers : List MicroBuffer
  proxyBindRequest : Octets 13
  port : UInt16
  numberOfErrors : ℕ := 0
  stop : Bool := false
  pending : List PoolOp := []
  runs : List HandlerRun := []
  toProxy : List (Octets 13) := []
  toClient : List VendorMessage := []

namespace ClientSessionPool

def kMaxConnections : ℤ := 128

def k2ndBindResponseSize : ℕ := 22

def bindReqTemplate : Octets 13 :=
  ⟨[0x05, 0x01, 0x00, 0x05, 0x02, 0x00, 0x01, 0x00, 0x00, 0x00, 0x00, 0x00, 0x00], rfl⟩

def fillInPort (request : Octets 13) (port : Octets 2) : Octets 13 :=
  ⟨request.toList.take 11 ++ port.toList, by simp⟩

/-- `Start` up to the response to the application's `bind`: the pool keeps the request with
the port that the proxy has bound. -/
def startBind (io : StartIO) : Option ClientSessionPool := do
  let (type, requested) ← io.bindRequest.toOption
  guard (type = .kBindRequest)
  guard io.connect.isNone
  let request := fillInPort bindReqTemplate (htons requested)
  guard io.writeBindRequest.isNone
  let proxyRespBuf ← io.proxyResp.toOption
  guard (proxyRespBuf.get 3 = 0x00)
  let port : Octets 2 := ⟨proxyRespBuf.toList.drop 10, by simp⟩
  guard io.writeBindResponse.isNone
  some
    { capacity := 0
      sockets := 1
      buffers := []
      proxyBindRequest := fillInPort request port
      port := ntohs port
      toProxy := [request]
      toClient := [.bindResponse (ntohs port)] }

/-- The rest of `Start`. The first socket waits for its second response already. -/
def startListen (io : StartIO) (p : ClientSessionPool) : Option ClientSessionPool := do
  let (type, backlog) ← io.listenRequest.toOption
  guard (type = .kListenRequest)
  guard io.writeListenResponse.isNone
  guard (0 ≤ backlog)
  let backlog := if backlog > kMaxConnections then kMaxConnections else backlog
  some { p with
    capacity := backlog.toNat
    buffers := List.replicate backlog.toNat (List.Vector.replicate 24 0)
    -- A second socket is added whatever the size of the pool.
    sockets := p.sockets + 1
    pending := [⟨.handle2ndResp, 0⟩, ⟨.handleConnect, 1⟩]
    toClient := p.toClient ++ [.listenResponse] }

def start (io : StartIO) : Option ClientSessionPool := do
  let p ← startBind io
  startListen io p

def enter (handler : PoolHandler) (index : ℕ) (p : ClientSessionPool) : ClientSessionPool :=
  { p with runs := p.runs ++ [⟨handler, index, p.sockets, p.buffers.length⟩] }

def await (handler : PoolHandler) (index : ℕ) (p : ClientSessionPool) : ClientSessionPool :=
  { p with pending := p.pending ++ [⟨handler, index⟩] }

def buf (index : ℕ) (p : ClientSessionPool) : MicroBuffer :=
  p.buffers.getD index (List.Vector.replicate 24 0)

def overwrite (bytes : List UInt8) (buf : MicroBuffer) : MicroBuffer :=
  ⟨(bytes ++ buf.toList.drop bytes.length).take 24, by
    rw [List.length_take, List.length_append, List.length_drop, List.Vector.toList_length]
    omega⟩

def fill (index : ℕ) (bytes : List UInt8) (p : ClientSessionPool) : ClientSessionPool :=
  { p with buffers := p.buffers.set index (overwrite bytes (p.buf index)) }

def initiateSocket (index : ℕ) (p : ClientSessionPool) : ClientSessionPool :=
  (p.enter .initiateSocket index).await .handleConnect index

/-- An error is counted and the socket is made anew. -/
def retry (index : ℕ) (p : ClientSessionPool) : ClientSessionPool :=
  initiateSocket index { p with numberOfErrors := p.numberOfErrors + 1 }

def handleConnect (index : ℕ) (ec writeError : Option ErrorCode) (p : ClientSessionPool) :
    ClientSessionPool :=
  let p := p.enter .handleConnect index
  if p.stop then p
  else if ec.isSome then p.retry index
  else if writeError.isSome then p.retry index
  else await .handle1stResp index { p with toProxy := p.toProxy ++ [p.proxyBindRequest] }

def handle1stResp (index : ℕ) (ec : Option ErrorCode) (p : ClientSessionPool) :
    ClientSessionPool :=
  let p := p.enter .handle1stResp index
  if p.stop then p
  else if ec.isSome then p.retry index
  else if (p.buf index).get 3 ≠ 0x00 then p.retry index
  else
    let p := p.await .handle2ndResp index
    if index = p.sockets - 1 ∧ p.sockets < p.capacity then
      await .handleConnect (index + 1) { p with sockets := p.sockets + 1 }
    else p

/-- A `NewConnectionResponse` with the address and the port of a second response. Its type
is stored with the low byte first, and its last two bytes are padding. -/
def newConnResp (buf : MicroBuffer) (padding : Octets 2) : MicroBuffer :=
  ⟨[0x04, 0x00, 0x00, 0x00] ++ (buf.toList.drop 4).take 16 ++ (buf.toList.drop 20).take 2 ++
    padding.toList, by simp⟩

def handle2ndResp (index bytesRead : ℕ) (ec : Option ErrorCode) (padding : Octets 2)
    (p : ClientSessionPool) : ClientSessionPool :=
  let p := p.enter .handle2ndResp index
  if p.stop then p
  else if ec.isSome ∨ bytesRead < k2ndBindResponseSize ∨ (p.buf index).get 1 ≠ 0x00 then
    p.retry index
  else (p.fill index (newConnResp (p.buf index) padding).toList).await .handleSendFd index

/-- `sent` says whether `sendmsg` sent anything; if it did not, the pool is stopped. -/
def handleSendFd (index : ℕ) (ec : Option ErrorCode) (sent : Bool) (p : ClientSessionPool) :
    ClientSessionPool :=
  let p := p.enter .handleSendFd index
  if p.stop then p
  else if ec.isSome then p.retry index
  else if sent then
    initiateSocket index
      { p with toClient := p.toClient ++ [.newConnectionResponse (p.buf index)] }
  else { p with stop := true }

def handleClientError (p : ClientSessionPool) : ClientSessionPool := { p with stop := true }

inductive Completion where
  | connected (ec writeError : Option ErrorCode)
  | received (bytes : List UInt8) (ec : Option ErrorCode) (padding : Octets 2)
  | writable (ec : Option ErrorCode) (sent : Bool)

inductive PoolAction where
  | complete (i : ℕ) (completion : Completion)
  | clientError

/-- A read fills at most what it was given. A whole first response is read, or the read
fails. -/
def accepts : PoolHandler → Completion → Bool
  | .handleConnect, .connected _ _ => true
  | .handle1stResp, .received bytes ec _ =>
    decide (bytes.length ≤ 12) && (ec.isSome || decide (bytes.length = 12))
  | .handle2ndResp, .received bytes _ _ => decide (bytes.length ≤ k2ndBindResponseSize)
  | .handleSendFd, .writable _ _ => true
  | _, _ => false

def enabled (p : ClientSessionPool) : PoolAction → Bool
  | .complete i completion => (p.pending[i]?).any (fun op => accepts op.handler completion)
  | .clientError => true

def dispatch (op : PoolOp) (completion : Completion) (p : ClientSessionPool) :
    Option ClientSessionPool :=
  match op.handler, completion with
  | .handleConnect, .connected ec writeError => some (p.handleConnect op.index ec writeError)
  | .handle1stResp, .received bytes ec _ => some ((p.fill op.index bytes).handle1stResp op.index ec)
  | .handle2ndResp, .received bytes ec padding =>
    some ((p.fill op.index bytes).handle2ndResp op.index bytes.length ec padding)
  | .handleSendFd, .writable ec sent => some (p.handleSendFd op.index ec sent)
  | _, _ => none

def step (p : ClientSessionPool) : PoolAction → Option ClientSessionPool
  | .complete i completion => do
    let op ← p.pending[i]?
    dispatch op completion { p with pending := p.pending.eraseIdx i }
  | .clientError => some p.handleClientError

def system : GuardedSystem ClientSessionPool PoolAction where
  enabled := enabled
  step := step

end ClientSessionPool
end PublicEndorsement.Proxy
