import PublicEndorsement.BufferRefinement
import PublicEndorsement.GuardedSystem

/-!
# Forwarding between two sockets

`ProxyBridge` once the handshake is over. Its two directions use separate buffers and
separate flags, and meet only in `ForwardTraffic`, which every handler ends with. The
sockets carry out the operations started on them at any later moment; the handlers
run one at a time.
-/

namespace PublicEndorsement.Proxy

def defaultBlockSize : BlockSize := ⟨4096, by decide⟩

abbrev Buffer := BasicBuffer defaultBlockSize

/-- The error of a completed operation; `error_code` without failure is `none`. -/
inductive ErrorCode where
  | eof
  | other (value : ℤ)
  deriving DecidableEq, Repr

/-- An operation started on a socket with the spans offered to it. When the socket is
done with it, `completion` holds what its handler will be called with. -/
structure AsyncOp where
  spans : List Span
  completion : Option (Option ErrorCode × ℕ)

namespace AsyncOp

def start (spans : List Span) : AsyncOp := ⟨spans, none⟩

def complete (op : AsyncOp) (ec : Option ErrorCode) (n : ℕ) : AsyncOp :=
  { op with completion := some (ec, n) }

def size (op : AsyncOp) : ℕ := (op.spans.map Span.len).sum

/-- The bytes the socket moved that the handler has not been told of yet. -/
def transferred (op : AsyncOp) : ℕ := (op.completion.map Prod.snd).getD 0

end AsyncOp

/-- What a direction has done. A `shutdownSend` records whether the source could still
be read and how much was buffered. -/
inductive FlowEvent where
  | asyncReadSome
  | asyncWriteSome (offered : List UInt8)
  | readHandler (ec : Option ErrorCode)
  | writeHandler (ec : Option ErrorCode)
  | shutdownSend (readable : Bool) (buffered : ℕ)
  | shutdownReceive
  deriving DecidableEq, Repr

/-- One direction of a bridge: what is read from the source socket goes through `buff`
and is written to the far socket. Upstream, these are `client_sock_`, `upstream_buff_`
and `dest_sock_`, with the flags `reading_client_`, `client_readable_`, `writing_dest_`
and `dest_writable_`; downstream, client and destination are exchanged.

`reads` are the reads outstanding on the source and `writes` the writes outstanding on
the far socket; `received` and `sent` are the bytes that came from the one and went to
the other. -/
structure Flow where
  buff : Buffer
  reading : Bool := false
  readable : Bool := true
  writing : Bool := false
  writable : Bool := true
  reads : List AsyncOp := []
  writes : List AsyncOp := []
  received : List UInt8 := []
  sent : List UInt8 := []
  history : List FlowEvent := []

def kMaxBufferSize : ℕ := 32 * 1024

def kReadSize : ℕ := 8 * 1024

namespace Flow

def record (e : FlowEvent) (f : Flow) : Flow := { f with history := f.history ++ [e] }

def wantsRead (f : Flow) : Bool :=
  !f.reading && f.readable && f.writable && decide (f.buff.dataSize < kMaxBufferSize)

def wantsWrite (f : Flow) : Bool := !f.writing && f.writable && decide (0 < f.buff.dataSize)

def startRead (spans : List Span) (b : Buffer) (f : Flow) : Flow :=
  record .asyncReadSome
    { f with buff := b, reading := true, reads := f.reads ++ [.start spans] }

def startWrite (spans : List Span) (b : Buffer) (f : Flow) : Flow :=
  record (.asyncWriteSome (b.readSpans spans))
    { f with buff := b, writing := true, writes := f.writes ++ [.start spans] }

def scheduleRead (f : Flow) : Option Flow :=
  if f.wantsRead then do
    let (spans, _, b) ← f.buff.reserveAtLeast kReadSize
    some (f.startRead spans b)
  else some f

def scheduleWrite (f : Flow) : Option Flow :=
  if f.wantsWrite then do
    let (spans, b) ← f.buff.peek
    some (f.startWrite spans b)
  else some f

def shutdownSend (f : Flow) : Flow := f.record (.shutdownSend f.readable f.buff.dataSize)

def afterRead (ec : Option ErrorCode) (f : Flow) : Flow :=
  let f := f.record (.readHandler ec)
  if ec.isSome then
    let f := { f with readable := false }
    if f.buff.dataSize = 0 then f.shutdownSend else f
  else f

def afterWrite (ec : Option ErrorCode) (f : Flow) : Flow :=
  let f := f.record (.writeHandler ec)
  let f := if ec.isSome then { f with writable := false }.record .shutdownReceive else f
  -- Tested after a failed write as well, so that one call may shut down both sockets.
  if !f.readable && f.buff.dataSize == 0 then { f with writable := false }.shutdownSend else f

/-- A read handler up to its call of `ForwardTraffic`. -/
def readHandler (ec : Option ErrorCode) (bytesRead : ℕ) (f : Flow) : Option Flow := do
  let b ← f.buff.commit bytesRead
  some (afterRead ec { f with reading := false, buff := b })

def writeHandler (ec : Option ErrorCode) (bytesWritten : ℕ) (f : Flow) : Option Flow := do
  let b ← f.buff.drain bytesWritten
  some (afterWrite ec { f with writing := false, buff := b })

/-- The source socket fills the front of the spans offered to its `i`-th read `op`. -/
def fill (i : ℕ) (op : AsyncOp) (bytes : List UInt8) (ec : Option ErrorCode) (f : Flow) : Flow :=
  { f with
    buff := f.buff.writeAll ((op.spans.flatMap Span.cells).zip bytes)
    reads := f.reads.set i (op.complete ec bytes.length)
    received := f.received ++ bytes }

def take (i : ℕ) (op : AsyncOp) (n : ℕ) (ec : Option ErrorCode) (f : Flow) : Flow :=
  { f with
    writes := f.writes.set i (op.complete ec n)
    sent := f.sent ++ (f.buff.readSpans op.spans).take n }

def receive (i : ℕ) (bytes : List UInt8) (ec : Option ErrorCode) (f : Flow) : Option Flow :=
  (f.reads[i]?).map (fun op => f.fill i op bytes ec)

def send (i n : ℕ) (ec : Option ErrorCode) (f : Flow) : Option Flow :=
  (f.writes[i]?).map (fun op => f.take i op n ec)

/-- The bytes in reserved spans that a read has put there and no handler has
committed yet. -/
def unreportedReads (f : Flow) : List UInt8 :=
  f.reads.flatMap (fun op => (f.buff.readSpans op.spans).take op.transferred)

/-- How many bytes of the buffer writes have sent that no handler has drained yet. -/
def unreportedWrites (f : Flow) : ℕ := (f.writes.map AsyncOp.transferred).sum

end Flow

inductive Direction where
  | upstream
  | downstream
  deriving DecidableEq, Repr

structure ProxyBridge where
  flow : Direction → Flow

inductive BridgeAction where
  | receive (d : Direction) (i : ℕ) (bytes : List UInt8) (ec : Option ErrorCode)
  | send (d : Direction) (i n : ℕ) (ec : Option ErrorCode)
  | readHandler (d : Direction) (i : ℕ)
  | writeHandler (d : Direction) (i : ℕ)

namespace ProxyBridge

def modify (d : Direction) (act : Flow → Option Flow) (p : ProxyBridge) : Option ProxyBridge :=
  (act (p.flow d)).map (fun f => ⟨Function.update p.flow d f⟩)

def forwardTraffic (p : ProxyBridge) : Option ProxyBridge := do
  let p ← p.modify .upstream Flow.scheduleRead
  let p ← p.modify .downstream Flow.scheduleWrite
  let p ← p.modify .downstream Flow.scheduleRead
  p.modify .upstream Flow.scheduleWrite

def readHandler (d : Direction) (ec : Option ErrorCode) (bytesRead : ℕ) (p : ProxyBridge) :
    Option ProxyBridge := do
  let p ← p.modify d (Flow.readHandler ec bytesRead)
  p.forwardTraffic

def writeHandler (d : Direction) (ec : Option ErrorCode) (bytesWritten : ℕ) (p : ProxyBridge) :
    Option ProxyBridge := do
  let p ← p.modify d (Flow.writeHandler ec bytesWritten)
  p.forwardTraffic

def clientReadHandler := readHandler .upstream

def clientWriteHandler := writeHandler .downstream

def destReadHandler := readHandler .downstream

def destWriteHandler := writeHandler .upstream

def boundReadHandler : Direction → Option ErrorCode → ℕ → ProxyBridge → Option ProxyBridge
  | .upstream => clientReadHandler
  | .downstream => destReadHandler

def boundWriteHandler : Direction → Option ErrorCode → ℕ → ProxyBridge → Option ProxyBridge
  | .upstream => destWriteHandler
  | .downstream => clientWriteHandler

/-- A socket moves at most what was offered, and only a completed operation has its
handler called. -/
def enabled (p : ProxyBridge) : BridgeAction → Bool
  | .receive d i bytes _ => ((p.flow d).reads[i]?).any
      (fun op => op.completion.isNone && decide (bytes.length ≤ op.size))
  | .send d i n _ => ((p.flow d).writes[i]?).any
      (fun op => op.completion.isNone && decide (n ≤ op.size))
  | .readHandler d i => ((p.flow d).reads[i]?).any (fun op => op.completion.isSome)
  | .writeHandler d i => ((p.flow d).writes[i]?).any (fun op => op.completion.isSome)

def step (p : ProxyBridge) : BridgeAction → Option ProxyBridge
  | .receive d i bytes ec => p.modify d (Flow.receive i bytes ec)
  | .send d i n ec => p.modify d (Flow.send i n ec)
  | .readHandler d i => do
    let op ← (p.flow d).reads[i]?
    let (ec, bytesRead) ← op.completion
    let p ← p.modify d (fun f => some { f with reads := f.reads.eraseIdx i })
    p.boundReadHandler d ec bytesRead
  | .writeHandler d i => do
    let op ← (p.flow d).writes[i]?
    let (ec, bytesWritten) ← op.completion
    let p ← p.modify d (fun f => some { f with writes := f.writes.eraseIdx i })
    p.boundWriteHandler d ec bytesWritten

def system : GuardedSystem ProxyBridge BridgeAction where
  enabled := enabled
  step := step

end ProxyBridge

/-- A buffer as forwarding finds it: after any disciplined use, with no spans held. -/
structure QuietBuffer where
  buffer : Buffer
  reached : ∃ freelist calls results,
    (BufferUser.create defaultBlockSize freelist).disciplined calls = true ∧
    (BufferUser.create defaultBlockSize freelist).run calls = some (results, ⟨buffer, none, none⟩)

namespace ProxyBridge

def connected (buffers : Direction → QuietBuffer) : ProxyBridge where
  flow := fun d => { buff := (buffers d).buffer }

/-- Forwarding starts with a call of `ForwardTraffic`; the actions follow. -/
def forward (buffers : Direction → QuietBuffer) (actions : List BridgeAction) :
    Option ProxyBridge :=
  (connected buffers).forwardTraffic.bind (fun p => system.run p actions)

def possible (buffers : Direction → QuietBuffer) (actions : List BridgeAction) : Bool :=
  (connected buffers).forwardTraffic.all (fun p => system.schedulable p actions)

end ProxyBridge
end PublicEndorsement.Proxy
