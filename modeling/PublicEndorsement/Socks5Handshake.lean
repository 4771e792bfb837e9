import PublicEndorsement.Socks5State

/-!
# The handshake of a bridge

`PerformSocks5Handshake` and its handler: the client is read into the upstream buffer
until the state machine asks for no more bytes. What arrives while no read is
outstanding stays in the socket.
-/

namespace PublicEndorsement.Proxy

/-- A bridge during its handshake. `reading` are the spans offered to the outstanding
read of the client, and `calls` the calls of callbacks so far. The client's bytes have
been `received` into the buffer or are still `unread` in the socket. -/
structure Handshake where
  machine : Socks5State
  upstream : Buffer
  reading : Option (List Span) := none
  calls : List HandshakeCall := []
  received : List UInt8 := []
  unread : List UInt8 := []

namespace Handshake

def startRead (h : Handshake) : Option Handshake := do
  let (spans, _, b) ← h.upstream.reserveAtLeast 1
  some { h with upstream := b, reading := some spans }

def performSocks5Handshake (freelist : Freelist) : Option Handshake :=
  startRead { machine := .create, upstream := .create defaultBlockSize freelist }

def proceedLoop (callbacks : Callbacks) : ℕ → Handshake → Option Handshake
  | fuel, h =>
    if h.machine.state = .kSuccess then some h
    else match fuel with
      | 0 => none
      | fuel + 1 => do
        let r ← h.machine.proceed callbacks h.upstream
        let h := { h with machine := r.machine, upstream := r.buffer, calls := h.calls ++ r.calls }
        if r.returned then proceedLoop callbacks fuel h else some h

/-- There are eleven states and none is entered twice, so eleven rounds are enough. -/
def socks5HandshakeHandler (callbacks : Callbacks) (ec : Option ErrorCode) (bytesRead : ℕ)
    (h : Handshake) : Option Handshake := do
  let b ← h.upstream.commit bytesRead
  let h := { h with upstream := b, reading := none }
  if ec.isSome then some h
  else
    let h ← proceedLoop callbacks 11 h
    if h.machine.insufficientBuffer h.upstream then h.startRead else some h

def arrive (callbacks : Callbacks) (h : Handshake) (chunk : List UInt8) : Option Handshake :=
  match h.reading with
  | none => some { h with unread := h.unread ++ chunk }
  | some spans => socks5HandshakeHandler callbacks none chunk.length
      { h with
        upstream := h.upstream.writeAll ((spans.flatMap Span.cells).zip chunk)
        received := h.received ++ chunk }

/-- A read takes at most what its spans have room for. -/
def fits (h : Handshake) (chunk : List UInt8) : Bool :=
  h.reading.all (fun spans => decide (chunk.length ≤ (spans.flatMap Span.cells).length))

def system (callbacks : Callbacks) : GuardedSystem Handshake (List UInt8) where
  enabled := fits
  step := arrive callbacks

end Handshake
end PublicEndorsement.Proxy
