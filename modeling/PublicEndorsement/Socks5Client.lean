import PublicEndorsement.HandshakeResults

/-!
# The client side of a connection

`socks5_client_connect` of the preload library, which runs in place of `connect`. It
sends the whole handshake at once and then reads the replies, knowing their length only
after it has seen the type of the address.
-/

namespace PublicEndorsement.Proxy

/-- What the next `recv` on a socket meets: a signal, an error, or bytes. -/
inductive RecvEvent where
  | interrupted
  | failed
  | segment (first : UInt8) (rest : List UInt8)
  deriving DecidableEq, Repr

/-- All that is still to come on a socket, before it is shut down. -/
abbrev Inbox := List RecvEvent

namespace Inbox

def bytes : Inbox → List UInt8
  | [] => []
  | .segment b bs :: inbox => b :: bs ++ bytes inbox
  | _ :: inbox => bytes inbox

/-- `recv_all`: what was received, and what is left. A call of `recv` takes the front of
the segment that has arrived. -/
def recvAll : Inbox → ℕ → List UInt8 × Inbox
  | inbox, 0 => ([], inbox)
  | [], _ + 1 => ([], [])
  | .interrupted :: inbox, len + 1 => recvAll inbox (len + 1)
  | .failed :: inbox, _ + 1 => ([], inbox)
  | .segment b bs :: inbox, len + 1 =>
    let received := (b :: bs).take (len + 1)
    match (b :: bs).drop (len + 1) with
    | [] =>
      let (more, inbox) := recvAll inbox (len + 1 - received.length)
      (received ++ more, inbox)
    | b' :: bs' => (received, .segment b' bs' :: inbox)

/-- A stream on which nothing worse than a signal happens. -/
def intact (inbox : Inbox) : Prop := RecvEvent.failed ∉ inbox

/-- A segment that is used up. -/
theorem recvAll_used (b : UInt8) (bs : List UInt8) (inbox : Inbox) (n : ℕ) :
    recvAll (.segment b bs :: inbox) ((b :: bs).length + n) =
      (b :: bs ++ (recvAll inbox n).1, (recvAll inbox n).2) := by
  have hle : (b :: bs).length ≤ bs.length + n + 1 := by
    rw [List.length_cons]
    omega
  have hlen : (b :: bs).length + n = bs.length + n + 1 := by
    rw [List.length_cons]
    omega
  rw [hlen, recvAll, List.drop_eq_nil_of_le hle, List.take_of_length_le hle]
  simp only [← hlen, Nat.add_sub_cancel_left]

/-- A segment of which something is left. -/
theorem recvAll_left {b x z : UInt8} {bs xs zs : List UInt8} (h : b :: bs = x :: xs ++ z :: zs)
    (inbox : Inbox) :
    recvAll (.segment b bs :: inbox) (x :: xs).length = (x :: xs, .segment z zs :: inbox) := by
  have htake : (b :: bs).take (xs.length + 1) = x :: xs := by
    rw [h]
    exact List.take_left' rfl
  have hdrop : (b :: bs).drop (xs.length + 1) = z :: zs := by
    rw [h]
    exact List.drop_left' rfl
  rw [List.length_cons, recvAll, htake, hdrop]

theorem recvAll_spec {inbox : Inbox} (hintact : inbox.intact) {xs ys : List UInt8}
    (h : inbox.bytes = xs ++ ys) :
    ∃ inbox', inbox.recvAll xs.length = (xs, inbox') ∧ inbox'.bytes = ys ∧ inbox'.intact := by
  induction inbox generalizing xs with
  | nil =>
    obtain ⟨rfl, rfl⟩ := List.append_eq_nil_iff.mp h.symm
    exact ⟨[], rfl, rfl, hintact⟩
  | cons e inbox ih =>
    have hrest : intact inbox := fun hmem => hintact (List.mem_cons_of_mem e hmem)
    cases xs with
    | nil => exact ⟨e :: inbox, by simp [recvAll], h, hintact⟩
    | cons x xs =>
      cases e with
      | interrupted =>
        have htail : bytes inbox = (x :: xs) ++ ys := h
        obtain ⟨inbox', hrun, hbytes, hintact'⟩ := ih hrest htail
        exact ⟨inbox', by simpa [recvAll] using hrun, hbytes, hintact'⟩
      | failed => exact absurd List.mem_cons_self hintact
      | segment b bs =>
        have hused : ∀ zs, x :: xs = b :: bs ++ zs → bytes inbox = zs ++ ys →
            ∃ inbox', recvAll (.segment b bs :: inbox) (x :: xs).length = (x :: xs, inbox') ∧
              bytes inbox' = ys ∧ intact inbox' := by
          intro zs hxs htail
          obtain ⟨inbox', hrun, hbytes, hintact'⟩ := ih hrest htail
          refine ⟨inbox', ?_, hbytes, hintact'⟩
          rw [hxs, List.length_append, recvAll_used, hrun]
        rcases List.append_eq_append_iff.mp h with ⟨zs, hxs, htail⟩ | ⟨zs, hseg, hys⟩
        · exact hused zs hxs htail
        · cases zs with
          | nil => exact hused [] (by simpa using hseg.symm) hys.symm
          | cons z zs =>
            refine ⟨_, recvAll_left hseg inbox, hys.symm, ?_⟩
            intro hmem
            exact hrest (List.mem_of_ne_of_mem (by simp) hmem)

/-- What was received in full is what came first. -/
theorem recvAll_of_length {inbox : Inbox} {len : ℕ} (h : (inbox.recvAll len).1.length = len) :
    (inbox.recvAll len).1 = inbox.bytes.take len := by
  induction inbox, len using recvAll.induct with
  | case1 inbox => simp [recvAll]
  | case2 len => simp [recvAll] at h
  | case3 inbox len ih =>
    simp only [recvAll] at h ⊢
    exact ih h
  | case4 inbox len => simp [recvAll] at h
  | case5 b bs inbox len received hused more left hmore ih =>
    have hle : (b :: bs).length ≤ len + 1 := List.drop_eq_nil_iff.mp hused
    obtain ⟨n, hn⟩ := Nat.exists_eq_add_of_le hle
    have hreceived : len + 1 - received.length = n := by
      simp only [received, List.take_of_length_le hle]
      omega
    rw [hreceived] at ih
    rw [Nat.succ_eq_add_one, hn, recvAll_used] at h ⊢
    rw [List.length_append, Nat.add_left_cancel_iff] at h
    rw [ih h, bytes, List.take_length_add_append]
  | case6 b bs inbox len b' bs' hleft =>
    rw [recvAll, hleft]
    have hlt : len + 1 < (b :: bs).length := by
      by_contra hle
      rw [List.drop_eq_nil_of_le (not_lt.mp hle)] at hleft
      cases hleft
    exact (List.take_append_of_le_length hlt.le).symm

end Inbox

structure ClientResult where
  ret : ℤ
  sent : List UInt8
  inbox : Inbox

/-- `send` and `malloc` are what the system answers: the number of bytes sent, and whether
there is memory. -/
def socks5ClientConnect (send : List UInt8 → ℤ) (malloc : ℕ → Bool) (addr : SockAddr)
    (inbox : Inbox) : ClientResult :=
  let copied := fillAddrPort addr
  if copied.length = 0 then ⟨-1, [], inbox⟩
  else
    let out := [0x05, 0x01, 0x00, 0x05, 0x01, 0x00] ++ copied
    if send out ≠ out.length then ⟨-1, out, inbox⟩
    else
      let expectedReply := [0x05, 0x00, 0x05, 0x00, 0x00]
      let toReceive := expectedReply.length + 2
      let (buffer, inbox) := inbox.recvAll toReceive
      if buffer.length ≠ toReceive then ⟨-1, out, inbox⟩
      else if buffer.take expectedReply.length ≠ expectedReply then
        let rep := buffer.getD 3 0
        ⟨if rep ≠ 0 then -(rep.toNat : ℤ) else -1, out, inbox⟩
      else
        let atyp := buffer.getD expectedReply.length 0
        let extraByte := buffer.getD (expectedReply.length + 1) 0
        let toReceive :=
          if atyp = 0x01 then 4 + 2 - 1
          else if atyp = 0x03 then extraByte.toNat + 2
          else if atyp = 0x04 then 16 + 2 - 1
          else toReceive
        if toReceive + 1 > 64 ∧ malloc (toReceive + 1) = false then ⟨-1, out, inbox⟩
        else
          let (received, inbox) := inbox.recvAll toReceive
          if received.length ≠ toReceive then ⟨-1, out, inbox⟩ else ⟨0, out, inbox⟩

def SockAddr.isInet : SockAddr → Bool
  | .other _ => false
  | _ => true

/-- The first byte of an address, and the rest with the port. -/
theorem exists_extraByte {n : ℕ} (addr : Octets (n + 1)) (port : Octets 2) :
    ∃ extraByte tail, addr.toList ++ port.toList = extraByte :: tail ∧ tail.length = n + 2 := by
  refine ⟨addr.head, addr.tail.toList ++ port.toList, ?_, by simp⟩
  rw [← List.cons_append, ← List.Vector.toList_cons, List.Vector.cons_head_tail]

/-- The address type, the byte that is read along with it, and the rest. -/
theorem fillAddrPort_cases {addr : SockAddr} (h : addr.isInet = true) :
    ∃ atyp extraByte tail, fillAddrPort addr = atyp :: extraByte :: tail ∧
      (atyp = 0x01 ∧ tail.length = 4 + 2 - 1 ∨ atyp = 0x04 ∧ tail.length = 16 + 2 - 1) := by
  cases addr with
  | inet sinAddr sinPort =>
    obtain ⟨extraByte, tail, hbytes, hlen⟩ := exists_extraByte sinAddr sinPort
    exact ⟨0x01, extraByte, tail, by rw [fillAddrPort, hbytes], .inl ⟨rfl, hlen⟩⟩
  | inet6 sin6Addr sin6Port =>
    obtain ⟨extraByte, tail, hbytes, hlen⟩ := exists_extraByte sin6Addr sin6Port
    exact ⟨0x04, extraByte, tail, by rw [fillAddrPort, hbytes], .inr ⟨rfl, hlen⟩⟩
  | other family => simp [SockAddr.isInet] at h

/-- The client takes exactly the two replies, whatever they are followed by. -/
theorem socks5ClientConnect_spec {send : List UInt8 → ℤ} {malloc : ℕ → Bool}
    {addr localAddr : SockAddr} {inbox : Inbox} {rest : List UInt8}
    (hsend : ∀ data, send data = data.length) (haddr : addr.isInet = true)
    (hlocal : localAddr.isInet = true) (hintact : inbox.intact)
    (hbytes : inbox.bytes =
      [0x05, 0x00] ++ ([0x05, 0x00, 0x00] ++ fillAddrPort localAddr) ++ rest) :
    (socks5ClientConnect send malloc addr inbox).ret = 0 ∧
      (socks5ClientConnect send malloc addr inbox).inbox.bytes = rest := by
  obtain ⟨atyp, extraByte, tail, hreply, htail⟩ := fillAddrPort_cases hlocal
  have hcopied : (fillAddrPort addr).length ≠ 0 := by
    obtain ⟨_, _, _, hcopied, -⟩ := fillAddrPort_cases haddr
    simp [hcopied]
  have hfirst : inbox.bytes =
      [0x05, 0x00, 0x05, 0x00, 0x00, atyp, extraByte] ++ (tail ++ rest) := by
    rw [hbytes, hreply]
    simp
  obtain ⟨inbox₁, hrecv₁, hbytes₁, hintact₁⟩ := Inbox.recvAll_spec hintact hfirst
  obtain ⟨inbox₂, hrecv₂, hbytes₂, -⟩ := Inbox.recvAll_spec hintact₁ hbytes₁
  change inbox.recvAll 7 = _ at hrecv₁
  have hlen : (if atyp = 0x01 then 5 else if atyp = 0x03 then extraByte.toNat + 2
      else if atyp = 0x04 then 17 else 7) = tail.length := by
    rcases htail with ⟨rfl, htail⟩ | ⟨rfl, htail⟩ <;> simp [htail]
  have hsmall : ¬ (tail.length + 1 > 64 ∧ malloc (tail.length + 1) = false) := by omega
  have hrun : socks5ClientConnect send malloc addr inbox =
      ⟨0, [0x05, 0x01, 0x00, 0x05, 0x01, 0x00] ++ fillAddrPort addr, inbox₂⟩ := by
    simp only [socks5ClientConnect, if_neg hcopied, hsend, ne_eq, not_true_eq_false, if_false,
      List.length_cons, List.length_nil, Nat.reduceAdd, Nat.reduceSub, hrecv₁, List.take_succ_cons,
      List.take_zero, List.getD_cons_succ, List.getD_cons_zero, hlen, if_neg hsmall, hrecv₂]
  rw [hrun]
  exact ⟨rfl, hbytes₂⟩

theorem socks5ClientConnect_sent {send : List UInt8 → ℤ} {malloc : ℕ → Bool} {addr : SockAddr}
    {inbox : Inbox} (haddr : addr.isInet = true) :
    (socks5ClientConnect send malloc addr inbox).sent =
      [0x05, 0x01, 0x00, 0x05, 0x01, 0x00] ++ fillAddrPort addr := by
  obtain ⟨_, _, _, hcopied, -⟩ := fillAddrPort_cases haddr
  rw [socks5ClientConnect, if_neg (by simp [hcopied])]
  dsimp only
  -- Every branch after the send has sent the same.
  simp only [apply_ite ClientResult.sent, ite_self]

/-- A connection is granted only after the whole request was sent, and by the expected replies. -/
theorem replies_of_ret_eq_zero {send : List UInt8 → ℤ} {malloc : ℕ → Bool} {addr : SockAddr}
    {inbox : Inbox} (haddr : addr.isInet = true)
    (hret : (socks5ClientConnect send malloc addr inbox).ret = 0) :
    send (socks5ClientConnect send malloc addr inbox).sent =
        (socks5ClientConnect send malloc addr inbox).sent.length ∧
      inbox.bytes.take 5 = [0x05, 0x00, 0x05, 0x00, 0x00] := by
  rw [socks5ClientConnect_sent haddr]
  obtain ⟨_, _, _, hcopied, -⟩ := fillAddrPort_cases haddr
  rw [socks5ClientConnect, if_neg (by simp [hcopied])] at hret
  dsimp only at hret
  by_cases hsend : send ([0x05, 0x01, 0x00, 0x05, 0x01, 0x00] ++ fillAddrPort addr) =
      ([0x05, 0x01, 0x00, 0x05, 0x01, 0x00] ++ fillAddrPort addr).length
  swap
  · rw [if_pos hsend] at hret
    cases hret
  rw [if_neg (not_not.mpr hsend)] at hret
  simp only [List.length_cons, List.length_nil, Nat.reduceAdd] at hret
  refine ⟨hsend, ?_⟩
  by_cases hlen : (inbox.recvAll 7).1.length = 7
  swap
  · rw [if_pos hlen] at hret
    cases hret
  have hfirst := Inbox.recvAll_of_length hlen
  by_contra hreply
  have hother : (inbox.recvAll 7).1.take 5 ≠ [0x05, 0x00, 0x05, 0x00, 0x00] := by
    rwa [hfirst, List.take_take]
  rw [if_neg (not_not.mpr hlen), if_pos hother] at hret
  split_ifs at hret with hrep
  · simp only [neg_eq_zero, Int.natCast_eq_zero] at hret
    exact hrep (UInt8.toNat_inj.mp hret)
  · cases hret

open Socks5

def noAuthGreeting : Greeting := ⟨[0x00], by decide, by decide, by decide⟩

/-- What the client sends is a handshake of the grammar. -/
theorem exists_connect_request {addr : SockAddr} (haddr : addr.isInet = true) :
    ∃ r : Request, r.command = .connect ∧ r.sockAddr = addr ∧
      [0x05, 0x01, 0x00, 0x05, 0x01, 0x00] ++ fillAddrPort addr =
        noAuthGreeting.bytes ++ r.bytes := by
  cases addr with
  | inet sinAddr sinPort => exact ⟨⟨.connect, .v4, sinAddr, sinPort⟩, rfl, rfl, rfl⟩
  | inet6 sin6Addr sin6Port => exact ⟨⟨.connect, .v6, sin6Addr, sin6Port⟩, rfl, rfl, rfl⟩
  | other family => simp [SockAddr.isInet] at haddr

def replies (calls : List HandshakeCall) : List UInt8 :=
  calls.flatMap (fun call => match call with
    | .response data _ => data
    | _ => [])

/-- The final reply carries the address of the destination socket, its remote one for a
`BIND`. -/
theorem connectionSucceed_granted (c : Command) {callbacks : Callbacks} {m : Socks5State}
    {served : Request → Prop} (hcallbacks : callbacks.Serve served)
    {destAddress : Bool → CallbackStatus × SockAddr} {addr : SockAddr}
    (hdest : callbacks.destAddress = some destAddress)
    (haddr : destAddress (c == .bind) = (.kStatusOK, addr)) (hm : m.state = c.waitState) :
    m.connectionSucceed callbacks = some (true, ⟨.kSuccess, m.requiredSize, trivial⟩,
      [.destAddress (c == .bind) .kStatusOK,
        .response ([0x05, 0x00, 0x00] ++ fillAddrPort addr) .kStatusOK]) := by
  obtain ⟨response, hresponse, hok⟩ := hcallbacks.response
  cases c with
  | connect =>
    have hlocal : destAddress false = (.kStatusOK, addr) := haddr
    simp [Socks5State.connectionSucceed, hm, Command.waitState, createResp, hdest, hlocal,
      hresponse, hok]
  | bind =>
    have hremote : destAddress true = (.kStatusOK, addr) := haddr
    simp [Socks5State.connectionSucceed, hm, Command.waitState, createResp, hdest, hremote,
      hresponse, hok]

/-- The client and the server agree on every address: the server connects to the address
the client was asked for and uses up what the client sent, and the client succeeds and
leaves exactly what follows the replies. -/
theorem client_server_agree (send : List UInt8 → ℤ) (hsend : ∀ data, send data = data.length)
    (malloc : ℕ → Bool) (addr : SockAddr) (haddr : addr.isInet = true)
    (callbacks : Callbacks) (hcallbacks : callbacks.Serve (·.command = .connect))
    (destAddress : Bool → CallbackStatus × SockAddr)
    (hdest : callbacks.destAddress = some destAddress) (localAddr : SockAddr)
    (hlocal : destAddress false = (.kStatusOK, localAddr)) (hinet : localAddr.isInet = true)
    (freelist : Freelist) (inbox : Inbox) (chunks : List (List UInt8))
    (hsent : chunks.flatten = (socks5ClientConnect send malloc addr inbox).sent)
    (hchunks : Handshake.feedable callbacks freelist chunks = true) :
    ∃ h m calls, Handshake.handshake callbacks freelist chunks = some h ∧
      h.machine.state = .kWaitConnect ∧
      h.calls.filter Handshake.actsOnRequest = [.connect addr .kStatusInProgress] ∧
      h.upstream.contents ++ h.unread = [] ∧
      h.machine.connectionSucceed callbacks = some (true, m, calls) ∧ m.state = .kSuccess ∧
      ∀ application, inbox.intact → inbox.bytes = replies (h.calls ++ calls) ++ application →
        (socks5ClientConnect send malloc addr inbox).ret = 0 ∧
          (socks5ClientConnect send malloc addr inbox).inbox.bytes = application := by
  obtain ⟨r, hcommand, rfl, hbytes⟩ := exists_connect_request haddr
  have hdrive : reader.drive .greetingHeader chunks.flatten = (.waiting r, []) := by
    rw [hsent, socks5ClientConnect_sent haddr, hbytes, drive_greeting,
      ← List.append_nil r.bytes, drive_request]
  obtain ⟨h, hrun, hstate, hcalls, hcontents⟩ :=
    Handshake.handshake_reads hcallbacks hchunks (fun r' hr' => by
      rw [hdrive] at hr'
      cases hr'
      exact hcommand)
  rw [hdrive] at hstate hcalls hcontents
  simp only [Phase.calls, Request.calls, hcommand] at hcalls
  have hwait : h.machine.state = .kWaitConnect := by
    rw [hstate, Phase.state, hcommand]
    rfl
  refine ⟨h, _, _, hrun, hwait, ?_, hcontents,
    connectionSucceed_granted .connect hcallbacks hdest hlocal hwait, rfl, ?_⟩
  · rw [hcalls]
    rfl
  · intro application hintact happlication
    refine socks5ClientConnect_spec hsend haddr hinet hintact ?_
    rw [happlication, hcalls]
    simp [replies, methodReply]

def demoServer : Callbacks :=
  { Handshake.demoCallbacks with
    destAddress := some (fun _ => (.kStatusOK,
      .inet ⟨[0x0a, 0x00, 0x00, 0x02], rfl⟩ ⟨[0x10, 0x00], rfl⟩)) }

def demoAddr : SockAddr :=
  .inet (0x7f ::ᵥ 0x00 ::ᵥ 0x00 ::ᵥ 0x01 ::ᵥ .nil) (0x04 ::ᵥ 0x00 ::ᵥ .nil)

/-- The replies in two segments, a signal in between, and two bytes of the application. -/
def demoInbox : Inbox :=
  [.segment 0x05 [0x00, 0x05], .interrupted,
    .segment 0x00 [0x00, 0x01, 0x0a, 0x00, 0x00, 0x02, 0x10, 0x00, 0x2a, 0x2b]]

def demoSegments : List (List UInt8) :=
  [[0x05, 0x01, 0x00, 0x05], [0x01, 0x00, 0x01, 0x7f, 0x00, 0x00, 0x01, 0x04, 0x00]]

theorem demo_client_server_agree :
    (socks5ClientConnect (fun data => data.length) (fun _ => true) demoAddr demoInbox).ret = 0 ∧
    (socks5ClientConnect (fun data => data.length) (fun _ => true) demoAddr
      demoInbox).inbox.bytes = [0x2a, 0x2b] := by
  obtain ⟨h, m, calls, hrun, -, -, -, hsucceed, -, hclient⟩ := client_server_agree
    (fun data => data.length) (fun _ => rfl) (fun _ => true) demoAddr rfl demoServer
    ⟨⟨_, rfl, fun _ => rfl⟩, fun _ _ _ => ⟨_, rfl, rfl⟩, fun _ _ _ => ⟨_, rfl, rfl⟩⟩ _ rfl _ rfl rfl
    BufferUser.demoFreelist demoInbox demoSegments (by decide +kernel) (by decide +kernel)
  have hreplies : (Handshake.handshake demoServer BufferUser.demoFreelist demoSegments).bind
      (fun h => (h.machine.connectionSucceed demoServer).map
        (fun result => replies (h.calls ++ result.2.2))) =
      some [0x05, 0x00, 0x05, 0x00, 0x00, 0x01, 0x0a, 0x00, 0x00, 0x02, 0x10, 0x00] := by
    decide +kernel
  rw [hrun, Option.bind_some, hsucceed, Option.map_some, Option.some.injEq] at hreplies
  refine hclient [0x2a, 0x2b] (by simp [Inbox.intact, demoInbox]) ?_
  rw [hreplies]
  rfl

end PublicEndorsement.Proxy
