import PublicEndorsement.Socks5Client

/-!
# Which replies the client accepts

`socks5_client_connect` with the memory it writes to, and the replies that RFC 1928 calls
a success. The client goes by the type of the address to know how much is still to come;
for a type that it does not know, it goes by what it asked for before.
-/

namespace PublicEndorsement.Proxy

namespace Inbox

def stream : Inbox → List UInt8
  | [] => []
  | .interrupted :: inbox => stream inbox
  | .failed :: _ => []
  | .segment b bs :: inbox => b :: bs ++ stream inbox

/-- `recv_all` receives as much of the stream as it asks for, or all of it. -/
theorem recvAll_stream (inbox : Inbox) (n : ℕ) :
    (inbox.recvAll n).1 = inbox.stream.take n ∧
      (n ≤ inbox.stream.length → (inbox.recvAll n).2.stream = inbox.stream.drop n) := by
  induction inbox generalizing n with
  | nil => cases n <;> simp [recvAll, stream]
  | cons e inbox ih =>
    cases n with
    | zero => simp [recvAll]
    | succ n =>
      cases e with
      | interrupted => exact ih (n + 1)
      | failed => simp [recvAll, stream]
      | segment b bs =>
        rcases Nat.lt_or_ge n bs.length with hlt | hge
        · obtain ⟨z, zs, hdrop⟩ : ∃ z zs, bs.drop n = z :: zs := by
            refine List.exists_cons_of_ne_nil ?_
            rw [ne_eq, List.drop_eq_nil_iff]
            omega
          have hseg : b :: bs = b :: bs.take n ++ z :: zs := by
            rw [← hdrop, List.cons_append, List.take_append_drop]
          have hlen : (b :: bs.take n).length = n + 1 := by
            rw [List.length_cons, List.length_take]
            omega
          have hrun := recvAll_left hseg inbox
          rw [hlen] at hrun
          rw [hrun, stream, stream, hseg, List.append_assoc]
          exact ⟨(List.take_left' hlen).symm, fun _ => (List.drop_left' hlen).symm⟩
        · obtain ⟨k, hk⟩ := Nat.exists_eq_add_of_le (Nat.succ_le_succ hge)
          have hlen : n + 1 = (b :: bs).length + k := hk
          obtain ⟨hreceived, hleft⟩ := ih k
          rw [hlen, recvAll_used, stream, List.take_length_add_append, hreceived,
            List.drop_length_add_append, List.length_append]
          exact ⟨rfl, fun hle => hleft (by omega)⟩

end Inbox

def writeBlock (block : List UInt8) (offset : ℕ) (data : List UInt8) : Option (List UInt8) :=
  if offset + data.length ≤ block.length then
    some (block.take offset ++ data ++ block.drop (offset + data.length))
  else none

/-- `recv_all` into a block of memory: how much was received, the block, and what is left. -/
def recvInto (block : List UInt8) (offset len : ℕ) (inbox : Inbox) :
    Option (ℕ × List UInt8 × Inbox) := do
  let (data, inbox) := inbox.recvAll len
  let block ← writeBlock block offset data
  some (data.length, block, inbox)

def drain (buffer : List UInt8) (extraByte : UInt8) (toReceive : ℕ) (inbox : Inbox) :
    Option (ℕ × Inbox) := do
  let addrBuf := if toReceive + 1 > 64 then List.replicate (toReceive + 1) 0 else buffer
  let addrBuf ← writeBlock addrBuf 0 [extraByte]
  let (received, _, inbox) ← recvInto addrBuf 1 toReceive inbox
  some (received, inbox)

/-- `socks5_client_connect` with the memory it works in: `buffer` on the stack, and what
`malloc` gives it. What a new block holds is never read. -/
def socks5ClientConnectInMemory (send : List UInt8 → ℤ) (malloc : ℕ → Bool) (addr : SockAddr)
    (inbox : Inbox) : Option ClientResult := do
  let buffer := [0x05, 0x01, 0x00, 0x05, 0x01, 0x00] ++ List.replicate 58 0
  let outIdx := 6
  let copied := fillAddrPort addr
  let buffer ← writeBlock buffer outIdx copied
  if copied.length = 0 then some ⟨-1, [], inbox⟩
  else
    let outSize := outIdx + copied.length
    let out := buffer.take outSize
    if send out ≠ outSize then some ⟨-1, out, inbox⟩
    else
      let expectedReply := [0x05, 0x00, 0x05, 0x00, 0x00]
      let toReceive := expectedReply.length + 2
      let (received, buffer, inbox) ← recvInto buffer 0 toReceive inbox
      if received ≠ toReceive then some ⟨-1, out, inbox⟩
      else if buffer.take expectedReply.length ≠ expectedReply then
        let rep := buffer.getD 3 0
        some ⟨if rep ≠ 0 then -(rep.toNat : ℤ) else -1, out, inbox⟩
      else
        let atyp := buffer.getD expectedReply.length 0
        let extraByte := buffer.getD (expectedReply.length + 1) 0
        let toReceive :=
          if atyp = 0x01 then 4 + 2 - 1
          else if atyp = 0x03 then extraByte.toNat + 2
          else if atyp = 0x04 then 16 + 2 - 1
          else toReceive
        if toReceive + 1 > 64 ∧ malloc (toReceive + 1) = false then some ⟨-1, out, inbox⟩
        else
          let (received, inbox) ← drain buffer extraByte toReceive inbox
          if received ≠ toReceive then some ⟨-1, out, inbox⟩ else some ⟨0, out, inbox⟩

section Memory

variable {block data : List UInt8} {offset len : ℕ} {inbox : Inbox}

theorem writeBlock_of_le (h : offset + data.length ≤ block.length) :
    ∃ block', writeBlock block offset data = some block' ∧ block'.length = block.length ∧
      block'.take (offset + data.length) = block.take offset ++ data := by
  have hlen : (block.take offset ++ data).length = offset + data.length := by
    rw [List.length_append, List.length_take]
    omega
  refine ⟨_, if_pos h, ?_, List.take_left' hlen⟩
  rw [List.length_append, hlen, List.length_drop]
  omega

theorem recvInto_of_le (inbox : Inbox) (h : offset + len ≤ block.length) :
    ∃ block', recvInto block offset len inbox =
        some ((inbox.recvAll len).1.length, block', (inbox.recvAll len).2) ∧
      block'.length = block.length ∧
      block'.take (offset + (inbox.recvAll len).1.length) =
        block.take offset ++ (inbox.recvAll len).1 := by
  have hle : offset + (inbox.recvAll len).1.length ≤ block.length := by
    rw [(inbox.recvAll_stream len).1, List.length_take]
    omega
  obtain ⟨block', hwrite, hlen, htake⟩ := writeBlock_of_le hle
  refine ⟨block', ?_, hlen, htake⟩
  simp only [recvInto, hwrite, Option.bind_eq_bind, Option.bind_some]

theorem fillAddrPort_length_le (addr : SockAddr) : (fillAddrPort addr).length ≤ 19 := by
  cases addr <;> simp [fillAddrPort]

theorem drain_eq (hlen : block.length = 64) (extraByte : UInt8) (len : ℕ) (inbox : Inbox) :
    drain block extraByte len inbox =
      some ((inbox.recvAll len).1.length, (inbox.recvAll len).2) := by
  have hroom : len + 1 ≤
      (if len + 1 > 64 then List.replicate (len + 1) 0 else block).length := by
    split_ifs
    · rw [List.length_replicate]
    · omega
  have hone : 0 + [extraByte].length ≤
      (if len + 1 > 64 then List.replicate (len + 1) 0 else block).length :=
    le_trans (by simp) hroom
  obtain ⟨addrBuf, hextra, hlen', -⟩ := writeBlock_of_le hone
  have hrest : 1 + len ≤ addrBuf.length := by omega
  obtain ⟨addrBuf', hrecv, -⟩ := recvInto_of_le inbox hrest
  simp only [drain, hextra, hrecv, Option.bind_eq_bind, Option.bind_some]

/-- What was received in full is what the block now starts with. -/
theorem getD_of_take_eq (h : block.take len = data) {i : ℕ} (hi : i < len) :
    block.getD i 0 = data.getD i 0 := by
  rw [← h, List.getD_eq_getElem?_getD, List.getD_eq_getElem?_getD, List.getElem?_take_of_lt hi]

/-- Every write is inside the block that it goes to. -/
theorem socks5ClientConnectInMemory_eq (send : List UInt8 → ℤ) (malloc : ℕ → Bool)
    (addr : SockAddr) (inbox : Inbox) :
    socks5ClientConnectInMemory send malloc addr inbox =
      some (socks5ClientConnect send malloc addr inbox) := by
  have hfill : 6 + (fillAddrPort addr).length ≤
      ([0x05, 0x01, 0x00, 0x05, 0x01, 0x00] ++ List.replicate 58 (0 : UInt8)).length :=
    le_trans (Nat.add_le_add_left (fillAddrPort_length_le addr) 6) (by simp)
  obtain ⟨buffer, hwrite, hlen, hout⟩ := writeBlock_of_le hfill
  change buffer.take _ = [0x05, 0x01, 0x00, 0x05, 0x01, 0x00] ++ fillAddrPort addr at hout
  have hsize : ((6 + (fillAddrPort addr).length : ℕ) : ℤ) =
      ([0x05, 0x01, 0x00, 0x05, 0x01, 0x00] ++ fillAddrPort addr).length := by
    rw [List.length_append]
    rfl
  have hseven : 0 + 7 ≤ buffer.length := by simp [hlen]
  obtain ⟨buffer₁, hrecv, hlen₁, htake⟩ := recvInto_of_le inbox hseven
  rw [List.take_zero, List.nil_append, Nat.zero_add] at htake
  have hlen₁ : buffer₁.length = 64 := hlen₁.trans (hlen.trans rfl)
  rw [socks5ClientConnectInMemory, socks5ClientConnect, hwrite]
  simp only [Option.bind_eq_bind, Option.bind_some, hout, hsize, List.length_cons,
    List.length_nil, Nat.reduceAdd, hrecv, drain_eq hlen₁, apply_ite some, ite_not]
  by_cases hreceived : (inbox.recvAll 7).1.length = 7
  · rw [hreceived] at htake
    have hfirst : buffer₁.take 5 = (inbox.recvAll 7).1.take 5 := by
      rw [← htake, List.take_take]
      rfl
    simp only [hfirst, getD_of_take_eq htake (show 3 < 7 by decide),
      getD_of_take_eq htake (show 5 < 7 by decide), getD_of_take_eq htake (show 6 < 7 by decide)]
  · simp only [if_neg hreceived]

end Memory

inductive BoundAddr where
  | inet (addr : Octets 4)
  | domain (name : List UInt8) (short : name.length ≤ 255)
  | inet6 (addr : Octets 16)

def BoundAddr.bytes : BoundAddr → List UInt8
  | .inet addr => 0x01 :: addr.toList
  | .domain name _ => 0x03 :: UInt8.ofNat name.length :: name
  | .inet6 addr => 0x04 :: addr.toList

structure GrantedReplies where
  addr : BoundAddr
  port : Octets 2

def GrantedReplies.bytes (r : GrantedReplies) : List UInt8 :=
  [0x05, 0x00] ++ ([0x05, 0x00, 0x00] ++ (r.addr.bytes ++ r.port.toList))

def addrRemainder (atyp extraByte : UInt8) : Option ℕ :=
  if atyp = 0x01 then some (4 + 2 - 1)
  else if atyp = 0x03 then some (extraByte.toNat + 2)
  else if atyp = 0x04 then some (16 + 2 - 1)
  else none

namespace GrantedReplies

theorem exists_tail (r : GrantedReplies) : ∃ atyp extraByte tail,
    r.bytes = [0x05, 0x00, 0x05, 0x00, 0x00, atyp, extraByte] ++ tail ∧
      addrRemainder atyp extraByte = some tail.length := by
  obtain ⟨addr, port⟩ := r
  cases addr with
  | inet addr =>
    obtain ⟨extraByte, tail, hbytes, hlen⟩ := exists_extraByte addr port
    refine ⟨0x01, extraByte, tail, ?_, ?_⟩
    · simp [bytes, BoundAddr.bytes, hbytes]
    · rw [hlen]
      rfl
  | domain name short =>
    refine ⟨0x03, UInt8.ofNat name.length, name ++ port.toList,
      by simp [bytes, BoundAddr.bytes], ?_⟩
    rw [addrRemainder, if_neg (by decide), if_pos rfl, List.length_append, port.toList_length,
      UInt8.toNat_ofNat_of_lt' (Nat.lt_of_le_of_lt short (by decide))]
  | inet6 addr =>
    obtain ⟨extraByte, tail, hbytes, hlen⟩ := exists_extraByte addr port
    refine ⟨0x04, extraByte, tail, ?_, ?_⟩
    · simp [bytes, BoundAddr.bytes, hbytes]
    · rw [hlen]
      rfl

theorem exists_of_tail {atyp extraByte : UInt8} {tail : List UInt8}
    (h : addrRemainder atyp extraByte = some tail.length) :
    ∃ r : GrantedReplies, r.bytes = [0x05, 0x00, 0x05, 0x00, 0x00, atyp, extraByte] ++ tail := by
  -- The last two bytes are the port, and what is before them belongs to the address.
  have hsplit : ∀ n, n + 2 = tail.length →
      ∃ front : Octets n, ∃ port : Octets 2, tail = front.toList ++ port.toList := by
    intro n hlen
    refine ⟨⟨tail.take n, ?_⟩, ⟨tail.drop n, ?_⟩, (List.take_append_drop n tail).symm⟩
    · rw [List.length_take]
      omega
    · rw [List.length_drop]
      omega
  rw [addrRemainder] at h
  split_ifs at h with h₁ h₃ h₄
  · obtain ⟨front, port, rfl⟩ := hsplit 3 (Option.some_injective _ h)
    exact ⟨⟨.inet (extraByte ::ᵥ front), port⟩, by simp [bytes, BoundAddr.bytes, h₁]⟩
  · obtain ⟨front, port, rfl⟩ := hsplit extraByte.toNat (Option.some_injective _ h)
    have hshort : front.toList.length ≤ 255 := by
      have hlt := extraByte.toNat_lt
      rw [front.toList_length]
      omega
    exact ⟨⟨.domain front.toList hshort, port⟩, by simp [bytes, BoundAddr.bytes, h₃]⟩
  · obtain ⟨front, port, rfl⟩ := hsplit 15 (Option.some_injective _ h)
    exact ⟨⟨.inet6 (extraByte ::ᵥ front), port⟩, by simp [bytes, BoundAddr.bytes, h₄]⟩

end GrantedReplies

/-- How much the client expects after the type of the address and the byte behind it. -/
def clientRemainder (atyp extraByte : UInt8) : ℕ := (addrRemainder atyp extraByte).getD 7

section

variable {send : List UInt8 → ℤ} {malloc : ℕ → Bool} {addr : SockAddr}

theorem clientRemainder_eq (atyp extraByte : UInt8) :
    clientRemainder atyp extraByte =
      if atyp = 0x01 then 5 else if atyp = 0x03 then extraByte.toNat + 2
      else if atyp = 0x04 then 17 else 7 := by
  rw [clientRemainder, addrRemainder]
  split_ifs <;> rfl

/-- The stream starts with the expected bytes, and as much follows as the client thinks
there must be. -/
def ClientAccepts (stream : List UInt8) : Prop :=
  7 ≤ stream.length ∧ stream.take 5 = [0x05, 0x00, 0x05, 0x00, 0x00] ∧
    clientRemainder (stream.getD 5 0) (stream.getD 6 0) ≤ (stream.drop 7).length

/-- How the client fares with a stream, and what it leaves of it. -/
theorem socks5ClientConnect_cases (hsend : ∀ data, send data = data.length)
    (hmalloc : ∀ n, malloc n = true) (haddr : addr.isInet = true) (inbox : Inbox) :
    ((socks5ClientConnect send malloc addr inbox).ret = 0 ↔ ClientAccepts inbox.stream) ∧
      (ClientAccepts inbox.stream →
        (socks5ClientConnect send malloc addr inbox).inbox.stream = (inbox.stream.drop 7).drop
          (clientRemainder (inbox.stream.getD 5 0) (inbox.stream.getD 6 0))) := by
  have hcopied : (fillAddrPort addr).length ≠ 0 := by
    obtain ⟨_, _, _, hcopied, -⟩ := fillAddrPort_cases haddr
    simp [hcopied]
  obtain ⟨hfirst, hleft⟩ := inbox.recvAll_stream 7
  have hget : ∀ i < 7, (inbox.stream.take 7).getD i 0 = inbox.stream.getD i 0 :=
    fun i hi => (getD_of_take_eq rfl hi).symm
  have htake : (inbox.stream.take 7).take 5 = inbox.stream.take 5 := by
    rw [List.take_take]
    rfl
  simp only [socks5ClientConnect, if_neg hcopied, hsend, hmalloc, ne_eq, not_true_eq_false,
    if_false, List.length_cons, List.length_nil, Nat.reduceAdd, Nat.reduceSub, hfirst,
    reduceCtorEq, and_false, htake, hget 5 (by decide), hget 6 (by decide),
    ← clientRemainder_eq]
  by_cases hlen : 7 ≤ inbox.stream.length
  · have hreceived : (inbox.stream.take 7).length = 7 := by
      rw [List.length_take]
      omega
    simp only [hreceived, not_true_eq_false, if_false]
    by_cases hexpected : inbox.stream.take 5 = [0x05, 0x00, 0x05, 0x00, 0x00]
    · simp only [hexpected, not_true_eq_false, if_false]
      generalize hremainder :
        clientRemainder (inbox.stream.getD 5 0) (inbox.stream.getD 6 0) = remainder
      obtain ⟨hsecond, hrest⟩ := (inbox.recvAll 7).2.recvAll_stream remainder
      rw [hleft hlen] at hsecond hrest
      rw [ClientAccepts, hremainder, hsecond, List.length_take]
      by_cases henough : remainder ≤ (inbox.stream.drop 7).length
      · rw [if_neg (by omega)]
        exact ⟨iff_of_true rfl ⟨hlen, hexpected, henough⟩, fun _ => hrest henough⟩
      · rw [if_pos (by omega)]
        exact ⟨iff_of_false (by simp) (fun h => henough h.2.2), fun h => absurd h.2.2 henough⟩
    · simp only [hexpected, not_false_eq_true, if_true]
      refine ⟨iff_of_false ?_ (fun h => hexpected h.2.1), fun h => absurd h.2.1 hexpected⟩
      generalize (inbox.stream.take 7).getD 3 0 = rep
      by_cases hrep : rep = 0
      · simp [hrep]
      · rw [← UInt8.toNat_inj, UInt8.toNat_zero] at hrep
        simp [hrep, ← UInt8.toNat_inj]
  · have hshort : (inbox.stream.take 7).length ≠ 7 := by
      rw [List.length_take]
      omega
    simp only [hshort, not_false_eq_true, if_true]
    exact ⟨iff_of_false (by simp) (fun h => hlen h.1), fun h => absurd h.1 hlen⟩

end

/-- A stream that starts with granted replies, read from its first seven bytes on. -/
theorem granted_append {g : GrantedReplies} {rest stream : List UInt8}
    (h : stream = g.bytes ++ rest) :
    ∃ n, addrRemainder (stream.getD 5 0) (stream.getD 6 0) = some n ∧ 7 ≤ stream.length ∧
      stream.take 5 = [0x05, 0x00, 0x05, 0x00, 0x00] ∧ n ≤ (stream.drop 7).length ∧
      (stream.drop 7).drop n = rest := by
  obtain ⟨atyp, extraByte, tail, hbytes, hlen⟩ := g.exists_tail
  rw [hbytes] at h
  subst h
  refine ⟨tail.length, hlen, by simp, rfl, by simp, ?_⟩
  exact List.drop_left' rfl

theorem exists_granted {stream : List UInt8} {n : ℕ}
    (htype : addrRemainder (stream.getD 5 0) (stream.getD 6 0) = some n)
    (hlen : 7 ≤ stream.length) (hexpected : stream.take 5 = [0x05, 0x00, 0x05, 0x00, 0x00])
    (henough : n ≤ (stream.drop 7).length) : ∃ g : GrantedReplies, g.bytes <+: stream := by
  obtain ⟨atyp, extraByte, tail, rfl⟩ : ∃ atyp extraByte tail,
      stream = [0x05, 0x00, 0x05, 0x00, 0x00, atyp, extraByte] ++ tail := by
    match stream, hlen with
    | a :: b :: c :: d :: e :: atyp :: extraByte :: tail, _ =>
      have hfive : [a, b, c, d, e] = [0x05, 0x00, 0x05, 0x00, 0x00] := hexpected
      simp only [List.cons.injEq, and_true] at hfive
      obtain ⟨rfl, rfl, rfl, rfl, rfl⟩ := hfive
      exact ⟨atyp, extraByte, tail, rfl⟩
  have hn : n ≤ tail.length := henough
  have htail : addrRemainder atyp extraByte = some (tail.take n).length := by
    rw [List.length_take, Nat.min_eq_left hn]
    exact htype
  obtain ⟨g, hg⟩ := GrantedReplies.exists_of_tail htail
  refine ⟨g, tail.drop n, ?_⟩
  rw [hg, List.append_assoc, List.take_append_drop]

/-- The client succeeds for just the streams that start with granted replies, and then
leaves what follows them. It writes nowhere that it may not. -/
def AcceptsOnlyGranted (result : Option ClientResult) (stream : List UInt8) : Prop :=
  ∃ r, result = some r ∧ (r.ret = 0 ↔ ∃ g : GrantedReplies, g.bytes <+: stream) ∧
    (r.ret = 0 → ∀ (g : GrantedReplies) rest, stream = g.bytes ++ rest → r.inbox.stream = rest)

def UnknownType (stream : List UInt8) : Prop :=
  stream.take 5 = [0x05, 0x00, 0x05, 0x00, 0x00] ∧ stream.getD 5 0 ∉ [0x01, 0x03, 0x04] ∧
    14 ≤ stream.length

instance (stream : List UInt8) : Decidable (UnknownType stream) :=
  inferInstanceAs (Decidable (_ ∧ _ ∧ _))

theorem addrRemainder_eq_none {atyp extraByte : UInt8} :
    addrRemainder atyp extraByte = none ↔ atyp ∉ [0x01, 0x03, 0x04] := by
  rw [addrRemainder]
  split_ifs <;> simp_all

theorem clientAccepts_iff {stream : List UInt8} :
    ClientAccepts stream ↔ (∃ g : GrantedReplies, g.bytes <+: stream) ∨ UnknownType stream := by
  constructor
  · rintro ⟨hlen, hexpected, henough⟩
    cases htype : addrRemainder (stream.getD 5 0) (stream.getD 6 0) with
    | some n =>
      rw [clientRemainder, htype] at henough
      exact .inl (exists_granted htype hlen hexpected henough)
    | none =>
      rw [clientRemainder, htype, Option.getD_none, List.length_drop] at henough
      exact .inr ⟨hexpected, addrRemainder_eq_none.mp htype, by omega⟩
  · rintro (⟨g, rest, h⟩ | ⟨hexpected, htype, hlen⟩)
    · obtain ⟨n, htype, hlen, hexpected, henough, -⟩ := granted_append h.symm
      refine ⟨hlen, hexpected, ?_⟩
      rw [clientRemainder, htype]
      exact henough
    · refine ⟨by omega, hexpected, ?_⟩
      rw [clientRemainder, addrRemainder_eq_none.mpr htype, Option.getD_none, List.length_drop]
      omega

theorem not_granted_of_unknownType {stream : List UInt8} (h : UnknownType stream) :
    ¬ ∃ g : GrantedReplies, g.bytes <+: stream := by
  rintro ⟨g, rest, hstream⟩
  obtain ⟨n, htype, -⟩ := granted_append hstream.symm
  rw [addrRemainder_eq_none.mpr h.2.1] at htype
  cases htype

/-- Whatever a proxy sends, and however it is cut, the client accepts exactly the granted
replies and takes exactly these from the stream, unless the type of the address is one it
does not know and enough bytes follow. -/
theorem acceptsOnlyGranted_iff (send : List UInt8 → ℤ) (malloc : ℕ → Bool) (addr : SockAddr)
    (hsend : ∀ data, send data = data.length) (hmalloc : ∀ n, malloc n = true)
    (haddr : addr.isInet = true) (inbox : Inbox) :
    AcceptsOnlyGranted (socks5ClientConnectInMemory send malloc addr inbox) inbox.stream ↔
      ¬ UnknownType inbox.stream := by
  obtain ⟨hret, hleft⟩ := socks5ClientConnect_cases hsend hmalloc haddr inbox
  rw [socks5ClientConnectInMemory_eq]
  constructor
  · rintro ⟨r, hr, hiff, -⟩ hunknown
    cases hr
    exact not_granted_of_unknownType hunknown
      (hiff.mp (hret.mpr (clientAccepts_iff.mpr (.inr hunknown))))
  · intro hknown
    refine ⟨_, rfl, ?_, ?_⟩
    · rw [hret, clientAccepts_iff, or_iff_left hknown]
    · intro hzero g rest hstream
      obtain ⟨n, htype, -, -, -, hrest⟩ := granted_append hstream
      rw [hleft (hret.mp hzero), clientRemainder, htype]
      exact hrest

def unknownReply : Inbox :=
  [.segment 0x05 [0x00, 0x05, 0x00, 0x00, 0x02, 0x00, 0x48, 0x54, 0x54, 0x50, 0x2f, 0x31, 0x2e]]

/-- The client accepts it, and takes seven bytes of whatever follows. -/
theorem accepts_unknown_type :
    ¬ AcceptsOnlyGranted (socks5ClientConnectInMemory (fun data => data.length) (fun _ => true)
      demoAddr unknownReply) unknownReply.stream := by
  rintro ⟨r, hr, hiff, -⟩
  have hzero : r.ret = 0 := by
    have hrun : (socks5ClientConnectInMemory (fun data => data.length) (fun _ => true) demoAddr
        unknownReply).map ClientResult.ret = some 0 := by decide +kernel
    rw [hr] at hrun
    exact Option.some_injective _ hrun
  exact not_granted_of_unknownType (by decide +kernel) (hiff.mp hzero)

theorem demo_acceptsOnlyGranted :
    AcceptsOnlyGranted (socks5ClientConnectInMemory (fun data => data.length) (fun _ => true)
      demoAddr demoInbox) demoInbox.stream :=
  (acceptsOnlyGranted_iff _ _ demoAddr (fun _ => rfl) (fun _ => rfl) rfl demoInbox).mpr
    (by decide +kernel)

end PublicEndorsement.Proxy
