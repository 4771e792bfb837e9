import PublicEndorsement.BufferSizes
import PublicEndorsement.HandshakeFailure

/-!
# The handshake always gets on

Whatever the callbacks answer, a call of `Proceed` only takes from the buffer, and the
states are passed in order, so that the loop of the handler ends. It fails only by
calling a callback that is not set.
-/

namespace PublicEndorsement.Proxy

open BasicBuffer

/-- The longest way that is left from a state. -/
def HandshakeState.rank : HandshakeState → ℕ
  | .kGreetingHeader => 6
  | .kGreetingMethods => 5
  | .kRequestHeader => 4
  | .kRequestAddrV4 | .kRequestAddrV6 | .kRequestBind => 3
  | .kResponse => 2
  | .kWaitConnect | .kWaitAccept => 1
  | .kSuccess | .kFail => 0

theorem HandshakeState.rank_le (state : HandshakeState) : state.rank ≤ 6 := by
  cases state <;> decide

variable {callbacks : Callbacks} {m : Socks5State} {b : Buffer} {r : Proceeded}
  {bytes : List UInt8}

/-- A call of `Proceed` takes bytes from the buffer, and goes on only in a later state. -/
structure Advances (m : Socks5State) (b : Buffer) (r : Proceeded) : Prop where
  dataSize : r.buffer.dataSize ≤ b.dataSize
  rank : r.returned = true → r.machine.state.rank < m.state.rank
  requiredSize : m.requiredSize ≤ 255 → r.machine.requiredSize ≤ 255

namespace Advances

variable {m' : Socks5State} {b' : Buffer}

theorem fail (hdata : b'.dataSize ≤ b.dataSize) (calls : List HandshakeCall) :
    Advances m b (.ofBreak m.fail b' calls) := ⟨hdata, nofun, id⟩

theorem returnFalse (hdata : b'.dataSize ≤ b.dataSize)
    (hsize : m.requiredSize ≤ 255 → m'.requiredSize ≤ 255) (calls : List HandshakeCall) :
    Advances m b (.returnFalse m' b' calls) := ⟨hdata, nofun, hsize⟩

theorem ofBreak (hdata : b'.dataSize ≤ b.dataSize) (hrank : m'.state.rank < m.state.rank)
    (hsize : m'.requiredSize ≤ 255) (calls : List HandshakeCall) :
    Advances m b (.ofBreak m' b' calls) := ⟨hdata, fun _ => hrank, fun _ => hsize⟩

end Advances

theorem dataSize_copyOutArray {n : ℕ} {copied : Octets n × Buffer}
    (h : copyOutArray n b = some copied) : copied.2.dataSize ≤ b.dataSize := by
  obtain ⟨⟨bytes, copied', b'⟩, hcopy, h⟩ := Option.bind_eq_some_iff.mp h
  dsimp only at h
  split_ifs at h
  cases h
  exact dataSize_copyOut hcopy

theorem greetingHeader_advances (hm : m.state = .kGreetingHeader)
    (h : m.greetingHeader b = some r) : Advances m b r := by
  simp only [Socks5State.greetingHeader, Option.bind_eq_bind, Option.bind_eq_some_iff] at h
  obtain ⟨_, hcopy, h⟩ := h
  have hdata := dataSize_copyOutArray hcopy
  split_ifs at h <;> cases h
  · exact .fail hdata []
  · refine .ofBreak hdata ?_ (Nat.le_of_lt_succ (UInt8.toNat_lt _)) []
    rw [hm]
    exact (by decide : 5 < 6)

theorem greetingMethods_advances (hm : m.state = .kGreetingMethods)
    (h : m.greetingMethods callbacks b = some r) : Advances m b r := by
  obtain ⟨methods, calls, hcopy, rfl | ⟨rfl, -⟩⟩ := Socks5State.greetingMethods_inv h
  · exact .fail (dataSize_copyOutArray hcopy) calls
  · exact .ofBreak (dataSize_copyOutArray hcopy) (by rw [hm]; decide) (by decide) calls

theorem requestHeader_advances (hm : m.state = .kRequestHeader)
    (h : m.requestHeader b = some r) : Advances m b r := by
  simp only [Socks5State.requestHeader, Option.bind_eq_bind, Option.bind_eq_some_iff] at h
  obtain ⟨_, hcopy, h⟩ := h
  have hdata := dataSize_copyOutArray hcopy
  have hmove (m' : Socks5State) (hrank : m'.state.rank < 4) (hsize : m'.requiredSize ≤ 255) :=
    Advances.ofBreak (m := m) hdata (by rw [hm]; exact hrank) hsize []
  split_ifs at h <;> cases h
  all_goals first
    | exact .fail hdata []
    | exact hmove _ (by decide) (by decide)

theorem requestConnect_advances {b' : Buffer} (hm : 3 ≤ m.state.rank)
    (hdata : b'.dataSize ≤ b.dataSize) (addr : SockAddr) :
    Advances m b (Socks5State.requestConnect callbacks b' addr) := by
  rw [Socks5State.requestConnect]
  split
  · exact .ofBreak hdata (Nat.lt_of_lt_of_le (by decide) hm) (Nat.zero_le _) []
  · split
    · exact .ofBreak hdata (Nat.lt_of_lt_of_le (by decide) hm) (Nat.zero_le _) _
    · exact .returnFalse hdata (fun _ => Nat.zero_le _) _
    · exact .ofBreak hdata (Nat.lt_of_lt_of_le (by decide) hm) (Nat.zero_le _) _

theorem requestAddr_advances (hm : 3 ≤ m.state.rank)
    (h : Socks5State.requestAddrV4 callbacks b = some r ∨
      Socks5State.requestAddrV6 callbacks b = some r) : Advances m b r := by
  obtain ⟨n, addr, port, sockAddr, haddr, hport, rfl⟩ := Socks5State.requestAddr_inv h
  exact requestConnect_advances hm
    ((dataSize_copyOutArray hport).trans (dataSize_copyOutArray haddr)) sockAddr

theorem requestBind_advances (hm : m.state = .kRequestBind)
    (h : m.requestBind callbacks b = some r) : Advances m b r := by
  obtain ⟨skipped, port, hskip, hport, hr⟩ := Socks5State.requestBind_inv h
  have hdata := (dataSize_copyOutArray hport).trans (dataSize_copyOut hskip)
  rcases hr with ⟨calls, rfl⟩ | ⟨bound, ret, sent, -, rfl⟩
  · exact .ofBreak hdata (by rw [hm]; decide) (Nat.zero_le _) calls
  · exact .returnFalse hdata (fun _ => Nat.zero_le _) _

theorem response_advances (hm : m.state = .kResponse) (h : m.response callbacks b = some r) :
    Advances m b r := by
  obtain ⟨calls, rfl | rfl⟩ := Socks5State.response_inv h
  · exact .fail le_rfl calls
  · exact .ofBreak le_rfl (by rw [hm]; decide) (by decide) calls

theorem proceed_advances (h : m.proceed callbacks b = some r) : Advances m b r := by
  rw [Socks5State.proceed] at h
  split_ifs at h with hshort
  · cases h
    exact .returnFalse le_rfl id []
  · split at h
    · exact greetingHeader_advances ‹_› h
    · exact greetingMethods_advances ‹_› h
    · exact requestHeader_advances ‹_› h
    · exact requestAddr_advances (by rw [‹m.state = _›]; decide) (.inl h)
    · exact requestAddr_advances (by rw [‹m.state = _›]; decide) (.inr h)
    · exact requestBind_advances ‹_› h
    · cases h
      exact .returnFalse le_rfl id []
    · cases h
      exact .returnFalse le_rfl id []
    · exact response_advances ‹_› h
    · cases h
      exact .returnFalse le_rfl id []
    · cases h
      exact .returnFalse le_rfl (fun _ => Nat.zero_le _) []

/-- The callbacks that are called without asking whether they are set. -/
structure Callbacks.Complete (callbacks : Callbacks) : Prop where
  response : callbacks.response.isSome
  bind : callbacks.bind.isSome

theorem Holds.exists_copyOutArray {n : ℕ} (hb : Holds b none bytes) (hlen : n ≤ bytes.length) :
    ∃ copied, Proxy.copyOutArray n b = some copied ∧ Holds copied.2 none (bytes.drop n) := by
  rw [← List.take_append_drop n bytes] at hb
  obtain ⟨b', hcopy, hb'⟩ :=
    Holds.copyOutArray (n := n) ⟨bytes.take n, List.length_take_of_le hlen⟩ hb
  exact ⟨_, hcopy, hb'⟩

theorem greetingHeader_returns (hb : Holds b none bytes) (hlen : 2 ≤ bytes.length) :
    (m.greetingHeader b).isSome := by
  obtain ⟨copied, hcopy, -⟩ := hb.exists_copyOutArray hlen
  simp only [Socks5State.greetingHeader, hcopy, Option.bind_eq_bind, Option.bind_some]
  split_ifs <;> rfl

theorem greetingMethods_returns (hb : Holds b none bytes)
    (hlen : m.requiredSize ≤ bytes.length) : (m.greetingMethods callbacks b).isSome := by
  obtain ⟨copied, hcopy, -⟩ := hb.exists_copyOutArray hlen
  simp only [Socks5State.greetingMethods, hcopy, Option.bind_eq_bind, Option.bind_some]
  split_ifs
  · split
    · rfl
    · split_ifs <;> rfl
  · rfl

theorem requestHeader_returns (hb : Holds b none bytes) (hlen : 4 ≤ bytes.length) :
    (m.requestHeader b).isSome := by
  obtain ⟨copied, hcopy, -⟩ := hb.exists_copyOutArray hlen
  simp only [Socks5State.requestHeader, hcopy, Option.bind_eq_bind, Option.bind_some]
  split_ifs <;> rfl

theorem requestAddrV4_returns (hb : Holds b none bytes) (hlen : 4 + 2 ≤ bytes.length) :
    (Socks5State.requestAddrV4 callbacks b).isSome := by
  obtain ⟨addr, haddr, hb₁⟩ := hb.exists_copyOutArray (n := 4) (by omega)
  obtain ⟨port, hport, -⟩ := hb₁.exists_copyOutArray (n := 2) (by rw [List.length_drop]; omega)
  simp [Socks5State.requestAddrV4, haddr, hport]

theorem requestAddrV6_returns (hb : Holds b none bytes) (hlen : 16 + 2 ≤ bytes.length) :
    (Socks5State.requestAddrV6 callbacks b).isSome := by
  obtain ⟨addr, haddr, hb₁⟩ := hb.exists_copyOutArray (n := 16) (by omega)
  obtain ⟨port, hport, -⟩ := hb₁.exists_copyOutArray (n := 2) (by rw [List.length_drop]; omega)
  simp [Socks5State.requestAddrV6, haddr, hport]

theorem requestBind_returns (hcallbacks : callbacks.Complete) (hb : Holds b none bytes)
    (hsize : 2 ≤ m.requiredSize) (hlen : m.requiredSize ≤ bytes.length) :
    (m.requestBind callbacks b).isSome := by
  obtain ⟨bind, hbind⟩ := Option.isSome_iff_exists.mp hcallbacks.bind
  obtain ⟨response, hresponse⟩ := Option.isSome_iff_exists.mp hcallbacks.response
  obtain ⟨b₁, hskip, hb₁⟩ := hb.copyOut true (m.requiredSize - 2)
  obtain ⟨port, hport, -⟩ := hb₁.exists_copyOutArray (n := 2) (by rw [List.length_drop]; omega)
  simp only [Socks5State.requestBind, hskip, hport, hbind, hresponse, Option.bind_eq_bind,
    Option.bind_some]
  split_ifs <;> rfl

theorem response_returns (hcallbacks : callbacks.Complete) : (m.response callbacks b).isSome := by
  obtain ⟨response, hresponse⟩ := Option.isSome_iff_exists.mp hcallbacks.response
  simp only [Socks5State.response, hresponse, Option.bind_eq_bind, Option.bind_some]
  split_ifs <;> rfl

theorem proceed_returns (hcallbacks : callbacks.Complete) (hb : Holds b none bytes) :
    (m.proceed callbacks b).isSome := by
  rw [Socks5State.proceed, Socks5State.insufficientBuffer, hb.dataSize_eq]
  split_ifs with hshort
  · rfl
  · rw [decide_eq_true_iff, Nat.not_lt] at hshort
    obtain ⟨state, requiredSize, required⟩ := m
    cases state with
    | kGreetingHeader =>
      cases required
      exact greetingHeader_returns hb hshort
    | kGreetingMethods => exact greetingMethods_returns hb hshort
    | kRequestHeader =>
      cases required
      exact requestHeader_returns hb hshort
    | kRequestAddrV4 =>
      cases required
      exact requestAddrV4_returns hb hshort
    | kRequestAddrV6 =>
      cases required
      exact requestAddrV6_returns hb hshort
    | kRequestBind =>
      refine requestBind_returns hcallbacks hb ?_ hshort
      change 2 ≤ requiredSize
      rcases required with rfl | rfl <;> decide
    | kResponse => exact response_returns hcallbacks
    | kWaitConnect | kWaitAccept | kSuccess | kFail => rfl

namespace Handshake

variable {h : Handshake}

def reserved (h : Handshake) : ℕ := ((h.reading.getD []).map Span.len).sum

/-- A handshake between two handlers. No field is longer than 255 bytes, and a read is
started only while one is not there in full. -/
structure InOrder (h : Handshake) : Prop where
  holds : ∃ bytes, Holds h.upstream h.reading bytes
  requiredSize : h.machine.requiredSize ≤ 255
  asks : h.reading ≠ none → 0 < h.machine.requiredSize
  bounded : h.upstream.dataSize + h.reserved < 255 + defaultBlockSize.capacity

/-- The states are passed in order, so that a run of the loop ends. -/
theorem proceedLoop_returns (hcallbacks : callbacks.Complete) (fuel : ℕ)
    (hfuel : h.machine.state.rank < fuel) (hb : Holds h.upstream none bytes)
    (hsize : h.machine.requiredSize ≤ 255) :
    ∃ h', proceedLoop callbacks fuel h = some h' ∧
      h'.upstream.dataSize ≤ h.upstream.dataSize ∧ h'.machine.requiredSize ≤ 255 := by
  induction fuel generalizing h bytes with
  | zero => omega
  | succ fuel ih =>
    rw [proceedLoop]
    split_ifs with hsuccess
    · exact ⟨h, rfl, le_rfl, hsize⟩
    · obtain ⟨r, hproceed⟩ := Option.isSome_iff_exists.mp (proceed_returns hcallbacks hb)
      obtain ⟨rest, hrest, -, -⟩ := proceed_settles hb hproceed
      have hadvances := proceed_advances hproceed
      rw [hproceed]
      cases hreturned : r.returned with
      | true =>
        -- A round that goes on has passed a state, so the rounds left are still enough.
        have hrank := hadvances.rank hreturned
        obtain ⟨h', hrun, hdata, hsize'⟩ := ih
          (h := { h with machine := r.machine, upstream := r.buffer, calls := h.calls ++ r.calls })
          (by change r.machine.state.rank < fuel; omega) hrest (hadvances.requiredSize hsize)
        exact ⟨h', by simpa [hreturned] using hrun, hdata.trans hadvances.dataSize, hsize'⟩
      | false =>
        rw [Option.bind_eq_bind, Option.bind_some, hreturned, if_neg Bool.false_ne_true]
        exact ⟨_, rfl, hadvances.dataSize, hadvances.requiredSize hsize⟩

theorem startRead_inOrder (hb : Holds h.upstream none bytes)
    (hsize : h.machine.requiredSize ≤ 255)
    (hshort : h.upstream.dataSize < h.machine.requiredSize) :
    ∃ h', h.startRead = some h' ∧ h'.InOrder := by
  obtain ⟨spans, total, b, hreserve, hb'⟩ := hb.reserveAtLeast
  obtain ⟨hdata, hspans⟩ := reserveAtLeast_size hreserve
  refine ⟨{ h with upstream := b, reading := some spans }, ?_, ⟨bytes, hb'⟩, hsize, ?_, ?_⟩
  · rw [startRead, hreserve]
    rfl
  · exact fun _ => Nat.zero_lt_of_lt hshort
  · change b.dataSize + (spans.map Span.len).sum < _
    omega

/-- A handler, once the bytes it is told of have been committed. -/
theorem handler_returns (hcallbacks : callbacks.Complete) (ec : Option ErrorCode)
    {bytesRead : ℕ} (hcommit : h.upstream.commit bytesRead = some b) (hb : Holds b none bytes)
    (hroom : b.dataSize < 255 + defaultBlockSize.capacity)
    (hsize : h.machine.requiredSize ≤ 255) :
    ∃ h', socks5HandshakeHandler callbacks ec bytesRead h = some h' ∧ h'.InOrder := by
  simp only [socks5HandshakeHandler, hcommit, Option.bind_eq_bind, Option.bind_some]
  split_ifs
  · exact ⟨_, rfl, ⟨bytes, hb⟩, hsize, fun hne => absurd rfl hne, hroom⟩
  · obtain ⟨h₁, hloop, hdata, hsize₁⟩ := proceedLoop_returns
      (h := { h with upstream := b, reading := none }) hcallbacks 11
      (Nat.lt_of_le_of_lt h.machine.state.rank_le (by decide)) hb hsize
    obtain ⟨rest, hrest, hreading, -⟩ := proceedLoop_settles 11
      (h := { h with upstream := b, reading := none }) hb hloop
    rw [hloop, Option.bind_some]
    -- Asked of whatever state the loop has left, a failed one too.
    split_ifs with hshort
    · exact startRead_inOrder hrest hsize₁ (of_decide_eq_true hshort)
    · change h₁.reading = none at hreading
      refine ⟨h₁, rfl, ⟨rest, hreading ▸ hrest⟩, hsize₁, fun hne => absurd hreading hne, ?_⟩
      rw [reserved, hreading]
      exact Nat.lt_of_le_of_lt hdata hroom

theorem performSocks5Handshake_inOrder (freelist : Freelist) :
    ∃ h, performSocks5Handshake freelist = some h ∧ h.InOrder :=
  startRead_inOrder (Holds.create freelist) (by decide : 2 ≤ 255) (by decide : 0 < 2)

/-- What the outstanding read has put into its spans still has room when it is committed. -/
theorem InOrder.commit (hinv : h.InOrder) {spans : List Span} (hreading : h.reading = some spans)
    {chunk : List UInt8} (hle : chunk.length ≤ (spans.flatMap Span.cells).length) :
    ∃ b bytes, (h.upstream.writeAll ((spans.flatMap Span.cells).zip chunk)).commit chunk.length =
        some b ∧ Holds b none bytes ∧ b.dataSize < 255 + defaultBlockSize.capacity := by
  obtain ⟨bytes, hb⟩ := hinv.holds
  rw [hreading] at hb
  obtain ⟨b, hcommit, hb'⟩ := hb.commit hle
  have hdata := dataSize_commit hcommit
  have hbounded := hinv.bounded
  rw [dataSize_writeAll] at hdata
  rw [reserved, hreading, Option.getD_some] at hbounded
  have hlength : (spans.flatMap Span.cells).length = (spans.map Span.len).sum := by
    simp [List.length_flatMap]
  exact ⟨b, _, hcommit, hb', by omega⟩

theorem connectionSucceed_inOrder (hcallbacks : callbacks.Complete) (hinv : h.InOrder) :
    ∃ h', h.connectionSucceed callbacks = some h' ∧ h'.InOrder := by
  obtain ⟨response, hresponse⟩ := Option.isSome_iff_exists.mp hcallbacks.response
  have hkeeps (m : Socks5State) (hm : m.requiredSize = h.machine.requiredSize)
      (calls : List HandshakeCall) : InOrder { h with machine := m, calls := calls } :=
    ⟨hinv.holds, hm ▸ hinv.requiredSize, fun hne => hm ▸ hinv.asks hne, hinv.bounded⟩
  have hwaiting (isBind : Bool)
      (hm : h.machine.state = if isBind then .kWaitAccept else .kWaitConnect) :
      ∃ h', h.connectionSucceed callbacks = some h' ∧ h'.InOrder := by
    rw [connectionSucceed, connectionSucceed_of_waiting callbacks hm, Callbacks.delivers,
      hresponse]
    exact ⟨_, rfl, hkeeps ⟨.kSuccess, h.machine.requiredSize, trivial⟩ rfl _⟩
  by_cases hconnect : h.machine.state = .kWaitConnect
  · exact hwaiting false hconnect
  · by_cases haccept : h.machine.state = .kWaitAccept
    · exact hwaiting true haccept
    · rw [connectionSucceed, connectionSucceed_of_not_waiting hconnect haccept]
      exact ⟨_, rfl, hkeeps h.machine.fail rfl _⟩

theorem step_inOrder (hcallbacks : callbacks.Complete) (event : HandshakeEvent) (hinv : h.InOrder)
    (henabled : (eventSystem callbacks).enabled h event = true) :
    ∃ h', (eventSystem callbacks).step h event = some h' ∧ h'.InOrder := by
  cases event with
  | arrive chunk =>
    change ∃ h', arrive callbacks h chunk = some h' ∧ h'.InOrder
    cases hreading : h.reading with
    | none =>
      refine ⟨{ h with unread := h.unread ++ chunk }, by rw [arrive, hreading], ?_⟩
      exact ⟨hinv.holds, hinv.requiredSize, hinv.asks, hinv.bounded⟩
    | some spans =>
      have hfits : h.fits chunk = true := henabled
      rw [fits, hreading, Option.all_some, decide_eq_true_eq] at hfits
      obtain ⟨b, bytes, hcommit, hb, hroom⟩ := hinv.commit hreading hfits
      rw [arrive, hreading]
      exact handler_returns hcallbacks none hcommit hb hroom hinv.requiredSize
  | readFailed ec =>
    obtain ⟨spans, hreading⟩ := Option.isSome_iff_exists.mp henabled
    have hnothing : ([] : List UInt8).length ≤ (spans.flatMap Span.cells).length := Nat.zero_le _
    obtain ⟨b, bytes, hcommit, hb, hroom⟩ := hinv.commit hreading hnothing
    rw [List.zip_nil_right] at hcommit
    exact handler_returns hcallbacks (some ec) hcommit hb hroom hinv.requiredSize
  | connectionSucceed => exact connectionSucceed_inOrder hcallbacks hinv

/-- When the callbacks are there, a handshake never comes to a call that does not return. -/
theorem run_returns (hcallbacks : callbacks.Complete) (freelist : Freelist)
    (events : List HandshakeEvent) :
    ∃ h₀, performSocks5Handshake freelist = some h₀ ∧
      ((eventSystem callbacks).schedulable h₀ events = true →
        ∃ h, (eventSystem callbacks).run h₀ events = some h ∧ h.InOrder) := by
  obtain ⟨h₀, hstart, hinv⟩ := performSocks5Handshake_inOrder freelist
  exact ⟨h₀, hstart, (eventSystem callbacks).run_invariant
    (fun _ event => step_inOrder hcallbacks event) hinv⟩

end Handshake
end PublicEndorsement.Proxy
