import PublicEndorsement.HandshakeResults
import PublicEndorsement.HandshakeOutcome

/-!
# What a bridge does after a failed handshake

The failing branches of `Proceed` leave the size they asked for, and the handler compares
it with what is left in the buffer. Whatever the client sends and the callbacks answer,
this decides whether the client of a failed handshake is read again.
-/

namespace PublicEndorsement.Proxy

open Socks5

inductive HandshakeEvent where
  | arrive (chunk : List UInt8)
  | readFailed (ec : ErrorCode)
  | connectionSucceed

namespace Handshake

/-- `ConnectionSucceed`, which is called whenever the application sees fit. -/
def connectionSucceed (callbacks : Callbacks) (h : Handshake) : Option Handshake := do
  let (_, m, calls) ← h.machine.connectionSucceed callbacks
  some { h with machine := m, calls := h.calls ++ calls }

def eventSystem (callbacks : Callbacks) : GuardedSystem Handshake HandshakeEvent where
  enabled h
    | .arrive chunk => h.fits chunk
    | .readFailed _ => h.reading.isSome
    | .connectionSucceed => true
  step h
    | .arrive chunk => h.arrive callbacks chunk
    | .readFailed ec => socks5HandshakeHandler callbacks (some ec) 0 h
    | .connectionSucceed => h.connectionSucceed callbacks

end Handshake

/-- The handler leaves no read behind in a failed handshake, which stays failed and makes
no calls. -/
structure FailsForGood (h : Handshake) (event : HandshakeEvent) (h' : Handshake) : Prop where
  unread : event ≠ .connectionSucceed → h'.machine.state = .kFail → h'.reading = none
  stays : h.machine.state = .kFail → h'.machine.state = .kFail
  silent : h.machine.state = .kFail → h'.calls = h.calls

/-- The reply to the greeting is delivered, or nobody is asked to. -/
def Callbacks.greets (callbacks : Callbacks) : Bool :=
  callbacks.response.all (fun response => decide (response [0x05, 0x00] = .kStatusOK))

/-- Of bytes that start with a field: it is not there in full, or it is accepted and the
rest is in order, or it is refused and at least as many bytes follow it. -/
def ampleField (size : ℕ) (accepted : Bool) (next : Bool) (pending : List UInt8) : Bool :=
  if pending.length < size then true
  else if accepted then next
  else decide (size ≤ (pending.drop size).length)

def servedHeaders : List (List UInt8) :=
  [[0x05, 0x01, 0x00, 0x01], [0x05, 0x01, 0x00, 0x04], [0x05, 0x02, 0x00, 0x01],
    [0x05, 0x02, 0x00, 0x04]]

def ampleRequest (pending : List UInt8) : Bool :=
  ampleField 4 (decide (pending.take 4 ∈ servedHeaders)) true pending

def ampleMethods (callbacks : Callbacks) (nMethods : ℕ) (pending : List UInt8) : Bool :=
  ampleField nMethods (decide (0x00 ∈ pending.take nMethods) && callbacks.greets)
    (ampleRequest (pending.drop nMethods)) pending

def ampleGreeting (callbacks : Callbacks) (pending : List UInt8) : Bool :=
  ampleField 2 (decide (pending.getD 0 0 = 0x05 ∧ pending.getD 1 0 ≠ 0))
    (ampleMethods callbacks (pending.getD 1 0).toNat (pending.drop 2)) pending

/-- A field that is refused is followed by as many bytes as it has itself. -/
def Socks5State.ample (callbacks : Callbacks) (m : Socks5State) (pending : List UInt8) : Bool :=
  match m.state with
  | .kGreetingHeader => ampleGreeting callbacks pending
  | .kGreetingMethods => ampleMethods callbacks m.requiredSize pending
  | .kRequestHeader => ampleRequest pending
  | .kFail => decide (m.requiredSize ≤ pending.length)
  | _ => true

section Fields

variable {size : ℕ} {accepted next : Bool} {pending : List UInt8}

theorem ampleField_accepted (hlen : size ≤ pending.length) :
    ampleField size true next pending = next := by
  rw [ampleField, if_neg (Nat.not_lt.mpr hlen), if_pos rfl]

theorem ampleField_refused (hlen : size ≤ pending.length) :
    ampleField size false next pending = decide (size ≤ (pending.drop size).length) := by
  rw [ampleField, if_neg (Nat.not_lt.mpr hlen), if_neg Bool.false_ne_true]

theorem ampleField_short (hlen : pending.length < size) :
    ampleField size accepted next pending = true := if_pos hlen

end Fields

variable {callbacks : Callbacks} {m : Socks5State} {b : Buffer} {r : Proceeded}
  {bytes rest : List UInt8} {ample : Bool} {calls : List HandshakeCall}

/-- What a call of `Proceed` leaves of a buffer about which it is known whether it is
ample: the same is known of what is left, or the loop ends and it is now decided. -/
structure Settles (callbacks : Callbacks) (ample : Bool) (rest : List UInt8) (r : Proceeded) :
    Prop where
  holds : Holds r.buffer none rest
  goesOn : r.returned = true → r.machine.ample callbacks rest = ample
  stops : r.returned = false →
    ((r.machine.state = .kFail → r.machine.requiredSize ≤ rest.length) ↔ ample = true)

namespace Settles

theorem ofBreak (hb : Holds b none rest) (hstate : m.state ≠ .kFail)
    (hample : m.ample callbacks rest = ample) :
    Settles callbacks ample rest (.ofBreak m b calls) := by
  refine ⟨hb, fun _ => hample, ?_⟩
  simp [Proceeded.ofBreak, hstate]

theorem fail (hb : Holds b none rest) (hstate : m.state = .kFail)
    (hample : ample = decide (m.requiredSize ≤ rest.length)) :
    Settles callbacks ample rest (.ofBreak m b calls) := by
  refine ⟨hb, ?_, ?_⟩
  · simp [Proceeded.ofBreak, hstate]
  · simp [Proceeded.ofBreak, hstate, hample]

theorem returnFalse (hb : Holds b none rest)
    (hample : (m.state = .kFail → m.requiredSize ≤ rest.length) ↔ ample = true) :
    Settles callbacks ample rest (.returnFalse m b calls) :=
  ⟨hb, fun hfalse => Bool.noConfusion hfalse, fun _ => hample⟩

end Settles

theorem greetingHeader_settles (hm : m.requiredSize = 2) (hlen : 2 ≤ bytes.length)
    (hb : Holds b none bytes) (h : m.greetingHeader b = some r) :
    Settles callbacks (ampleGreeting callbacks bytes) (bytes.drop 2) r := by
  obtain ⟨ver, nMethods, rest, rfl⟩ : ∃ ver nMethods rest, bytes = ver :: nMethods :: rest := by
    obtain _ | ⟨ver, _ | ⟨nMethods, rest⟩⟩ := bytes
    · simp at hlen
    · simp at hlen
    · exact ⟨ver, nMethods, rest, rfl⟩
  obtain ⟨b', hcopy, hb'⟩ := Holds.copyOutArray (n := 2) ⟨[ver, nMethods], rfl⟩ hb
  rw [Socks5State.greetingHeader, hcopy] at h
  by_cases hbad : ver ≠ 0x05 ∨ nMethods = 0
  · obtain rfl : Proceeded.ofBreak m.fail b' [] = r :=
      Option.some_injective _ ((dif_pos hbad).symm.trans h)
    have hrefused : decide (ver = 0x05 ∧ nMethods ≠ 0) = false := by
      rw [decide_eq_false_iff_not, not_and_or, not_not]
      exact hbad
    refine .fail hb' rfl ?_
    rw [ampleGreeting]
    simp only [List.getD_cons_zero, List.getD_cons_succ, hrefused]
    rw [ampleField_refused hlen, Socks5State.fail, hm]
  · have hone := Option.some_injective _ ((dif_neg hbad).symm.trans h)
    have haccepted : decide (ver = 0x05 ∧ nMethods ≠ 0) = true := by
      rw [not_or, not_not] at hbad
      exact decide_eq_true hbad
    rw [← hone, ampleGreeting]
    simp only [List.getD_cons_zero, List.getD_cons_succ, haccepted]
    rw [ampleField_accepted hlen]
    exact .ofBreak hb' (by rintro ⟨⟩) rfl

theorem greetingMethods_settles (hlen : m.requiredSize ≤ bytes.length)
    (hb : Holds b none bytes) (h : m.greetingMethods callbacks b = some r) :
    Settles callbacks (ampleMethods callbacks m.requiredSize bytes)
      (bytes.drop m.requiredSize) r := by
  have htake : (bytes.take m.requiredSize).length = m.requiredSize := by
    rw [List.length_take]
    omega
  rw [← List.take_append_drop m.requiredSize bytes] at hb
  obtain ⟨b', hcopy, hb'⟩ := Holds.copyOutArray (n := m.requiredSize) ⟨_, htake⟩ hb
  rw [Socks5State.greetingMethods, hcopy] at h
  simp only [Option.bind_eq_bind, Option.bind_some, List.Vector.toList] at h
  have hfail (hrefused :
      (decide (0x00 ∈ bytes.take m.requiredSize) && callbacks.greets) = false)
      (calls : List HandshakeCall) :
      Settles callbacks (ampleMethods callbacks m.requiredSize bytes)
        (bytes.drop m.requiredSize) (.ofBreak m.fail b' calls) := by
    refine .fail hb' rfl ?_
    rw [ampleMethods, hrefused, ampleField_refused hlen]
    rfl
  have hgo (haccepted :
      (decide (0x00 ∈ bytes.take m.requiredSize) && callbacks.greets) = true)
      (calls : List HandshakeCall) :
      Settles callbacks (ampleMethods callbacks m.requiredSize bytes)
        (bytes.drop m.requiredSize) (.ofBreak ⟨.kRequestHeader, 4, rfl⟩ b' calls) := by
    refine .ofBreak hb' (by rintro ⟨⟩) ?_
    rw [ampleMethods, haccepted, ampleField_accepted hlen]
    rfl
  by_cases hmethod : 0x00 ∈ bytes.take m.requiredSize
  · rw [if_neg (not_not.mpr hmethod)] at h
    cases hresponse : callbacks.response with
    | none =>
      rw [hresponse] at h
      cases h
      exact hgo (by simp [hmethod, Callbacks.greets, hresponse]) _
    | some response =>
      rw [hresponse] at h
      by_cases hok : response [0x05, 0x00] = .kStatusOK
      · simp only [hok, ne_eq, not_true_eq_false, if_false] at h
        cases h
        exact hgo (by simp [hmethod, Callbacks.greets, hresponse, hok]) _
      · simp only [hok, ne_eq, not_false_eq_true, if_true] at h
        cases h
        exact hfail (by simp [Callbacks.greets, hresponse, hok]) _
  · rw [if_pos hmethod] at h
    cases h
    exact hfail (by simp [hmethod]) _

theorem requestHeader_settles (hm : m.requiredSize = 4) (hlen : 4 ≤ bytes.length)
    (hb : Holds b none bytes) (h : m.requestHeader b = some r) :
    Settles callbacks (ampleRequest bytes) (bytes.drop 4) r := by
  obtain ⟨ver, cmd, rsv, atyp, rest, rfl⟩ :
      ∃ ver cmd rsv atyp rest, bytes = ver :: cmd :: rsv :: atyp :: rest := by
    obtain _ | ⟨ver, _ | ⟨cmd, _ | ⟨rsv, _ | ⟨atyp, rest⟩⟩⟩⟩ := bytes
    · simp at hlen
    · simp at hlen
    · simp at hlen
    · simp at hlen
    · exact ⟨ver, cmd, rsv, atyp, rest, rfl⟩
  obtain ⟨b', hcopy, hb'⟩ := Holds.copyOutArray (n := 4) ⟨[ver, cmd, rsv, atyp], rfl⟩ hb
  rcases next_requestHeader ver cmd rsv atyp with ⟨command, family, hheader, -⟩ | ⟨hbad, -⟩
  · simp only [List.cons.injEq] at hheader
    obtain ⟨rfl, rfl, rfl, rfl, -⟩ := hheader
    rw [Socks5State.requestHeader, hcopy] at h
    have hample : ampleRequest (0x05 :: command.byte :: 0x00 :: family.byte :: rest) = true := by
      cases command <;> cases family <;>
        simp [ampleRequest, ampleField, servedHeaders, Command.byte, Family.byte]
    rw [hample]
    cases command <;> cases family <;> cases h <;> exact .ofBreak hb' (by rintro ⟨⟩) rfl
  · rw [Phase.requestHeader_refuses m hcopy hbad] at h
    cases h
    have hrefused : (ver :: cmd :: rsv :: atyp :: rest).take 4 ∉ servedHeaders := by
      change [ver, cmd, rsv, atyp] ∉ servedHeaders
      intro hmem
      simp only [servedHeaders, List.mem_cons, List.cons.injEq, List.not_mem_nil] at hmem hbad
      tauto
    refine .fail hb' rfl ?_
    rw [ampleRequest, decide_eq_false hrefused, ampleField_refused hlen, Socks5State.fail, hm]

theorem Holds.of_copyOutArray {n : ℕ} {copied : Octets n × Buffer} (hb : Holds b none bytes)
    (hcopy : Proxy.copyOutArray n b = some copied) : Holds copied.2 none (bytes.drop n) := by
  obtain ⟨b₁, hrun, hb₁⟩ := hb.copyOut false n
  rw [Proxy.copyOutArray, hrun] at hcopy
  simp only [Option.bind_eq_bind, Option.bind_some, Bool.false_eq_true, if_false] at hcopy
  split_ifs at hcopy
  cases hcopy
  exact hb₁

/-- A connection that cannot be made leaves nothing to ask for. -/
theorem requestConnect_settles (addr : SockAddr) (hb : Holds b none rest) :
    Settles callbacks true rest (Socks5State.requestConnect callbacks b addr) := by
  rw [Socks5State.requestConnect]
  split
  · exact .ofBreak hb (by rintro ⟨⟩) rfl
  · split
    · exact .ofBreak hb (by rintro ⟨⟩) rfl
    · exact .returnFalse hb (iff_of_true (by rintro ⟨⟩) rfl)
    · exact .fail hb rfl (decide_eq_true (Nat.zero_le _)).symm

theorem requestAddr_settles (hb : Holds b none bytes)
    (h : Socks5State.requestAddrV4 callbacks b = some r ∨
      Socks5State.requestAddrV6 callbacks b = some r) :
    ∃ rest, Settles callbacks true rest r := by
  obtain ⟨n, addr, port, sockAddr, haddr, hport, rfl⟩ := Socks5State.requestAddr_inv h
  exact ⟨_, requestConnect_settles sockAddr ((hb.of_copyOutArray haddr).of_copyOutArray hport)⟩

theorem requestBind_settles (hb : Holds b none bytes)
    (h : m.requestBind callbacks b = some r) : ∃ rest, Settles callbacks true rest r := by
  obtain ⟨b₁, hskip, hb₁⟩ := hb.copyOut true (m.requiredSize - 2)
  obtain ⟨skipped, port, hskip', hport, hr⟩ := Socks5State.requestBind_inv h
  obtain rfl := Option.some_injective _ (hskip.symm.trans hskip')
  have hb₂ := hb₁.of_copyOutArray hport
  rcases hr with ⟨calls, rfl⟩ | ⟨bound, ret, sent, -, rfl⟩
  · exact ⟨_, .fail hb₂ rfl (decide_eq_true (Nat.zero_le _)).symm⟩
  · exact ⟨_, .returnFalse hb₂ (iff_of_true (by rintro ⟨⟩) rfl)⟩

theorem response_settles (hm : m.requiredSize = 0) (hb : Holds b none bytes)
    (h : m.response callbacks b = some r) : Settles callbacks true bytes r := by
  obtain ⟨calls, rfl | rfl⟩ := Socks5State.response_inv h
  · refine .fail hb rfl ?_
    rw [Socks5State.fail, hm]
    exact (decide_eq_true (Nat.zero_le _)).symm
  · exact .ofBreak hb (by rintro ⟨⟩) rfl

theorem ample_of_short (callbacks : Callbacks) (hstate : m.state ≠ .kFail)
    (hshort : bytes.length < m.requiredSize) : m.ample callbacks bytes = true := by
  obtain ⟨state, requiredSize, required⟩ := m
  cases state with
  | kGreetingHeader =>
    cases required
    exact ampleField_short hshort
  | kGreetingMethods => exact ampleField_short hshort
  | kRequestHeader =>
    cases required
    exact ampleField_short hshort
  | kFail => exact absurd rfl hstate
  | _ => rfl

/-- One call of `Proceed`, on a buffer with the given bytes. -/
theorem proceed_settles (hb : Holds b none bytes) (h : m.proceed callbacks b = some r) :
    ∃ rest, Settles callbacks (m.ample callbacks bytes) rest r := by
  rw [Socks5State.proceed, Socks5State.insufficientBuffer, hb.dataSize_eq] at h
  split_ifs at h with hshort
  · rw [decide_eq_true_iff] at hshort
    cases h
    refine ⟨bytes, .returnFalse hb ?_⟩
    by_cases hstate : m.state = .kFail
    · simp [Socks5State.ample, hstate]
    · exact iff_of_true (fun hfail => absurd hfail hstate) (ample_of_short callbacks hstate hshort)
  · rw [decide_eq_true_iff, Nat.not_lt] at hshort
    obtain ⟨state, requiredSize, required⟩ := m
    cases state with
    | kGreetingHeader =>
      cases required
      exact ⟨_, greetingHeader_settles rfl hshort hb h⟩
    | kGreetingMethods => exact ⟨_, greetingMethods_settles hshort hb h⟩
    | kRequestHeader =>
      cases required
      exact ⟨_, requestHeader_settles rfl hshort hb h⟩
    | kRequestAddrV4 => exact requestAddr_settles hb (.inl h)
    | kRequestAddrV6 => exact requestAddr_settles hb (.inr h)
    | kRequestBind => exact requestBind_settles hb h
    | kResponse =>
      cases required
      exact ⟨_, response_settles rfl hb h⟩
    | kFail =>
      cases h
      refine ⟨bytes, .returnFalse hb (iff_of_true (fun _ => Nat.zero_le _) ?_)⟩
      exact decide_eq_true hshort
    | kWaitConnect | kWaitAccept | kSuccess =>
      cases h
      exact ⟨bytes, .returnFalse hb (iff_of_true (by rintro ⟨⟩) rfl)⟩

namespace Handshake

variable {h h' : Handshake} {events : List HandshakeEvent}

theorem settled_of_success (hm : m.state = .kSuccess) :
    (m.state = .kFail → m.requiredSize ≤ bytes.length) ↔ m.ample callbacks bytes = true := by
  refine iff_of_true (fun hfail => ?_) (by rw [Socks5State.ample, hm])
  rw [hm] at hfail
  cases hfail

/-- The loop ends with a failure that asks for more than is left exactly when the bytes it
began with were not ample. -/
theorem proceedLoop_settles (fuel : ℕ) (hb : Holds h.upstream none bytes)
    (hrun : proceedLoop callbacks fuel h = some h') :
    ∃ rest, Holds h'.upstream none rest ∧ h'.reading = h.reading ∧
      ((h'.machine.state = .kFail → h'.machine.requiredSize ≤ rest.length) ↔
        h.machine.ample callbacks bytes = true) := by
  induction fuel generalizing h bytes with
  | zero =>
    rw [proceedLoop] at hrun
    split_ifs at hrun with hsuccess
    cases hrun
    exact ⟨bytes, hb, rfl, settled_of_success hsuccess⟩
  | succ fuel ih =>
    rw [proceedLoop] at hrun
    split_ifs at hrun with hsuccess
    · cases hrun
      exact ⟨bytes, hb, rfl, settled_of_success hsuccess⟩
    · obtain ⟨r, hproceed, hrun⟩ := Option.bind_eq_some_iff.mp hrun
      obtain ⟨rest, hholds, hgoesOn, hstops⟩ := proceed_settles hb hproceed
      cases hreturned : r.returned with
      | true =>
        rw [hreturned, if_pos rfl] at hrun
        rw [← hgoesOn hreturned]
        exact ih hholds hrun
      | false =>
        rw [hreturned, if_neg Bool.false_ne_true] at hrun
        cases hrun
        exact ⟨rest, hholds, rfl, hstops hreturned⟩

theorem proceedLoop_failed {fuel : ℕ} (hrun : proceedLoop callbacks fuel h = some h')
    (hm : h.machine.state = .kFail) :
    h'.machine.state = .kFail ∧ h'.calls = h.calls := by
  cases fuel with
  | zero =>
    rw [proceedLoop, hm] at hrun
    cases hrun
  | succ fuel =>
    obtain ⟨m, hproceed, hm'⟩ := proceed_of_done (p := .failed false) callbacks h.upstream
      ⟨hm, fun hne => absurd hm hne⟩ rfl
    rw [proceedLoop, hm, if_neg (by decide), hproceed] at hrun
    cases hrun
    exact ⟨hm'.state, List.append_nil _⟩

/-- The handler, on bytes that have been committed. -/
theorem handler_settles {b : Buffer} {bytesRead : ℕ}
    (hcommit : h.upstream.commit bytesRead = some b) (hb : Holds b none bytes)
    (hrun : socks5HandshakeHandler callbacks none bytesRead h = some h') :
    (∃ rest, Holds h'.upstream h'.reading rest) ∧
      ((h'.machine.state = .kFail → h'.reading = none) ↔
        h.machine.ample callbacks bytes = true) := by
  simp only [socks5HandshakeHandler, hcommit, Option.bind_eq_bind, Option.bind_some,
    Option.isSome_none, Bool.false_eq_true, if_false, Option.bind_eq_some_iff] at hrun
  obtain ⟨h₁, hloop, hrun⟩ := hrun
  obtain ⟨rest, hholds, hreading, hiff⟩ := proceedLoop_settles 11 hb hloop
  rw [← hiff]
  rw [Socks5State.insufficientBuffer, hholds.dataSize_eq] at hrun
  split_ifs at hrun with hshort
  · rw [decide_eq_true_iff] at hshort
    obtain ⟨spans, size, b', hreserve, hb'⟩ := hholds.reserveAtLeast
    rw [startRead, hreserve] at hrun
    cases hrun
    refine ⟨⟨rest, hb'⟩, forall_congr' (fun _ => iff_of_false (by rintro ⟨⟩) (by omega))⟩
  · rw [decide_eq_true_iff, Nat.not_lt] at hshort
    cases hrun
    rw [hreading]
    exact ⟨⟨rest, hholds⟩, iff_of_true (fun _ => rfl) (fun _ => hshort)⟩

theorem handler_failed {ec : Option ErrorCode} {bytesRead : ℕ}
    (hrun : socks5HandshakeHandler callbacks ec bytesRead h = some h')
    (hm : h.machine.state = .kFail) :
    h'.machine.state = .kFail ∧ h'.calls = h.calls := by
  obtain ⟨b, -, hrun⟩ := Option.bind_eq_some_iff.mp hrun
  split_ifs at hrun
  · cases hrun
    exact ⟨hm, rfl⟩
  · obtain ⟨h₁, hloop, hrun⟩ := Option.bind_eq_some_iff.mp hrun
    have hfailed := proceedLoop_failed hloop hm
    split_ifs at hrun
    · obtain ⟨_, -, hone⟩ := Option.bind_eq_some_iff.mp hrun
      cases hone
      exact hfailed
    · cases hrun
      exact hfailed

theorem connectionSucceed_failed (hm : h.machine.state = .kFail)
    (hrun : h.connectionSucceed callbacks = some h') :
    h'.machine.state = .kFail ∧ h'.calls = h.calls := by
  rw [connectionSucceed, connectionSucceed_of_not_waiting (by simp [hm]) (by simp [hm])] at hrun
  cases hrun
  exact ⟨rfl, List.append_nil _⟩

theorem step_failed {event : HandshakeEvent} (hm : h.machine.state = .kFail)
    (hstep : (eventSystem callbacks).step h event = some h') :
    h'.machine.state = .kFail ∧ h'.calls = h.calls := by
  cases event with
  | arrive chunk =>
    change arrive callbacks h chunk = some h' at hstep
    rw [arrive] at hstep
    split at hstep
    · cases hstep
      exact ⟨hm, rfl⟩
    · have hfailed := handler_failed hstep hm
      exact hfailed
  | readFailed ec => exact handler_failed hstep hm
  | connectionSucceed => exact connectionSucceed_failed hm hstep

/-- A failed handshake stays failed, and makes no more calls. -/
theorem run_failed (hm : h.machine.state = .kFail)
    (hrun : (eventSystem callbacks).run h events = some h') :
    h'.machine.state = .kFail ∧ h'.calls = h.calls := by
  have hkeeps : ∀ h₁ h₂ event, h₁.machine.state = .kFail ∧ h₁.calls = h.calls →
      (eventSystem callbacks).step h₁ event = some h₂ →
      h₂.machine.state = .kFail ∧ h₂.calls = h.calls := by
    rintro h₁ h₂ event ⟨hm₁, hcalls₁⟩ hstep
    obtain ⟨hm₂, hcalls₂⟩ := step_failed hm₁ hstep
    exact ⟨hm₂, hcalls₂.trans hcalls₁⟩
  exact (eventSystem callbacks).invariant_of_run hkeeps ⟨hm, rfl⟩ hrun

def Ample (callbacks : Callbacks) (h : Handshake) : HandshakeEvent → Prop
  | .arrive chunk =>
    h.reading ≠ none → h.machine.ample callbacks (h.upstream.contents ++ chunk) = true
  | _ => True

theorem failsForGood_iff {event : HandshakeEvent}
    (hstep : (eventSystem callbacks).step h event = some h') :
    FailsForGood h event h' ↔
      (event ≠ .connectionSucceed → h'.machine.state = .kFail → h'.reading = none) :=
  ⟨FailsForGood.unread, fun hunread =>
    ⟨hunread, fun hm => (step_failed hm hstep).1, fun hm => (step_failed hm hstep).2⟩⟩

/-- One step of a bridge whose buffer is in order. -/
theorem step_settles {event : HandshakeEvent} (hb : Holds h.upstream h.reading bytes)
    (henabled : (eventSystem callbacks).enabled h event = true)
    (hstep : (eventSystem callbacks).step h event = some h') :
    (∃ rest, Holds h'.upstream h'.reading rest) ∧
      (FailsForGood h event h' ↔ h.Ample callbacks event) := by
  rw [failsForGood_iff hstep]
  cases event with
  | arrive chunk =>
    change arrive callbacks h chunk = some h' at hstep
    cases hreading : h.reading with
    | none =>
      rw [arrive, hreading] at hstep
      rw [hreading] at hb
      cases hstep
      exact ⟨⟨bytes, hb⟩, iff_of_true (fun _ _ => rfl) (fun hne => absurd hreading hne)⟩
    | some spans =>
      have hfits : h.fits chunk = true := henabled
      rw [fits, hreading, Option.all_some, decide_eq_true_eq] at hfits
      rw [hreading] at hb
      obtain ⟨b, hcommit, hb'⟩ := hb.commit hfits
      obtain ⟨-, -, -, hcontents⟩ := hb
      rw [arrive, hreading] at hstep
      obtain ⟨hholds, hiff⟩ := handler_settles hcommit hb' hstep
      refine ⟨hholds, ?_⟩
      rw [Ample, hcontents]
      constructor
      · exact fun hunread _ => hiff.mp (hunread (by rintro ⟨⟩))
      · exact fun hample _ => hiff.mpr (hample (by simp [hreading]))
  | readFailed ec =>
    obtain ⟨spans, hreading⟩ := Option.isSome_iff_exists.mp henabled
    rw [hreading] at hb
    have hnothing : ([] : List UInt8).length ≤ (spans.flatMap Span.cells).length := Nat.zero_le _
    obtain ⟨b, hcommit, hb'⟩ := hb.commit hnothing
    have hrun : h.upstream.commit 0 = some b := by simpa [BasicBuffer.writeAll] using hcommit
    change socks5HandshakeHandler callbacks (some ec) 0 h = some h' at hstep
    simp only [socks5HandshakeHandler, hrun, Option.bind_eq_bind, Option.bind_some,
      Option.isSome_some, if_true] at hstep
    cases hstep
    exact ⟨⟨_, hb'⟩, iff_of_true (fun _ _ => rfl) trivial⟩
  | connectionSucceed =>
    obtain ⟨_, -, hone⟩ := Option.bind_eq_some_iff.mp hstep
    cases hone
    exact ⟨⟨bytes, hb⟩, iff_of_true (fun hne => absurd rfl hne) trivial⟩

/-- The handshake of a new bridge, with the given events. Once it has failed it makes no
more calls, and it is never read again exactly when the bytes at each run of the handler
are ample. -/
theorem fails_for_good_iff (callbacks : Callbacks) (freelist : Freelist)
    (events : List HandshakeEvent) (h₀ : Handshake)
    (hstart : performSocks5Handshake freelist = some h₀)
    (hevents : (eventSystem callbacks).schedulable h₀ events = true) :
    ((eventSystem callbacks).EveryStep FailsForGood h₀ events ↔
      (eventSystem callbacks).EveryStep (fun h event _ => h.Ample callbacks event) h₀ events) ∧
    ∀ before after h₁ h₂, events = before ++ after →
      (eventSystem callbacks).run h₀ before = some h₁ → h₁.machine.state = .kFail →
      (eventSystem callbacks).run h₁ after = some h₂ →
      h₂.machine.state = .kFail ∧ h₂.calls = h₁.calls := by
  refine ⟨?_, fun _ _ _ _ _ _ hm hrun => run_failed hm hrun⟩
  obtain ⟨h, hstart', hinv⟩ := readsOn_create callbacks freelist
  obtain rfl : h = h₀ := Option.some_injective _ (hstart'.symm.trans hstart)
  refine (eventSystem callbacks).everyStep_congr
    (fun h => ∃ bytes, Holds h.upstream h.reading bytes) ?_ ⟨_, hinv.holds⟩ hevents
  rintro h h' event ⟨bytes, hb⟩ henabled hstep
  obtain ⟨hholds, hiff⟩ := step_settles hb henabled hstep
  exact ⟨hiff, fun _ => hholds⟩

/-- A client that speaks SOCKS4 is read again after it has been refused. -/
theorem reads_refused_client :
    ∃ h₀, performSocks5Handshake BufferUser.demoFreelist = some h₀ ∧
      (eventSystem demoCallbacks).schedulable h₀ [.arrive [0x04, 0x01]] = true ∧
      ¬ (eventSystem demoCallbacks).EveryStep FailsForGood h₀ [.arrive [0x04, 0x01]] := by
  have hrun : ((performSocks5Handshake BufferUser.demoFreelist).bind (fun h =>
      ((eventSystem demoCallbacks).step h (.arrive [0x04, 0x01])).map (fun h' =>
        (h.fits [0x04, 0x01], h'.machine.state, h'.reading.isSome)))) =
      some (true, .kFail, true) := by decide +kernel
  obtain ⟨h₀, hstart, hrun⟩ := Option.bind_eq_some_iff.mp hrun
  obtain ⟨h', hstep, hresult⟩ := Option.map_eq_some_iff.mp hrun
  simp only [Prod.mk.injEq] at hresult
  obtain ⟨hfits, hfail, hreading⟩ := hresult
  refine ⟨h₀, hstart, ?_, fun hgood => ?_⟩
  · have henabled : (eventSystem demoCallbacks).enabled h₀ (.arrive [0x04, 0x01]) = true := hfits
    rw [GuardedSystem.schedulable, henabled, hstep]
    rfl
  · rw [(hgood h' hstep).1.unread (by rintro ⟨⟩) hfail] at hreading
    cases hreading

/-- The same client, when it sends two more bytes at once. -/
theorem drops_refused_client :
    ∃ h₀, performSocks5Handshake BufferUser.demoFreelist = some h₀ ∧
      (eventSystem demoCallbacks).EveryStep FailsForGood h₀
        [.arrive [0x04, 0x01, 0x00, 0x50]] := by
  have hstart : (performSocks5Handshake BufferUser.demoFreelist).map (fun h =>
      ((eventSystem demoCallbacks).schedulable h [.arrive [0x04, 0x01, 0x00, 0x50]],
        h.machine.ample demoCallbacks (h.upstream.contents ++ [0x04, 0x01, 0x00, 0x50]))) =
      some (true, true) := by decide +kernel
  obtain ⟨h₀, hstart, hresult⟩ := Option.map_eq_some_iff.mp hstart
  simp only [Prod.mk.injEq] at hresult
  obtain ⟨hevents, hample⟩ := hresult
  refine ⟨h₀, hstart, (fails_for_good_iff demoCallbacks BufferUser.demoFreelist _ h₀ hstart
    hevents).1.mpr ?_⟩
  exact fun _ _ => ⟨fun _ => hample, trivial⟩

end Handshake
end PublicEndorsement.Proxy
