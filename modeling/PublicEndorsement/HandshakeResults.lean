import PublicEndorsement.HandshakeSteps

/-!
# Handshakes under every segmentation

However the client's bytes are cut, the handler ends up where the reader of the grammar
does on the whole stream.
-/

namespace PublicEndorsement.Proxy.Handshake

open Socks5

variable {callbacks : Callbacks} {served : Request → Prop} {h : Handshake} {p : Phase}
  {pending : List UInt8}

/-- A machine that is done does not move, and takes nothing. -/
theorem proceed_of_done (callbacks : Callbacks) {m : Socks5State} (b : Buffer)
    (hp : p.Describes m) (hdone : p.done = true) :
    ∃ m', m.proceed callbacks b = some (.returnFalse m' b []) ∧ p.Describes m' := by
  rw [Socks5State.proceed]
  split
  · exact ⟨m, rfl, hp⟩
  · rw [hp.state]
    cases p with
    | waiting r =>
      obtain ⟨command, family, addr, port⟩ := r
      cases command <;> exact ⟨m, rfl, hp⟩
    | failed greeted => exact ⟨_, rfl, rfl, fun hne => absurd rfl hne⟩
    | _ => simp [Phase.done] at hdone

theorem state_ne_success {m : Socks5State} (hp : p.Describes m) : m.state ≠ .kSuccess := by
  rw [hp.state]
  cases p with
  | waiting r =>
    obtain ⟨command, family, addr, port⟩ := r
    cases command <;> simp [Phase.state, Command.waitState]
  | address command family => cases command <;> cases family <;> simp [Phase.state]
  | _ => simp [Phase.state]

theorem insufficient_of_short {m : Socks5State} {b : Buffer} (hp : p.Describes m)
    (hdone : p.done = false) (hb : Holds b none pending) (hshort : pending.length < p.size) :
    m.insufficientBuffer b = true := by
  rw [Socks5State.insufficientBuffer, hb.dataSize_eq, hp.size_of_not_done hdone]
  exact decide_eq_true hshort

theorem rank_lt (p : Phase) : p.rank < 11 := by
  cases p <;> simp [Phase.rank]

/-- The loop of the handler reads as far as the reader does. -/
theorem proceedLoop_spec (hcallbacks : callbacks.Serve served) (fuel : ℕ) (hfuel : p.rank < fuel)
    (hserved : ∀ r, (reader.drive p pending).1 = .waiting r → served r)
    (hp : p.Describes h.machine) (hb : Holds h.upstream none pending)
    (hcalls : h.calls = p.calls callbacks) :
    ∃ m b, proceedLoop callbacks fuel h = some { h with
        machine := m
        upstream := b
        calls := (reader.drive p pending).1.calls callbacks } ∧
      (reader.drive p pending).1.Describes m ∧ Holds b none (reader.drive p pending).2 := by
  induction fuel generalizing h p pending with
  | zero => omega
  | succ fuel ih =>
    rw [proceedLoop, if_neg (state_ne_success hp)]
    by_cases hdone : p.done = true
    · obtain ⟨m, hproceed, hm⟩ := proceed_of_done callbacks h.upstream hp hdone
      rw [reader.drive_of_done hdone]
      refine ⟨m, h.upstream, ?_, hm, hb⟩
      rw [hproceed, ← hcalls]
      simp [Proceeded.returnFalse]
    · rw [Bool.not_eq_true] at hdone
      rcases Nat.lt_or_ge pending.length p.size with hshort | hlong
      · have hinsufficient := insufficient_of_short hp hdone hb hshort
        rw [reader.drive_of_short hshort]
        refine ⟨h.machine, h.upstream, ?_, hp, hb⟩
        rw [Socks5State.proceed, hinsufficient, ← hcalls]
        simp [Proceeded.returnFalse]
      · have hlen : (pending.take p.size).length = p.size := by
          rw [List.length_take]
          omega
        have hdrive : reader.drive p pending =
            reader.drive (p.next (pending.take p.size)) (pending.drop p.size) :=
          reader.drive_of_enough (Bool.eq_false_iff.mp hdone) hlong
        rw [hdrive] at hserved ⊢
        rw [← List.take_append_drop p.size pending] at hb
        obtain ⟨r, hproceed, hdescribes, hholds, hmade, hreturned⟩ :=
          p.proceed_takes hcallbacks hp hdone hlen hb (fun r hr => hserved r (by
            rw [hr]
            exact congrArg Prod.fst (reader.drive_of_done rfl)))
        rw [hproceed]
        simp only [Option.bind_eq_bind, Option.bind_some, hreturned, hcalls, hmade]
        by_cases hnext : (p.next (pending.take p.size)).done = true
        · rw [reader.drive_of_done hnext]
          exact ⟨r.machine, r.buffer, by simp [hnext], hdescribes, hholds⟩
        · rw [Bool.not_eq_true] at hnext
          have hrank := Phase.rank_next p (pending.take p.size) (Bool.eq_false_iff.mp hdone)
          simp only [hnext, Bool.not_false, if_true]
          exact ih (by omega) hserved hdescribes hholds rfl

/-- Where a handshake stands after the given pieces of the stream. It has stopped reading
only when it is done, and then the rest of the stream is still in the socket. -/
structure ReadsOn (callbacks : Callbacks) (chunks : List (List UInt8)) (h : Handshake) : Prop where
  stream : h.received ++ h.unread = chunks.flatten
  describes : (reader.drive .greetingHeader h.received).1.Describes h.machine
  holds : Holds h.upstream h.reading (reader.drive .greetingHeader h.received).2
  calls : h.calls = (reader.drive .greetingHeader h.received).1.calls callbacks
  stopped : h.reading = none → (reader.drive .greetingHeader h.received).1.done = true
  reading : h.reading ≠ none → h.unread = []

theorem readsOn_create (callbacks : Callbacks) (freelist : Freelist) :
    ∃ h, performSocks5Handshake freelist = some h ∧ ReadsOn callbacks [] h := by
  obtain ⟨spans, size, b, hreserve, hb⟩ := (Holds.create freelist).reserveAtLeast
  have hstart : reader.drive .greetingHeader [] = (.greetingHeader, []) :=
    reader.drive_of_short (by simp [reader, Phase.size])
  refine ⟨_, by rw [performSocks5Handshake, startRead, hreserve]; rfl, rfl, ?_, ?_, ?_, ?_, ?_⟩
  · rw [hstart]
    exact ⟨rfl, fun _ => rfl⟩
  · rw [hstart]
    exact hb
  · rw [hstart]
    rfl
  · intro hnone
    simp at hnone
  · intro _
    rfl

/-- The handler run on a piece that has been read. -/
theorem arrive_reading (hcallbacks : callbacks.Serve served) {chunks : List (List UInt8)}
    (hinv : ReadsOn callbacks chunks h) {spans : List Span} (hreading : h.reading = some spans)
    {chunk : List UInt8} (hle : chunk.length ≤ (spans.flatMap Span.cells).length)
    (hserved : ∀ r, (reader.drive .greetingHeader (h.received ++ chunk)).1 = .waiting r →
      served r) :
    ∃ h', arrive callbacks h chunk = some h' ∧ ReadsOn callbacks (chunks ++ [chunk]) h' := by
  have hholds := hinv.holds
  rw [hreading] at hholds
  obtain ⟨b₁, hcommit, hb₁⟩ := hholds.commit hle
  rw [← reader.drive_append] at hserved
  obtain ⟨m, b₂, hloop, hm, hb₂⟩ := proceedLoop_spec
    (h := { h with upstream := b₁, reading := none, received := h.received ++ chunk })
    hcallbacks 11 (rank_lt _) hserved hinv.describes hb₁ hinv.calls
  rw [reader.drive_append] at hloop hm hb₂
  have hstream : h.received ++ chunk ++ h.unread = (chunks ++ [chunk]).flatten := by
    have hunread : h.unread = [] := hinv.reading (by simp [hreading])
    have hstream := hinv.stream
    rw [hunread, List.append_nil] at hstream
    simp [hunread, hstream]
  rw [arrive, hreading]
  simp only [socks5HandshakeHandler, hcommit, hloop, Option.bind_eq_bind, Option.bind_some,
    Option.isSome_none, Bool.false_eq_true, if_false]
  split
  · obtain ⟨spans', size, b₃, hreserve, hb₃⟩ := hb₂.reserveAtLeast
    rw [startRead, hreserve]
    exact ⟨_, rfl, hstream, hm, hb₃, rfl, fun hnone => by simp at hnone,
      fun _ => hinv.reading (by simp [hreading])⟩
  · rename_i hsufficient
    refine ⟨_, rfl, hstream, hm, hb₂, rfl, fun _ => ?_, fun hne => absurd rfl hne⟩
    rcases reader.drive_stops .greetingHeader (h.received ++ chunk) with hdone | hshort
    · exact hdone
    · by_contra hdone
      rw [Bool.not_eq_true] at hdone
      exact hsufficient (insufficient_of_short hm hdone hb₂ hshort)

/-- A request that has been read stays the one that was read. -/
theorem waiting_append {s : List UInt8} {r : Request}
    (h : (reader.drive .greetingHeader s).1 = .waiting r) (more : List UInt8) :
    (reader.drive .greetingHeader (s ++ more)).1 = .waiting r := by
  rw [← reader.drive_append, h, reader.drive_of_done rfl]

theorem arrive_readsOn (hcallbacks : callbacks.Serve served) {all : List (List UInt8)}
    (hserved : ∀ r, (reader.drive .greetingHeader all.flatten).1 = .waiting r → served r)
    (chunks : List (List UInt8)) (h : Handshake) (chunk : List UInt8)
    (rest : List (List UInt8)) (hall : all = chunks ++ chunk :: rest)
    (hinv : ReadsOn callbacks chunks h) (hfits : h.fits chunk = true) :
    ∃ h', arrive callbacks h chunk = some h' ∧ ReadsOn callbacks (chunks ++ [chunk]) h' := by
  cases hreading : h.reading with
  | none =>
    refine ⟨{ h with unread := h.unread ++ chunk }, by rw [arrive, hreading], ?_,
      hinv.describes, hinv.holds, hinv.calls, hinv.stopped, fun hne => absurd hreading hne⟩
    rw [← List.append_assoc, hinv.stream]
    simp
  | some spans =>
    rw [fits, hreading, Option.all_some, decide_eq_true_eq] at hfits
    refine arrive_reading hcallbacks hinv hreading hfits (fun r hr => hserved r ?_)
    have hstream := hinv.stream
    rw [hinv.reading (by simp [hreading]), List.append_nil] at hstream
    rw [hall, List.flatten_append, List.flatten_cons, ← hstream, ← List.append_assoc]
    exact waiting_append hr rest.flatten

def handshake (callbacks : Callbacks) (freelist : Freelist) (chunks : List (List UInt8)) :
    Option Handshake :=
  (performSocks5Handshake freelist).bind (fun h => (system callbacks).run h chunks)

/-- Each piece fits into the read it completes. -/
def feedable (callbacks : Callbacks) (freelist : Freelist) (chunks : List (List UInt8)) : Bool :=
  (performSocks5Handshake freelist).all (fun h => (system callbacks).schedulable h chunks)

/-- The handler on pieces of a stream, and the reader on the whole of it. -/
theorem handshake_reads (hcallbacks : callbacks.Serve served) {freelist : Freelist}
    {chunks : List (List UInt8)} (hchunks : feedable callbacks freelist chunks = true)
    (hserved : ∀ r, (reader.drive .greetingHeader chunks.flatten).1 = .waiting r →
      served r) :
    ∃ h, handshake callbacks freelist chunks = some h ∧
      h.machine.state = (reader.drive .greetingHeader chunks.flatten).1.state ∧
      h.calls = (reader.drive .greetingHeader chunks.flatten).1.calls callbacks ∧
      h.upstream.contents ++ h.unread = (reader.drive .greetingHeader chunks.flatten).2 := by
  obtain ⟨h₀, hstart, hinv₀⟩ := readsOn_create callbacks freelist
  rw [feedable, hstart, Option.all_some] at hchunks
  obtain ⟨h, hrun, hinv⟩ := (system callbacks).run_invariant_of_past (ReadsOn callbacks)
    (arrive_readsOn hcallbacks hserved) (List.nil_append chunks).symm hinv₀ hchunks
  refine ⟨h, by rw [handshake, hstart, Option.bind_some, hrun], ?_⟩
  obtain ⟨-, -, -, hcontents⟩ := hinv.holds
  rw [← hinv.stream, hcontents]
  by_cases hreading : h.reading = none
  · rw [← reader.drive_append, reader.drive_of_done (hinv.stopped hreading)]
    exact ⟨hinv.describes.state, hinv.calls, rfl⟩
  · rw [hinv.reading hreading, List.append_nil, List.append_nil]
    exact ⟨hinv.describes.state, hinv.calls, rfl⟩

def actsOnRequest : HandshakeCall → Bool
  | .connect _ _ => true
  | .bind _ _ _ => true
  | _ => false

/-- A phase in which a request has been read, or else nothing was done about one. -/
theorem waiting_or_idle (callbacks : Callbacks) (p : Phase) :
    (∃ r, p = .waiting r) ∨ ∀ call ∈ p.calls callbacks, actsOnRequest call = false := by
  cases p with
  | waiting r => exact .inl ⟨r, rfl⟩
  | failed greeted => cases greeted <;> simp [Phase.calls, methodReply, actsOnRequest]
  | _ => simp [Phase.calls, methodReply, actsOnRequest]

theorem exists_request_of_waiting {s : List UInt8} {r : Request}
    (h : (reader.drive .greetingHeader s).1 = .waiting r) :
    ∃ g : Greeting, g.bytes ++ r.bytes <+: s := by
  rcases drive_cases s with ⟨g, r', rest, rfl⟩ | ⟨-, greeted, rest, hfailed⟩ | hopen
  · rw [List.append_assoc, drive_greeting, drive_request] at h
    cases h
    exact ⟨g, List.prefix_append _ _⟩
  · rw [hfailed] at h
    cases h
  · rw [h] at hopen
    cases hopen

theorem state_eq_fail_iff {s : List UInt8} :
    (reader.drive .greetingHeader s).1.state = .kFail ↔ Refused s := by
  constructor
  · intro h
    rcases drive_cases s with ⟨g, r, rest, rfl⟩ | ⟨hrefused, -⟩ | hopen
    · rw [List.append_assoc, drive_greeting, drive_request] at h
      cases hr : r.command <;> simp [Phase.state, hr, Command.waitState] at h
    · exact hrefused
    · cases hp : (reader.drive .greetingHeader s).1 with
      | failed greeted => simp [hp, Phase.done] at hopen
      | waiting r => simp [hp, Phase.done] at hopen
      | address command family =>
        rw [hp] at h
        cases command <;> cases family <;> simp [Phase.state] at h
      | _ => simp [hp, Phase.state] at h
  · intro h
    obtain ⟨greeted, rest, hdrive⟩ := drive_of_refused h
    rw [hdrive]
    rfl

theorem state_eq_wait_iff {s : List UInt8} (c : Command) :
    (reader.drive .greetingHeader s).1.state = c.waitState ↔
      ∃ (g : Greeting) (r : Request), r.command = c ∧ g.bytes ++ r.bytes <+: s := by
  constructor
  · intro h
    obtain ⟨r, hr, hcommand⟩ : ∃ r, (reader.drive .greetingHeader s).1 = .waiting r ∧
        r.command = c := by
      cases hp : (reader.drive .greetingHeader s).1 with
      | waiting r =>
        refine ⟨r, rfl, ?_⟩
        rw [hp, Phase.state] at h
        cases hr : r.command <;> cases c <;> simp [hr, Command.waitState] at h ⊢
      | address command family =>
        rw [hp] at h
        cases c <;> cases command <;> cases family <;> simp [Phase.state, Command.waitState] at h
      | _ =>
        rw [hp] at h
        cases c <;> simp [Phase.state, Command.waitState] at h
    obtain ⟨g, hg⟩ := exists_request_of_waiting hr
    exact ⟨g, r, hcommand, hg⟩
  · rintro ⟨g, r, rfl, rest, rfl⟩
    rw [List.append_assoc, drive_greeting, drive_request]
    rfl

/-- However the client's bytes are cut, the server waits for the connection exactly when
they start with a greeting and a `CONNECT` request, and for an inbound connection exactly
when they start with a greeting and a `BIND` request. It has then consumed just these,
replied to the greeting once and acted on the request once. Otherwise it has acted on no
request, and it has failed exactly when a field that rules the stream out has arrived. -/
theorem accepts_grammar (callbacks : Callbacks) (hcallbacks : callbacks.Cooperative)
    (freelist : Freelist) (chunks : List (List UInt8))
    (hchunks : feedable callbacks freelist chunks = true) :
    ∃ h, handshake callbacks freelist chunks = some h ∧
      (h.machine.state = .kWaitConnect ↔ ∃ (g : Greeting) (r : Request),
        r.command = .connect ∧ g.bytes ++ r.bytes <+: chunks.flatten) ∧
      (h.machine.state = .kWaitAccept ↔ ∃ (g : Greeting) (r : Request),
        r.command = .bind ∧ g.bytes ++ r.bytes <+: chunks.flatten) ∧
      (∀ (g : Greeting) (r : Request) (rest : List UInt8),
        chunks.flatten = g.bytes ++ r.bytes ++ rest →
        h.upstream.contents ++ h.unread = rest ∧ h.calls = methodReply :: r.calls callbacks) ∧
      ((¬ ∃ (g : Greeting) (r : Request), g.bytes ++ r.bytes <+: chunks.flatten) →
        ∀ call ∈ h.calls, actsOnRequest call = false) ∧
      (h.machine.state = .kFail ↔ Refused chunks.flatten) ∧
      (∀ (chunks' : List (List UInt8)) (h' : Handshake), chunks'.flatten = chunks.flatten →
        feedable callbacks freelist chunks' = true →
        handshake callbacks freelist chunks' = some h' →
        h'.machine.state = h.machine.state ∧ h'.calls = h.calls ∧
          h'.upstream.contents ++ h'.unread = h.upstream.contents ++ h.unread) := by
  obtain ⟨h, hrun, hstate, hcalls, hcontents⟩ :=
    handshake_reads hcallbacks hchunks (fun _ _ => trivial)
  refine ⟨h, hrun, ?_, ?_, ?_, ?_, ?_, ?_⟩
  · rw [hstate]
    exact state_eq_wait_iff .connect
  · rw [hstate]
    exact state_eq_wait_iff .bind
  · intro g r rest hstream
    rw [hcontents, hcalls, hstream, List.append_assoc, drive_greeting, drive_request]
    exact ⟨rfl, rfl⟩
  · intro hnone
    rw [hcalls]
    rcases waiting_or_idle callbacks (reader.drive .greetingHeader chunks.flatten).1 with
      ⟨r, hr⟩ | hidle
    · obtain ⟨g, hg⟩ := exists_request_of_waiting hr
      exact absurd ⟨g, r, hg⟩ hnone
    · exact hidle
  · rw [hstate]
    exact state_eq_fail_iff
  · intro chunks' h' hstream hchunks' hrun'
    obtain ⟨h'', hrun'', hstate'', hcalls'', hcontents''⟩ :=
      handshake_reads hcallbacks hchunks' (fun _ _ => trivial)
    obtain rfl : h' = h'' := Option.some_injective _ (hrun'.symm.trans hrun'')
    rw [hstate'', hcalls'', hcontents'', hstate, hcalls, hcontents, hstream]
    exact ⟨rfl, rfl, rfl⟩

def demoCallbacks : Callbacks where
  response := some (fun _ => .kStatusOK)
  connect := some (fun _ => .kStatusInProgress)
  destAddress := none
  bind := some (fun _ => (.kStatusOK, 8080))

theorem demoCallbacks_cooperative : demoCallbacks.Cooperative :=
  ⟨⟨_, rfl, fun _ => rfl⟩, fun _ _ _ => ⟨_, rfl, rfl⟩, fun _ _ _ => ⟨_, rfl, rfl⟩⟩

def demoChunks : List (List UInt8) :=
  [[0x05], [0x02, 0x03, 0x00, 0x05], [0x01, 0x00, 0x01, 0x7f, 0x00, 0x00, 0x01, 0x04],
    [0x00, 0x2a]]

theorem demo_accepts_grammar : ∃ h,
    handshake demoCallbacks BufferUser.demoFreelist demoChunks = some h ∧
    h.machine.state = .kWaitConnect := by
  obtain ⟨h, hrun, hconnect, -⟩ := accepts_grammar demoCallbacks demoCallbacks_cooperative
    BufferUser.demoFreelist demoChunks (by decide +kernel)
  refine ⟨h, hrun, hconnect.mpr ⟨⟨[0x03, 0x00], by decide, by decide, by decide⟩,
    ⟨.connect, .v4, ⟨[0x7f, 0x00, 0x00, 0x01], rfl⟩, ⟨[0x04, 0x00], rfl⟩⟩, rfl, [0x2a], rfl⟩⟩

end PublicEndorsement.Proxy.Handshake
