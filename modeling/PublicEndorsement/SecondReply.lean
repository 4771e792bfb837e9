import PublicEndorsement.InboundPath

/-!
# The second reply, read in one piece or in several

A standby connection waits for the second reply of the proxy. `Start` reads it with
`async_read_some`, which completes with whatever has arrived, and `Handle1stResp` with
`async_read`, which completes with all that was asked for. `Handle2ndResp` is bound to
both.
-/

namespace PublicEndorsement.Proxy

inductive ReadCall where
  | asyncRead
  | asyncReadSome
  deriving DecidableEq, Repr

/-- What a read completes with, of a reply that arrives in the given segments. -/
def ReadCall.completesWith : ReadCall → List (List UInt8) → List UInt8
  | .asyncRead, segments => segments.flatten
  | .asyncReadSome, segments => segments.headD []

/-- The pool, and for each slot how its second reply is read. -/
structure ReadingPool where
  pool : ClientSessionPool
  reads : ℕ → ReadCall

namespace ReadingPool

def start (io : StartIO) : Option ReadingPool :=
  (ClientSessionPool.start io).map (fun p =>
    ⟨p, Function.update (fun _ => .asyncRead) 0 .asyncReadSome⟩)

/-- Once the first response of a slot has come, it is `Handle1stResp` that begins to read the
second. -/
def readsAfter (s : ReadingPool) : ClientSessionPool.PoolAction → ℕ → ReadCall
  | .complete i _, k =>
    if s.pool.pending[i]? = some ⟨.handle1stResp, k⟩ then .asyncRead else s.reads k
  | .clientError, k => s.reads k

def system : GuardedSystem ReadingPool ClientSessionPool.PoolAction where
  enabled s := ClientSessionPool.system.enabled s.pool
  step s a := (ClientSessionPool.system.step s.pool a).map (fun p => ⟨p, s.readsAfter a⟩)

def completion (s : ReadingPool) (k : ℕ) (segments : List (List UInt8)) (padding : Octets 2) :
    ClientSessionPool.Completion :=
  .received ((s.reads k).completesWith segments) none padding

end ReadingPool

namespace ClientSessionPool

/-- The message is sent once, from slot `k`: nothing else happens to the slot before, and
then it is connected anew. -/
def SendsOnce (k : ℕ) (message : MicroBuffer) (p : ClientSessionPool) : Prop :=
  ∀ actions p', system.run p actions = some p' →
    (∀ run ∈ p'.runs.drop p.runs.length, run.index ≠ k) →
    (∀ op ∈ p'.pending, op.index = k → op = ⟨.handleSendFd, k⟩) ∧
    ∃ j, p'.pending[j]? = some ⟨.handleSendFd, k⟩ ∧
      (p'.stop = false → ∃ p'', system.step p' (.complete j (.writable none true)) = some p'' ∧
        p''.toClient = p'.toClient ++ [.newConnectionResponse message] ∧
        (p''.runs.drop p'.runs.length).map (fun run => (run.handler, run.index)) =
          [(.handleSendFd, k), (.initiateSocket, k)] ∧
        ∀ op ∈ p''.pending, op.index = k → op = ⟨.handleConnect, k⟩)

variable {p : ClientSessionPool} {k : ℕ}

theorem sendsOnce_of_mem {message : MicroBuffer} (hown : p.Own)
    (hmem : ⟨.handleSendFd, k⟩ ∈ p.pending) (hbuf : p.buf k = message) :
    p.SendsOnce k message := by
  intro actions p' hrun hidle
  have hcarries : p'.Carries p.runs.length k message :=
    system.invariant_of_run Carries.step ⟨hown, le_rfl, fun _ => ⟨hmem, hbuf⟩⟩ hrun
  obtain ⟨hmem', hbuf'⟩ := hcarries.waits hidle
  have honly : ∀ op ∈ p'.pending, op.index = k → op = ⟨.handleSendFd, k⟩ :=
    fun op hop hindex => List.inj_on_of_nodup_map hcarries.own.distinct hop hmem' hindex
  obtain ⟨j, hj⟩ := List.mem_iff_getElem?.mp hmem'
  refine ⟨honly, j, hj, fun hstop => ?_⟩
  obtain ⟨p'', hstep, hsent, hruns, hpending⟩ := step_handleSendFd hj hstop
  refine ⟨p'', hstep, hbuf' ▸ hsent, ?_, ?_⟩
  · rw [hruns, List.drop_left]
    rfl
  · intro op hop hindex
    rw [hpending, List.mem_append, List.mem_singleton] at hop
    rcases hop with hop | rfl
    · obtain ⟨-, hfree⟩ := hcarries.own.erase hj
      exact absurd (List.mem_map.mpr ⟨op, hop, hindex⟩) hfree
    · rfl

/-- A slot on which something else is outstanding does not send. -/
theorem not_sendsOnce {message : MicroBuffer} {handler : PoolHandler}
    (hmem : ⟨handler, k⟩ ∈ p.pending) (hne : handler ≠ .handleSendFd) :
    ¬ p.SendsOnce k message := by
  intro h
  obtain ⟨honly, -⟩ := h [] p rfl (by simp)
  exact hne (congrArg PoolOp.handler (honly _ hmem rfl))

/-- A second response that is not all there counts as an error. -/
theorem step_short (hstop : p.stop = false) {i : ℕ}
    (hop : p.pending[i]? = some ⟨.handle2ndResp, k⟩) {bytes : List UInt8}
    (hshort : bytes.length < k2ndBindResponseSize) (padding : Octets 2) :
    ∃ p', system.step p (.complete i (.received bytes none padding)) = some p' ∧
      ⟨.handleConnect, k⟩ ∈ p'.pending := by
  refine ⟨_, Option.bind_eq_some_iff.mpr ⟨_, hop, rfl⟩, ?_⟩
  simp [handle2ndResp, enter, fill, hstop, hshort, retry, initiateSocket, await]

end ClientSessionPool

open ClientSessionPool

namespace ReadingPool

/-- The pool hands the connection over that the reply is about. -/
def Delivers (s : ReadingPool) (i k : ℕ) (reply : Octets 22) (segments : List (List UInt8))
    (padding : Octets 2) : Prop :=
  ∃ s', system.step s (.complete i (s.completion k segments padding)) = some s' ∧
    ∃ message, s'.pool.SendsOnce k message ∧ respAddr message = replyAddr reply ∧
      respPort message = replyPort reply

/-- Slots in order, of which only the first is read with `async_read_some`. -/
structure Sound (s : ReadingPool) : Prop where
  slotted : s.pool.Slotted
  own : s.pool.Own
  first : ∀ k, s.reads k = .asyncReadSome → k = 0

theorem sound_start {io : StartIO} {s : ReadingPool} (hstart : start io = some s)
    {type : MessageType} {backlog : ℤ} (hbacklog : io.listenRequest = .ok (type, backlog))
    (htwo : 2 ≤ backlog) : s.Sound := by
  obtain ⟨p, hpool, rfl⟩ := Option.map_eq_some_iff.mp hstart
  refine ⟨slotted_start hpool hbacklog htwo, own_of_start hpool, ?_⟩
  intro k hk
  by_contra hne
  change Function.update (fun _ => ReadCall.asyncRead) 0 .asyncReadSome k = _ at hk
  rw [Function.update_of_ne hne] at hk
  cases hk

theorem readsAfter_cases (s : ReadingPool) (a : PoolAction) (k : ℕ) :
    s.readsAfter a k = s.reads k ∨ s.readsAfter a k = .asyncRead := by
  cases a with
  | clientError => exact .inl rfl
  | complete i completion =>
    rw [readsAfter]
    split_ifs
    · exact .inr rfl
    · exact .inl rfl

theorem Sound.step (s s' : ReadingPool) (a : PoolAction) (h : s.Sound)
    (hstep : system.step s a = some s') : s'.Sound := by
  obtain ⟨p, hpool, rfl⟩ := Option.map_eq_some_iff.mp hstep
  refine ⟨h.slotted.of_step s.pool p a hpool, h.own.step s.pool p a hpool, ?_⟩
  intro k hk
  rcases s.readsAfter_cases a k with hsame | hread
  · exact h.first k (hsame.symm.trans hk)
  · cases hread.symm.trans hk

variable {s : ReadingPool} {i k : ℕ} {reply : Octets 22} {segments : List (List UInt8)}

/-- A read that completes with the whole reply. -/
theorem delivers_of_whole (h : s.Sound) (hstop : s.pool.stop = false)
    (hop : s.pool.pending[i]? = some ⟨.handle2ndResp, k⟩) (hgranted : reply.get 1 = 0x00)
    (hwhole : (s.reads k).completesWith segments = reply.toList) (padding : Octets 2) :
    s.Delivers i k reply segments padding := by
  have hk : k < s.pool.buffers.length := by
    have hlt := h.slotted.pending _ (List.mem_of_getElem? hop)
    rw [h.slotted.buffers]
    exact hlt.trans_le h.slotted.sockets
  obtain ⟨p', hstep, hmem, hbuf⟩ := step_granted hstop hop hk reply hgranted padding
  refine ⟨⟨p', _⟩, Option.map_eq_some_iff.mpr ⟨p', ?_, rfl⟩, _,
    sendsOnce_of_mem (h.own.step _ _ _ hstep) hmem hbuf, resp_newConnResp reply _ padding⟩
  rw [completion, hwhole]
  exact hstep

theorem not_delivers_of_short (hstop : s.pool.stop = false)
    (hop : s.pool.pending[i]? = some ⟨.handle2ndResp, k⟩)
    (hshort : ((s.reads k).completesWith segments).length < k2ndBindResponseSize)
    (padding : Octets 2) : ¬ s.Delivers i k reply segments padding := by
  rintro ⟨s', hstep, message, hsends, -⟩
  obtain ⟨p', hpool, rfl⟩ := Option.map_eq_some_iff.mp hstep
  obtain ⟨p'', hretry, hmem⟩ := step_short hstop hop hshort padding
  obtain rfl : p'' = p' := Option.some_injective _ (hretry.symm.trans hpool)
  exact not_sendsOnce hmem (by decide) hsends

/-- The first of several segments is not the whole. -/
theorem headD_length_lt (hne : [] ∉ segments) (hreply : segments.flatten = reply.toList)
    (hsplit : segments ≠ [reply.toList]) :
    (segments.headD []).length < k2ndBindResponseSize := by
  have hlen := congrArg List.length hreply
  rw [reply.toList_length] at hlen
  match segments, hne, hreply, hsplit, hlen with
  | [], _, _, _, _ => decide
  | [segment], _, hreply, hsplit, _ =>
    rw [List.flatten_singleton] at hreply
    exact absurd (congrArg (fun bytes => [bytes]) hreply) hsplit
  | segment :: next :: rest, hne, _, _, hlen =>
    have hnext : next ≠ [] := by
      rintro rfl
      simp at hne
    have hpos := List.length_pos_iff.mpr hnext
    simp only [List.flatten_cons, List.length_append] at hlen
    change segment.length < 22
    omega

/-- Whatever has happened to a pool with room for two slots before, and in whatever segments
a second reply that grants the request arrives on one of them: the connection is handed
over, once and before the slot is used again, exactly when the reply comes in one piece
or is not read with `async_read_some`. Only the first slot ever is. -/
theorem delivers_iff (io : StartIO) (type : MessageType) (backlog : ℤ)
    (hbacklog : io.listenRequest = .ok (type, backlog)) (htwo : 2 ≤ backlog)
    (s₀ s : ReadingPool) (actions : List PoolAction) (hstart : start io = some s₀)
    (hrun : system.run s₀ actions = some s) (hstop : s.pool.stop = false) (i k : ℕ)
    (hop : s.pool.pending[i]? = some ⟨.handle2ndResp, k⟩) (reply : Octets 22)
    (hgranted : reply.get 1 = 0x00) (segments : List (List UInt8)) (hne : [] ∉ segments)
    (hreply : segments.flatten = reply.toList) (padding : Octets 2) :
    (s.Delivers i k reply segments padding ↔
      (s.reads k = .asyncReadSome → segments = [reply.toList])) ∧
    (s.reads k = .asyncReadSome → k = 0) := by
  have hsound := system.invariant_of_run Sound.step (sound_start hstart hbacklog htwo) hrun
  refine ⟨⟨?_, ?_⟩, hsound.first k⟩
  · intro hdelivers hsome
    by_contra hsplit
    refine not_delivers_of_short hstop hop ?_ padding hdelivers
    rw [hsome]
    exact headD_length_lt hne hreply hsplit
  · intro hwhole
    refine delivers_of_whole hsound hstop hop hgranted ?_ padding
    cases hread : s.reads k with
    | asyncRead => exact hreply
    | asyncReadSome =>
      rw [hwhole hread]
      rfl

def demoReply : Octets 22 :=
  secondReply (mapped (0x0a ::ᵥ 0x00 ::ᵥ 0x00 ::ᵥ 0x07 ::ᵥ .nil)) (0x10 ::ᵥ 0x00 ::ᵥ .nil)

/-- The first byte arrives on its own: the connection is dropped. -/
theorem split_reply_dropped : ∃ s, start (demoStart 64) = some s ∧ s.pool.stop = false ∧
    s.pool.pending[0]? = some ⟨.handle2ndResp, 0⟩ ∧
    [demoReply.toList.take 1, demoReply.toList.drop 1].flatten = demoReply.toList ∧
    ¬ s.Delivers 0 0 demoReply [demoReply.toList.take 1, demoReply.toList.drop 1]
      ⟨[0x00, 0x00], rfl⟩ := by
  refine ⟨_, rfl, rfl, rfl, rfl, ?_⟩
  refine not_delivers_of_short rfl rfl ?_ _
  decide

theorem demo_delivers : ∃ s, start (demoStart 64) = some s ∧
    s.Delivers 0 0 demoReply [demoReply.toList] ⟨[0x00, 0x00], rfl⟩ :=
  ⟨_, rfl, (delivers_iff (demoStart 64) .kListenRequest 64 rfl (by decide) _ _ [] rfl rfl rfl 0 0
    rfl demoReply rfl [demoReply.toList] (by decide) (by simp) ⟨[0x00, 0x00], rfl⟩).1.mpr
      (fun _ => rfl)⟩

end ReadingPool
end PublicEndorsement.Proxy
