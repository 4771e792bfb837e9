import PublicEndorsement.SessionWaits

/-!
# Waiting for inbound connections

Sessions that wait at the same port share its acceptor. A connection is given to one of them, a
session that waits also watches its client, and one whose client is gone takes no connection from
the others.
-/

namespace PublicEndorsement.Proxy

def SessionAction.arrival? {ι γ : Type} (port : UInt16) : SessionAction ι γ → Option γ
  | .arrive port' sock => if port' = port then some sock else none
  | _ => none

namespace ProxySessions

variable {ι γ : Type} [DecidableEq ι] {s : ProxySessions ι γ} {c : ι} {b b' : ServedBridge γ}
  {life : BridgeLife}

/-- Every session is sound, and the queue of a port has the sessions that wait there. -/
structure Waits (s : ProxySessions ι γ) : Prop where
  sound : ∀ c b, s.session c = some b → b.Sound
  queued : ∀ port c, c ∈ s.queue port ↔ ∃ b, s.session c = some b ∧ b.accept = .outstanding port
  nodup : ∀ port, (s.queue port).Nodup

def takenAt (s : ProxySessions ι γ) (port : UInt16) : List γ :=
  (s.taken.filter (fun t => t.port = port)).map Taken.sock

/-- What has arrived at a port was taken, in that order, or is still there; it was taken by
different sessions, which hold it. -/
structure Delivered (arrived : UInt16 → List γ) (s : ProxySessions ι γ) : Prop where
  arrivals : ∀ port, arrived port = s.takenAt port ++ s.backlog port
  once : (s.taken.map Taken.session).Nodup
  holder : ∀ t ∈ s.taken, ∃ b, s.session t.session = some b ∧ b.bound = some t.port ∧
    b.Holds t.sock
  held : ∀ c b sock, s.session c = some b → b.Holds sock →
    ∃ t ∈ s.taken, t.session = c ∧ t.sock = sock

/-- One session and the queues change. -/
theorem Waits.update (h : s.Waits) (hsound : b'.Sound) {queue : UInt16 → List ι}
    (hself : ∀ port, c ∈ queue port ↔ b'.accept = .outstanding port)
    (hothers : ∀ port c', c' ≠ c → (c' ∈ queue port ↔ c' ∈ s.queue port))
    (hnodup : ∀ port, (queue port).Nodup) :
    Waits { s.put c b' with queue := queue } where
  sound c' b hc' := by
    by_cases hcc : c' = c
    · subst hcc
      simp only [put, Function.update_self, Option.some.injEq] at hc'
      exact hc' ▸ hsound
    · simp only [put, Function.update_of_ne hcc] at hc'
      exact h.sound c' b hc'
  queued port c' := by
    by_cases hcc : c' = c
    · subst hcc
      simp only [put, Function.update_self, Option.some.injEq, exists_eq_left']
      exact hself port
    · simp only [put, Function.update_of_ne hcc]
      exact (hothers port c' hcc).trans (h.queued port c')
  nodup := hnodup

omit [DecidableEq ι] in
theorem Waits.outstanding_of_mem (h : s.Waits) (hb : s.session c = some b) {port : UInt16}
    (hmem : c ∈ s.queue port) : b.accept = .outstanding port := by
  obtain ⟨b₁, hb₁, hport⟩ := (h.queued port c).mp hmem
  obtain rfl : b = b₁ := Option.some_injective _ (hb.symm.trans hb₁)
  exact hport

/-- One session and the queue of one port change. -/
theorem Waits.updateAt (h : s.Waits) (hsound : b'.Sound) {port : UInt16} {queue : List ι}
    (hself : c ∈ queue ↔ b'.accept = .outstanding port)
    (helsewhere : ∀ port', port' ≠ port → (c ∈ s.queue port' ↔ b'.accept = .outstanding port'))
    (hothers : ∀ c', c' ≠ c → (c' ∈ queue ↔ c' ∈ s.queue port)) (hnodup : queue.Nodup) :
    Waits { s.put c b' with queue := Function.update s.queue port queue } := by
  refine h.update hsound (fun port' => ?_) (fun port' c' hne => ?_) (fun port' => ?_) <;>
    by_cases hport : port' = port
  · subst hport
    rw [Function.update_self]
    exact hself
  · rw [Function.update_of_ne hport]
    exact helsewhere port' hport
  · subst hport
    rw [Function.update_self]
    exact hothers c' hne
  · rw [Function.update_of_ne hport]
  · rwa [hport, Function.update_self]
  · rw [Function.update_of_ne hport]
    exact h.nodup port'

/-- A session leaves the queue of its port, with an accept that has completed. -/
theorem Waits.leave (h : s.Waits) (hb : s.session c = some b) {port : UInt16}
    (hport : b.accept = .outstanding port) (hsound : b'.Sound) {result : Except ErrorCode γ}
    (hcompleted : b'.accept = .completed result) {queue : List ι} (hself : c ∉ queue)
    (hothers : ∀ c', c' ≠ c → (c' ∈ queue ↔ c' ∈ s.queue port)) (hnodup : queue.Nodup) :
    Waits { s.put c b' with queue := Function.update s.queue port queue } := by
  have hnot (port' : UInt16) : b'.accept ≠ .outstanding port' :=
    ServedBridge.not_outstanding_of_completed hcompleted
  refine h.updateAt hsound (iff_of_false hself (hnot port)) (fun port' hne => ?_) hothers hnodup
  refine iff_of_false (fun hmem => hne ?_) (hnot port')
  exact AcceptOp.outstanding.inj ((h.outstanding_of_mem hb hmem).symm.trans hport)

theorem Waits.put (h : s.Waits) (hb : s.session c = some b) (hsound : b'.Sound)
    (hkeeps : ServedBridge.Keeps b b') : (s.put c b').Waits := by
  refine h.update hsound (fun port => ?_) (fun _ _ _ => Iff.rfl) h.nodup
  rw [h.queued, hkeeps.outstanding, hb]
  simp only [Option.some.injEq, exists_eq_left']

theorem Delivered.update {arrived : UInt16 → List γ} (h : s.Delivered arrived)
    (hb : s.session c = some b) (b' : ServedBridge γ)
    (hbound : ∀ port, b.bound = some port → b'.bound = some port)
    (hholds : ∀ sock, b'.Holds sock ↔ b.Holds sock) (queue : UInt16 → List ι) :
    Delivered arrived { s.put c b' with queue := queue } where
  arrivals := h.arrivals
  once := h.once
  holder t ht := by
    obtain ⟨b₁, hb₁, hport, hsock⟩ := h.holder t ht
    by_cases hc : t.session = c
    · obtain rfl : b = b₁ := Option.some_injective _ (hb.symm.trans (hc ▸ hb₁))
      refine ⟨b', ?_, hbound _ hport, (hholds _).mpr hsock⟩
      rw [hc]
      exact Function.update_self ..
    · exact ⟨b₁, (Function.update_of_ne hc ..).trans hb₁, hport, hsock⟩
  held c' b₁ sock hc' hsock := by
    by_cases hcc : c' = c
    · subst hcc
      simp only [put, Function.update_self, Option.some.injEq] at hc'
      subst hc'
      exact h.held c' b sock hb ((hholds sock).mp hsock)
    · simp only [put, Function.update_of_ne hcc] at hc'
      exact h.held c' b₁ sock hc' hsock

def Evolves (s s' : ProxySessions ι γ) : Prop :=
  ∀ c b, s.session c = some b → ∃ b', s'.session c = some b' ∧ ServedBridge.Follows b b'

omit [DecidableEq ι] in
theorem Evolves.refl (s : ProxySessions ι γ) : s.Evolves s :=
  fun _ b hb => ⟨b, hb, fun _ => rfl, fun _ hnot => hnot, fun _ _ _ => Iff.rfl⟩

omit [DecidableEq ι] in
theorem Evolves.trans {s₁ s₂ s₃ : ProxySessions ι γ} (h : s₁.Evolves s₂) (h' : s₂.Evolves s₃) :
    s₁.Evolves s₃ := by
  intro c b hb
  obtain ⟨b₁, hb₁, hfollows⟩ := h c b hb
  obtain ⟨b₂, hb₂, hfollows'⟩ := h' c b₁ hb₁
  exact ⟨b₂, hb₂, hfollows.trans hfollows'⟩

theorem Evolves.of_update {s' : ProxySessions ι γ} (hb : s.session c = some b)
    (hs' : s'.session = Function.update s.session c (some b'))
    (hfollows : ServedBridge.Follows b b') : s.Evolves s' := by
  intro c' b₁ hb₁
  rw [hs']
  by_cases hcc : c' = c
  · subst hcc
    obtain rfl : b = b₁ := Option.some_injective _ (hb.symm.trans hb₁)
    exact ⟨b', Function.update_self .., hfollows⟩
  · obtain ⟨b₂, hb₂, hsame⟩ := Evolves.refl s c' b₁ hb₁
    exact ⟨b₂, (Function.update_of_ne hcc ..).trans hb₂, hsame⟩

structure Proceeds (arrived : UInt16 → List γ) (s s' : ProxySessions ι γ) : Prop where
  waits : s'.Waits
  delivered : s'.Delivered arrived
  evolves : s.Evolves s'

variable {arrived : UInt16 → List γ}

/-- A handler of a session changes nothing that the others see. -/
theorem put_proceeds (h : s.Waits) (hd : s.Delivered arrived) (hb : s.session c = some b)
    (hsound : b'.Sound) (hkeeps : ServedBridge.Keeps b b') : Proceeds arrived s (s.put c b') :=
  ⟨h.put hb hsound hkeeps,
    hd.update hb b' (fun _ hport => hkeeps.bound.trans hport) hkeeps.holds s.queue,
    .of_update hb rfl hkeeps.follows⟩

theorem accepted_proceeds (h : s.Waits) (hd : s.Delivered arrived) (hnew : s.session c = none)
    (hlives : life.Lives) :
    Proceeds arrived s (s.put c ({ life := life } : ServedBridge γ)) := by
  refine ⟨?_, ?_, fun c' b hb => ?_⟩
  · refine h.update ⟨hlives, rfl, ?_, fun hne => absurd rfl hne, fun _ => ⟨rfl, rfl, rfl⟩,
      fun hne => absurd rfl hne, fun hne => absurd rfl hne, fun hne => absurd rfl hne,
      by rintro port ⟨⟩, by rintro _ ⟨⟩, by rintro op ⟨⟩⟩
      (fun port => ?_) (fun _ _ _ => Iff.rfl) h.nodup
    · intro hor
      rcases hor with hconnecting | hbound
      · cases hconnecting
      · exact absurd rfl hbound
    · rw [h.queued, hnew]
      exact iff_of_false (by rintro ⟨b, ⟨⟩, -⟩) (by rintro ⟨⟩)
  · refine ⟨hd.arrivals, hd.once, fun t ht => ?_, fun c' b sock hc' hsock => ?_⟩
    · obtain ⟨b, hb, hheld⟩ := hd.holder t ht
      have hne : t.session ≠ c := by
        rintro rfl
        rw [hnew] at hb
        cases hb
      exact ⟨b, (Function.update_of_ne hne ..).trans hb, hheld⟩
    · by_cases hcc : c' = c
      · subst hcc
        simp only [put, Function.update_self, Option.some.injEq] at hc'
        subst hc'
        rcases hsock with hsock | hsock <;> cases hsock
      · simp only [put, Function.update_of_ne hcc] at hc'
        exact hd.held c' b sock hc' hsock
  · have hne : c' ≠ c := by
      rintro rfl
      rw [hnew] at hb
      cases hb
    obtain ⟨b', hb', hfollows⟩ := Evolves.refl s c' b hb
    exact ⟨b', (Function.update_of_ne hne ..).trans hb', hfollows⟩

theorem connectHandler_proceeds (h : s.Waits) (hd : s.Delivered arrived)
    (hb : s.session c = some b) (hconnecting : b.connecting = true) (answers : SocketAnswers)
    (ec : Option ErrorCode) :
    ∃ s', s.step (.connectHandler c answers ec) = some s' ∧ Proceeds arrived s s' := by
  have hsound := h.sound c b hb
  have hbound : b.bound = none := by
    by_contra hne
    rw [hsound.apart hne] at hconnecting
    cases hconnecting
  obtain ⟨haccept, -, hdest⟩ := hsound.unbound hbound
  obtain ⟨life, hstep, hlives⟩ := hsound.lives.step (a := .connectHandler answers ec) rfl
  refine ⟨s.put c { b with life := life, connecting := false },
    by simp only [step, handle, hb, hstep, Option.bind_eq_bind, Option.bind_some],
    put_proceeds h hd hb ?_ ⟨fun _ => Iff.rfl, rfl, fun _ => Iff.rfl⟩⟩
  exact hsound.goesOn haccept hlives (BridgeLife.connectHandler_reading hstep) (by rintro ⟨⟩)
    (fun hne => absurd hdest hne)

/-- A session that waits does not forward, nor does one whose handshake has failed. -/
theorem forward_proceeds (h : s.Waits) (hd : s.Delivered arrived) (hb : s.session c = some b)
    {action : BridgeAction} (henabled : b.life.enabled (.forward action) = true) :
    ∃ s', s.step (.forward c action) = some s' ∧ Proceeds arrived s s' := by
  have hsound := h.sound c b hb
  have hnotFresh (hhandshaking : b.life.Handshaking) : False :=
    absurd henabled (Bool.eq_false_iff.mp
      (BridgeLife.enabled_of_fresh hhandshaking.fresh action))
  have hidle : b.accept = .idle := by
    by_contra hne
    exact hnotFresh (hsound.waiting hne).1
  obtain ⟨life, hstep, hlives⟩ := hsound.lives.step (a := .forward action) henabled
  refine ⟨s.put c { b with life := life },
    by simp only [step, handle, hb, hstep, Option.bind_eq_bind, Option.bind_some],
    put_proceeds h hd hb ?_ ⟨fun _ => Iff.rfl, rfl, fun _ => Iff.rfl⟩⟩
  refine hsound.goesOn hidle hlives (BridgeLife.forward_reading hstep) id fun hne => ?_
  rcases hsound.connected hne with hforwarding | hdropped
  · obtain ⟨life', hstep', hforwarding'⟩ := hforwarding.step henabled
    exact .inl (Option.some_injective _ (hstep'.symm.trans hstep) ▸ hforwarding')
  · exact (hnotFresh hdropped.handshaking).elim

theorem socks5HandshakeHandler_proceeds (h : s.Waits) (hd : s.Delivered arrived)
    {answers : SocketAnswers} {chunk : List UInt8} {ec : Option ErrorCode}
    (hb : s.session c = some b)
    (henabled : b.life.enabled (.socks5HandshakeHandler answers chunk ec) = true) :
    ∃ s', s.socks5HandshakeHandler c answers chunk ec = some s' ∧ Proceeds arrived s s' := by
  have hsound := h.sound c b hb
  obtain ⟨life, calls, hrun, hlives, hhandshaking, hstarts, hconnecting, hbound⟩ :=
    ServedBridge.handshakeHandler_lives hsound henabled
  have hkeeps (connecting : Bool) : ServedBridge.Keeps b
      { b with life := life, readAborted := false, connecting := connecting } :=
    ⟨fun _ => Iff.rfl, rfl, fun _ => Iff.rfl⟩
  obtain ⟨haccept, -, -⟩ := hsound.unbound hbound
  simp only [socks5HandshakeHandler, hb, hrun, Option.bind_eq_bind, Option.bind_some]
  rcases hstarts with hnone | ⟨op, hop, hreading, hstarted⟩
  · rw [hnone]
    refine ⟨_, rfl, put_proceeds h hd hb ?_ (hkeeps b.connecting)⟩
    exact hsound.handshakes hbound hlives (by rw [hconnecting]; rintro ⟨⟩)
  · rw [hop]
    refine ⟨_, rfl, ?_⟩
    cases op with
    | connect =>
      exact put_proceeds h hd hb (hsound.handshakes hbound hlives fun _ => hreading) (hkeeps true)
    | bind port =>
      have hfree (port' : UInt16) : c ∉ s.queue port' := fun hmem =>
        ServedBridge.not_outstanding_of_idle haccept (h.outstanding_of_mem hb hmem)
      refine ⟨?_, ?_, .of_update hb rfl
        ⟨fun hne => absurd hbound hne, fun hne => absurd hbound hne, fun hne => absurd hbound hne⟩⟩
      · refine h.updateAt
          (hsound.binds hbound hconnecting hlives hhandshaking hreading port hstarted)
          (iff_of_true List.mem_concat_self rfl) (fun port' hne => ?_) (fun c' hne => ?_) ?_
        · exact iff_of_false (hfree port') fun heq => hne (AcceptOp.outstanding.inj heq).symm
        · rw [List.mem_append, List.mem_singleton, or_iff_left hne]
        · exact (h.nodup port).append (List.nodup_singleton c)
            (List.disjoint_singleton.mpr (hfree port))
      · refine hd.update hb _ (fun port' hport' => ?_) (fun sock => ?_) _
        · rw [hbound] at hport'
          cases hport'
        · rw [ServedBridge.holds_of_idle haccept, ServedBridge.Holds, or_iff_right]
          rintro ⟨⟩

/-- The first session that waits at a port, and what it is told. -/
theorem completeAccept_waits (h : s.Waits) {port : UInt16} {rest : List ι}
    (hqueue : s.queue port = c :: rest) (result : Except ErrorCode γ) :
    ∃ b, s.session c = some b ∧ b.accept = .outstanding port ∧ b.bound = some port ∧
      b.destSock = none ∧
      s.completeAccept port result =
        some { s.put c { b with accept := .completed result } with
          queue := Function.update s.queue port rest } ∧
      Waits { s.put c { b with accept := .completed result } with
        queue := Function.update s.queue port rest } := by
  obtain ⟨b, hb, hport⟩ := (h.queued port c).mp (by rw [hqueue]; exact List.mem_cons_self)
  have hsound := h.sound c b hb
  have hnodup := h.nodup port
  rw [hqueue, List.nodup_cons] at hnodup
  refine ⟨b, hb, hport, (hsound.watched port hport).1,
    (hsound.waiting (by rw [hport]; rintro ⟨⟩)).2.1, ?_, ?_⟩
  · simp only [completeAccept, hqueue, hb, List.head?_cons, List.tail_cons, Option.bind_eq_bind,
      Option.bind_some]
  · refine h.leave hb hport (hsound.completes hport result) rfl hnodup.1 (fun c' hne => ?_) hnodup.2
    rw [hqueue, List.mem_cons, or_iff_right hne]

/-- Nobody holds a connection through an accept that is not successful. -/
theorem holds_completed_error (hsound : b.Sound) {port : UInt16}
    (hport : b.accept = .outstanding port) (ec : ErrorCode) (sock : γ) :
    ({ b with accept := .completed (.error ec) } : ServedBridge γ).Holds sock ↔ b.Holds sock := by
  rw [hsound.holds_of_waiting (by rw [hport]; rintro ⟨⟩), hport, ServedBridge.Holds,
    (hsound.waiting (by rw [hport]; rintro ⟨⟩)).2.1]
  exact iff_of_false (by rintro (h | h) <;> cases h) (by rintro ⟨⟩)

theorem emitCancel_of_outstanding {port : UInt16} (h : b.accept = .outstanding port) :
    s.emitCancel c b =
      { s.put c { b with accept := .completed (.error operationAborted) } with
        queue := Function.update s.queue port ((s.queue port).erase c) } := by
  rw [emitCancel, h]

theorem emitCancel_of_not (h : ∀ port, b.accept ≠ .outstanding port) :
    s.emitCancel c b = s.put c b := by
  unfold emitCancel
  split
  · exact absurd ‹_› (h _)
  · rfl

theorem waitHandler_proceeds (h : s.Waits) (hd : s.Delivered arrived) (hb : s.session c = some b)
    {result : WaitResult} (hwait : b.wait = .completed result) :
    ∃ s', s.waitHandler c = some s' ∧ Proceeds arrived s s' := by
  have hsound := h.sound c b hb
  have hbound := hsound.bound_of_wait (by rw [hwait]; rintro ⟨⟩)
  have hkeeps : ServedBridge.Keeps b { b with wait := .idle } :=
    ⟨fun _ => Iff.rfl, rfl, fun _ => Iff.rfl⟩
  have hwaited (hnot : ∀ port, b.accept ≠ .outstanding port) :
      ServedBridge.Sound { b with wait := .idle } :=
    hsound.waited hbound (by rintro ⟨⟩) (by rintro ⟨⟩) (fun port hport => absurd hport (hnot port))
  simp only [waitHandler, hb, hwait, Option.bind_eq_bind, Option.bind_some]
  cases result with
  | canceled =>
    refine ⟨_, rfl, put_proceeds h hd hb (hwaited fun port hport => ?_) hkeeps⟩
    exact (hsound.waiting (by rw [hport]; rintro ⟨⟩)).2.2 hwait
  | ready ec =>
    refine ⟨_, rfl, ?_⟩
    by_cases hout : ∃ port, b.accept = .outstanding port
    · obtain ⟨port, haccept⟩ := hout
      rw [emitCancel_of_outstanding (b := { b with wait := .idle }) haccept]
      have hcompleted := hsound.completes haccept (.error operationAborted)
      refine ⟨?_, ?_, .of_update hb rfl ?_⟩
      · exact h.leave hb haccept
          (hcompleted.waited hbound (by rintro ⟨⟩) (by rintro ⟨⟩) (by rintro port ⟨⟩)) rfl
          (h.nodup port).not_mem_erase (fun c' hne => List.mem_erase_of_ne hne)
          ((h.nodup port).erase c)
      · exact hd.update hb
          { b with wait := .idle, accept := .completed (.error operationAborted) }
          (fun _ hport => hport) (holds_completed_error hsound haccept operationAborted) _
      · exact ServedBridge.follows_of_outstanding haccept rfl
    · have hnot : ∀ port, b.accept ≠ .outstanding port := not_exists.mp hout
      rw [emitCancel_of_not (b := { b with wait := .idle }) hnot]
      exact put_proceeds h hd hb (hwaited hnot) hkeeps

theorem acceptFailure_proceeds (h : s.Waits) (hd : s.Delivered arrived) {port : UInt16}
    {rest : List ι} (hqueue : s.queue port = c :: rest) (ec : ErrorCode) :
    ∃ s', s.completeAccept port (.error ec) = some s' ∧ Proceeds arrived s s' := by
  obtain ⟨b, hb, hport, -, -, hrun, hwaits⟩ := completeAccept_waits h hqueue (.error ec)
  refine ⟨_, hrun, hwaits, ?_,
    .of_update hb rfl (ServedBridge.follows_of_outstanding hport rfl)⟩
  exact hd.update hb { b with accept := .completed (.error ec) } (fun _ hport => hport)
    (holds_completed_error (h.sound c b hb) hport ec) _

theorem accept_proceeds (h : s.Waits) (hd : s.Delivered arrived) {port : UInt16} {rest : List ι}
    (hqueue : s.queue port = c :: rest) {sock : γ} {socks : List γ}
    (hbacklog : s.backlog port = sock :: socks) :
    ∃ s', s.step (.accept port) = some s' ∧ Proceeds arrived s s' := by
  obtain ⟨b, hb, hport, hbound, hdest, hrun, hwaits⟩ := completeAccept_waits h hqueue (.ok sock)
  refine ⟨{ s.put c { b with accept := .completed (.ok sock) } with
    queue := Function.update s.queue port rest
    backlog := Function.update s.backlog port socks
    taken := s.taken ++ [⟨port, c, sock⟩] }, ?_, ⟨hwaits.sound, hwaits.queued, hwaits.nodup⟩, ?_,
    .of_update hb rfl (ServedBridge.follows_of_outstanding hport rfl)⟩
  · simp only [step, hqueue, hbacklog, hrun, put, List.head?_cons, List.tail_cons,
      Option.bind_eq_bind, Option.bind_some]
  have hfirst : ∀ t ∈ s.taken, t.session ≠ c := by
    rintro t ht rfl
    obtain ⟨b₁, hb₁, -, hholds⟩ := hd.holder t ht
    obtain rfl : b = b₁ := Option.some_injective _ (hb.symm.trans hb₁)
    rw [ServedBridge.Holds, hport, hdest] at hholds
    rcases hholds with hholds | hholds <;> cases hholds
  refine ⟨fun port' => ?_, ?_, fun t ht => ?_, fun c' b₁ sock' hc' hsock => ?_⟩
  · rw [hd.arrivals port']
    by_cases heq : port' = port
    · subst heq
      simp [takenAt, hbacklog]
    · simp [takenAt, Function.update_of_ne heq, Ne.symm heq]
  · rw [List.map_append]
    refine hd.once.append (List.nodup_singleton c) (List.disjoint_singleton.mpr fun hmem => ?_)
    obtain ⟨t, ht, hc⟩ := List.mem_map.mp hmem
    exact hfirst t ht hc
  · rcases List.mem_append.mp ht with ht | ht
    · obtain ⟨b₁, hb₁, hheld⟩ := hd.holder t ht
      exact ⟨b₁, (Function.update_of_ne (hfirst t ht) ..).trans hb₁, hheld⟩
    · rw [List.mem_singleton.mp ht]
      exact ⟨_, Function.update_self .., hbound, .inl rfl⟩
  · by_cases hcc : c' = c
    · subst hcc
      simp only [put, Function.update_self, Option.some.injEq] at hc'
      subst hc'
      refine ⟨⟨port, c', sock⟩, List.mem_append_right _ (List.mem_singleton_self _), rfl, ?_⟩
      rcases hsock with hsock | hsock
      · exact Except.ok.inj (AcceptOp.completed.inj hsock)
      · rw [hdest] at hsock
        cases hsock
    · simp only [put, Function.update_of_ne hcc] at hc'
      obtain ⟨t, ht, hheld⟩ := hd.held c' b₁ sock' hc' hsock
      exact ⟨t, List.mem_append_left _ ht, hheld⟩

/-! ## Runs -/

def arrivals (actions : List (SessionAction ι γ)) (port : UInt16) : List γ :=
  actions.filterMap (SessionAction.arrival? port)

omit [DecidableEq ι] in
theorem arrivals_snoc_of_none {past : List (SessionAction ι γ)} {a : SessionAction ι γ}
    (ha : ∀ port, a.arrival? port = none) : arrivals (past ++ [a]) = arrivals past := by
  funext port
  simp [arrivals, ha port]

theorem exists_cons_of_not_isEmpty {α : Type} {l : List α} (h : (!l.isEmpty) = true) :
    ∃ a rest, l = a :: rest := by
  cases l with
  | nil => cases h
  | cons a rest => exact ⟨a, rest, rfl⟩

/-- Everything that can happen is taken up, and keeps the sessions in order. -/
theorem step_proceeds {past : List (SessionAction ι γ)} (h : s.Waits)
    (hd : s.Delivered (arrivals past)) (a : SessionAction ι γ) (henabled : s.enabled a = true) :
    ∃ s', s.step a = some s' ∧ Proceeds (arrivals (past ++ [a])) s s' := by
  cases a with
  | accepted c freelists =>
    obtain ⟨life, henter, -⟩ := BridgeLife.enter_inOrder freelists .performSocks5Handshake
    rw [arrivals_snoc_of_none fun _ => rfl]
    refine ⟨s.put c { life := life }, by simp only [step, henter]; rfl,
      accepted_proceeds h hd (Option.isNone_iff_eq_none.mp henabled) ?_⟩
    exact ⟨freelists, life, henter, .refl _ life⟩
  | socks5HandshakeHandler c answers chunk ec =>
    obtain ⟨b, hb, hready⟩ := (Option.any_eq_true _ _).mp henabled
    rw [arrivals_snoc_of_none fun _ => rfl]
    exact socks5HandshakeHandler_proceeds h hd hb (Bool.and_eq_true_iff.mp hready).1
  | connectHandler c answers ec =>
    obtain ⟨b, hb, hconnecting⟩ := (Option.any_eq_true _ _).mp henabled
    rw [arrivals_snoc_of_none fun _ => rfl]
    exact connectHandler_proceeds h hd hb hconnecting answers ec
  | arrive port sock =>
    refine ⟨_, rfl, ⟨h.sound, h.queued, h.nodup⟩, ⟨fun port' => ?_, hd.once, hd.holder, hd.held⟩,
      Evolves.refl s⟩
    have harrived := hd.arrivals port'
    by_cases heq : port' = port
    · subst heq
      simp only [arrivals, List.filterMap_append] at harrived ⊢
      rw [harrived, Function.update_self, List.append_assoc]
      simp [takenAt, SessionAction.arrival?]
    · simp only [arrivals, List.filterMap_append] at harrived ⊢
      rw [harrived, Function.update_of_ne heq]
      simp [takenAt, SessionAction.arrival?, Ne.symm heq]
  | accept port =>
    obtain ⟨hqueue, hbacklog⟩ := Bool.and_eq_true_iff.mp henabled
    obtain ⟨c, rest, hqueue⟩ := exists_cons_of_not_isEmpty hqueue
    obtain ⟨sock, socks, hbacklog⟩ := exists_cons_of_not_isEmpty hbacklog
    rw [arrivals_snoc_of_none fun _ => rfl]
    exact accept_proceeds h hd hqueue hbacklog
  | acceptFailure port ec =>
    obtain ⟨c, rest, hqueue⟩ := exists_cons_of_not_isEmpty henabled
    rw [arrivals_snoc_of_none fun _ => rfl]
    exact acceptFailure_proceeds h hd hqueue ec
  | clientReady c ec =>
    obtain ⟨b, hb, hwait⟩ := (Option.any_eq_true _ _).mp henabled
    have hsound := h.sound c b hb
    have hbound := hsound.bound_of_wait (by rw [of_decide_eq_true hwait]; rintro ⟨⟩)
    rw [arrivals_snoc_of_none fun _ => rfl]
    refine ⟨s.put c { b with wait := .completed (.ready ec) },
      by simp only [step, handle, hb, Option.bind_eq_bind, Option.bind_some],
      put_proceeds h hd hb ?_ ⟨fun _ => Iff.rfl, rfl, fun _ => Iff.rfl⟩⟩
    exact hsound.waited hbound (by rintro ⟨⟩) (by rintro ⟨⟩) (by rintro _ _ ⟨⟩)
  | acceptHandler c answers =>
    obtain ⟨b, hb, haccept⟩ := (Option.any_eq_true _ _).mp henabled
    obtain ⟨result, hresult⟩ : ∃ result, b.accept = .completed result := by
      cases hcase : b.accept with
      | completed result => exact ⟨result, rfl⟩
      | idle => rw [hcase] at haccept; cases haccept
      | outstanding port => rw [hcase] at haccept; cases haccept
    obtain ⟨b', hrun, hsound', hkeeps⟩ :=
      ServedBridge.acceptHandler_sound (h.sound c b hb) answers hresult
    rw [arrivals_snoc_of_none fun _ => rfl]
    exact ⟨s.put c b', by simp only [step, handle, hb, hrun, Option.bind_eq_bind, Option.bind_some],
      put_proceeds h hd hb hsound' hkeeps⟩
  | waitHandler c =>
    obtain ⟨b, hb, hwait⟩ := (Option.any_eq_true _ _).mp henabled
    obtain ⟨result, hresult⟩ : ∃ result, b.wait = .completed result := by
      cases hcase : b.wait with
      | completed result => exact ⟨result, rfl⟩
      | idle => rw [hcase] at hwait; cases hwait
      | outstanding => rw [hcase] at hwait; cases hwait
    rw [arrivals_snoc_of_none fun _ => rfl]
    exact waitHandler_proceeds h hd hb hresult
  | forward c action =>
    obtain ⟨b, hb, hforward⟩ := (Option.any_eq_true _ _).mp henabled
    rw [arrivals_snoc_of_none fun _ => rfl]
    exact forward_proceeds h hd hb hforward

theorem run_ordered {actions : List (SessionAction ι γ)}
    (h : system.schedulable ({} : ProxySessions ι γ) actions = true) :
    ∃ s, system.run {} actions = some s ∧ s.Waits ∧ s.Delivered (arrivals actions) := by
  refine system.run_invariant_of_past
    (fun past (s : ProxySessions ι γ) => s.Waits ∧ s.Delivered (arrivals past)) ?_
    (List.nil_append actions).symm ⟨?_, ?_⟩ h
  · rintro past s a - - ⟨hwaits, hdelivered⟩ henabled
    obtain ⟨s', hstep, hproceeds⟩ := step_proceeds hwaits hdelivered a henabled
    exact ⟨s', hstep, hproceeds.waits, hproceeds.delivered⟩
  · exact ⟨by rintro c b ⟨⟩, fun port c => iff_of_false (by rintro ⟨⟩) (by rintro ⟨b, ⟨⟩, -⟩),
      fun port => List.nodup_nil⟩
  · exact ⟨fun _ => rfl, List.nodup_nil, by rintro t ⟨⟩, by rintro c b sock ⟨⟩⟩

/-- What has become of a connection that was given to a session. -/
inductive Fate (b : ServedBridge γ) (sock : γ) : Prop
  | arriving (haccept : b.accept = .completed (.ok sock))
  | forwarded (hdest : b.destSock = some sock) (hforwarding : b.life.Forwarding)
  | dropped (hdest : b.destSock = some sock) (hdropped : b.life.Dropped)

/-- Whatever the clients and their peers do, and in whatever order operations complete, no step
fails. The connections that arrive at a port are taken in that order, and by different sessions
that were bound to it. Each of them is about to be handled, or is forwarded, or came to a session
whose handshake had failed and is dropped with it. A session forwards between its client and a
connection that has come to its own port. -/
theorem inbound_connections_exclusive (actions : List (SessionAction ι γ))
    (h : system.schedulable ({} : ProxySessions ι γ) actions = true) :
    ∃ s, system.run {} actions = some s ∧
      (∀ port, arrivals actions port = s.takenAt port ++ s.backlog port) ∧
      (s.taken.map Taken.session).Nodup ∧
      (∀ t ∈ s.taken, ∃ b, s.session t.session = some b ∧ b.bound = some t.port ∧
        Fate b t.sock) ∧
      ∀ c b sock, s.session c = some b → b.destSock = some sock →
        ∃ port, b.bound = some port ∧ ⟨port, c, sock⟩ ∈ s.taken := by
  obtain ⟨s, hrun, hwaits, hdelivered⟩ := run_ordered h
  refine ⟨s, hrun, hdelivered.arrivals, hdelivered.once, fun t ht => ?_,
    fun c b sock hb hdest => ?_⟩
  · obtain ⟨b, hb, hport, haccept | hdest⟩ := hdelivered.holder t ht
    · exact ⟨b, hb, hport, .arriving haccept⟩
    · have hne : b.destSock ≠ none := by rw [hdest]; rintro ⟨⟩
      rcases (hwaits.sound t.session b hb).connected hne with hforwarding | hdropped
      · exact ⟨b, hb, hport, .forwarded hdest hforwarding⟩
      · exact ⟨b, hb, hport, .dropped hdest hdropped⟩
  · obtain ⟨t, ht, rfl, rfl⟩ := hdelivered.held c b sock hb (.inr hdest)
    obtain ⟨b', hb', hport, -⟩ := hdelivered.holder t ht
    obtain rfl : b = b' := Option.some_injective _ (hb.symm.trans hb')
    exact ⟨t.port, hport, ht⟩

def demoAcceptors : SocketAnswers :=
  { BridgeLife.demoAnswers with getAcceptor := fun port => (true, port) }

def demoBindRequest : List UInt8 :=
  [0x05, 0x01, 0x00, 0x05, 0x02, 0x00, 0x01, 0x00, 0x00, 0x00, 0x00, 0x1f, 0x90]

/-- Two sessions wait at one port, and the client of the first one leaves. -/
def demoBefore : List (SessionAction Bool ℕ) :=
  [.accepted false (fun _ => BufferUser.demoFreelist),
    .accepted true (fun _ => BufferUser.demoFreelist),
    .socks5HandshakeHandler false demoAcceptors demoBindRequest none,
    .socks5HandshakeHandler true demoAcceptors demoBindRequest none,
    .clientReady false none]

def demoAfter : List (SessionAction Bool ℕ) :=
  [.acceptHandler false demoAcceptors, .arrive 8080 7, .accept 8080,
    .acceptHandler true demoAcceptors, .waitHandler true,
    .forward true (.receive .upstream 0 [1, 2, 3] none)]

theorem demo_inbound_connections_exclusive :
    ∃ s, system.run {} (demoBefore ++ .waitHandler false :: demoAfter) = some s ∧
      [7] = s.takenAt 8080 ++ s.backlog 8080 ∧ (s.taken.map Taken.session).Nodup ∧
      ∃ b, s.session true = some b ∧ b.bound = some 8080 ∧ Fate b 7 := by
  have htaken : (system.run {} (demoBefore ++ .waitHandler false :: demoAfter)).map
      (fun s => s.taken) = some [⟨8080, true, 7⟩] := by
    decide +kernel
  obtain ⟨s, hrun, harrivals, honce, hfate, -⟩ := inbound_connections_exclusive
    (demoBefore ++ .waitHandler false :: demoAfter) (by decide +kernel)
  rw [hrun, Option.map_some, Option.some_inj] at htaken
  obtain ⟨b, hb, hbound, hsock⟩ :=
    hfate ⟨8080, true, 7⟩ (by rw [htaken]; exact List.mem_singleton_self _)
  exact ⟨s, hrun, harrivals 8080, honce, b, hb, hbound, hsock⟩

/-- In every order of events, a session that waits at a port also watches its client, whose wait
is not called off before, and one that does not wait does not watch it; each session behaves as a
bridge on its own, and calling off a wait never aborts a read or a write. -/
theorem waits_and_watches (actions : List (SessionAction ι γ))
    (h : system.schedulable ({} : ProxySessions ι γ) actions = true) :
    ∃ s, system.run {} actions = some s ∧ ∀ c b, s.session c = some b →
      b.life.Lives ∧ (∀ op ∈ b.canceled, op = .wait) ∧
      (∀ port, c ∈ s.queue port → b.wait = .outstanding ∨ ∃ ec, b.wait = .completed (.ready ec)) ∧
      (b.wait = .outstanding → b.accept ≠ .idle) := by
  obtain ⟨s, hrun, hwaits, -⟩ := run_ordered h
  refine ⟨s, hrun, fun c b hb => ?_⟩
  have hsound := hwaits.sound c b hb
  refine ⟨hsound.lives, hsound.spared, fun port hmem => ?_, fun hwait hidle => ?_⟩
  · have hport := hwaits.outstanding_of_mem hb hmem
    have hnotIdle := (hsound.watched port hport).2
    have hnotCanceled := (hsound.waiting (by rw [hport]; rintro ⟨⟩)).2.2
    cases hwait : b.wait with
    | idle => exact absurd hwait hnotIdle
    | outstanding => exact .inl rfl
    | completed result =>
      cases result with
      | canceled => exact absurd hwait hnotCanceled
      | ready ec => exact .inr ⟨ec, rfl⟩
  · exact hsound.calledOff hidle hwait

/-- The wait of the second session is called off when it gets a connection. -/
theorem demo_waits_and_watches :
    ∃ s b, system.run {} (demoBefore ++ .waitHandler false :: demoAfter) = some s ∧
      s.session true = some b ∧ b.life.Lives ∧ b.canceled = [.wait] := by
  have hcanceled : ((system.run {} (demoBefore ++ .waitHandler false :: demoAfter)).bind
      (fun s => s.session true)).map ServedBridge.canceled = some [.wait] := by
    decide +kernel
  obtain ⟨s, hrun, hall⟩ := waits_and_watches (demoBefore ++ .waitHandler false :: demoAfter)
    (by decide +kernel)
  rw [hrun, Option.bind_some] at hcanceled
  obtain ⟨b, hb, hb'⟩ := Option.map_eq_some_iff.mp hcanceled
  exact ⟨s, b, hrun, hb, (hall true b hb).1, hb'⟩

/-- When the handler has seen that the client is gone, the accept is not outstanding any more. -/
theorem waitHandler_session {s' : ProxySessions ι γ} (hsound : b.Sound)
    (hb : s.session c = some b) {ec : Option ErrorCode} (hwait : b.wait = .completed (.ready ec))
    (hrun : s.waitHandler c = some s') :
    ∃ b', s'.session c = some b' ∧ b'.bound = b.bound ∧ (∀ port, b'.accept ≠ .outstanding port) ∧
      ∀ sock, b'.Holds sock ↔ b.Holds sock := by
  simp only [waitHandler, hb, hwait, Option.bind_eq_bind, Option.bind_some,
    Option.some.injEq] at hrun
  subst hrun
  by_cases hout : ∃ port, b.accept = .outstanding port
  · obtain ⟨port, haccept⟩ := hout
    rw [emitCancel_of_outstanding (b := { b with wait := .idle }) haccept]
    exact ⟨_, Function.update_self .., rfl,
      fun _ => ServedBridge.not_outstanding_of_completed rfl,
      holds_completed_error hsound haccept operationAborted⟩
  · rw [emitCancel_of_not (b := { b with wait := .idle }) (not_exists.mp hout)]
    exact ⟨_, Function.update_self .., rfl, not_exists.mp hout, fun _ => Iff.rfl⟩

/-- After a session has seen that its client is gone, it takes no connection, whatever comes, if
none was accepted for it before. -/
theorem gone_client_takes_nothing (before after : List (SessionAction ι γ)) (c : ι)
    (h : system.schedulable ({} : ProxySessions ι γ) (before ++ .waitHandler c :: after) = true)
    (s₁ : ProxySessions ι γ) (hbefore : system.run {} before = some s₁) (b : ServedBridge γ)
    (hb : s₁.session c = some b) (ec : Option ErrorCode)
    (hwait : b.wait = .completed (.ready ec)) (hfree : ∀ sock, ¬ b.Holds sock) :
    ∃ s, system.run {} (before ++ .waitHandler c :: after) = some s ∧
      (∀ t ∈ s.taken, t.session ≠ c) ∧ ∀ port, c ∉ s.queue port := by
  obtain ⟨hpast, hrest⟩ := system.schedulable_append h
  obtain ⟨s₀, hrun₀, hwaits, hdelivered⟩ := run_ordered hpast
  obtain rfl : s₀ = s₁ := Option.some_injective _ (hrun₀.symm.trans hbefore)
  have hsound := hwaits.sound c b hb
  have hlast := hrest s₀ hbefore
  rw [GuardedSystem.schedulable, Bool.and_eq_true] at hlast
  obtain ⟨s₂, hstep, hproceeds⟩ := step_proceeds hwaits hdelivered (.waitHandler c) hlast.1
  obtain ⟨b₂, hb₂, hbound₂, hnot, hholds⟩ := waitHandler_session hsound hb hwait hstep
  have hbound : b₂.bound ≠ none := by
    rw [hbound₂]
    exact hsound.bound_of_wait (by rw [hwait]; rintro ⟨⟩)
  have hafter : system.schedulable s₂ after = true := by
    have hall := hlast.2
    rw [show system.step s₀ (.waitHandler c) = some s₂ from hstep] at hall
    exact hall
  have hkeeps : ∀ past (s : ProxySessions ι γ) a rest,
      before ++ .waitHandler c :: after = past ++ a :: rest →
      s.Waits ∧ s.Delivered (arrivals past) ∧ s₂.Evolves s → system.enabled s a = true →
      ∃ s', system.step s a = some s' ∧ s'.Waits ∧ s'.Delivered (arrivals (past ++ [a])) ∧
        s₂.Evolves s' := by
    rintro past s a rest - ⟨hw, hd, he⟩ henabled
    obtain ⟨s', hstep', hproceeds'⟩ := step_proceeds hw hd a henabled
    exact ⟨s', hstep', hproceeds'.waits, hproceeds'.delivered, he.trans hproceeds'.evolves⟩
  have hall : before ++ .waitHandler c :: after = before ++ [.waitHandler c] ++ after := by simp
  -- From here on the session of the client only follows what it is now.
  obtain ⟨s, hrun, hwaits', hdelivered', hevolves⟩ := system.run_invariant_of_past
    (fun past s => s.Waits ∧ s.Delivered (arrivals past) ∧ s₂.Evolves s) hkeeps hall
    ⟨hproceeds.waits, hproceeds.delivered, Evolves.refl s₂⟩ hafter
  refine ⟨s, ?_, ?_⟩
  · rw [GuardedSystem.run_append, hbefore, Option.bind_some, GuardedSystem.run,
      show system.step s₀ (.waitHandler c) = some s₂ from hstep, Option.bind_some, hrun]
  obtain ⟨b', hb', hfollows⟩ := hevolves c b₂ hb₂
  constructor
  · rintro t ht rfl
    obtain ⟨b₃, hb₃, -, hheld⟩ := hdelivered'.holder t ht
    obtain rfl : b' = b₃ := Option.some_injective _ (hb'.symm.trans hb₃)
    exact hfree t.sock ((hholds _).mp ((hfollows.holds hbound hnot _).mp hheld))
  · intro port hmem
    exact hfollows.outstanding hbound hnot port (hwaits'.outstanding_of_mem hb' hmem)

theorem demo_gone_client_takes_nothing :
    ∃ s, system.run {} (demoBefore ++ .waitHandler false :: demoAfter) = some s ∧
      (∀ t ∈ s.taken, t.session ≠ false) ∧ ∀ port, false ∉ s.queue port := by
  have hleft : (system.run {} demoBefore).bind (fun s => (s.session false).map (fun b =>
      (b.wait, b.accept, b.destSock))) =
        some (.completed (.ready none), .outstanding 8080, none) := by
    decide +kernel
  obtain ⟨s₁, hbefore, hsession⟩ := Option.bind_eq_some_iff.mp hleft
  obtain ⟨b, hb, hstate⟩ := Option.map_eq_some_iff.mp hsession
  obtain ⟨hwait, haccept, hdest⟩ : b.wait = .completed (.ready none) ∧
      b.accept = .outstanding 8080 ∧ b.destSock = none := by simpa using hstate
  refine gone_client_takes_nothing demoBefore demoAfter false (by decide +kernel) s₁ hbefore b hb
    none hwait fun sock hholds => ?_
  rw [ServedBridge.Holds, haccept, hdest] at hholds
  rcases hholds with hholds | hholds <;> cases hholds

end ProxySessions
end PublicEndorsement.Proxy
