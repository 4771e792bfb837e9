import PublicEndorsement.BridgeScheduling

/-!
# Forwarding runs

Whatever the order of completions and handlers, both directions keep their invariants:
each byte goes through in order, no direction stalls, and one that has come to rest has
delivered everything and shut its far socket down, or met a failed write.
-/

namespace PublicEndorsement.Proxy

open BufferUser (demoFreelist)

namespace ProxyBridge

variable {p : ProxyBridge} {initial : Direction → List UInt8} {d : Direction}

def Good (initial : Direction → List UInt8) (p : ProxyBridge) : Prop :=
  ∀ d, (p.flow d).Good (initial d)

def Settled (initial : Direction → List UInt8) (p : ProxyBridge) : Prop :=
  ∀ d, (p.flow d).Settled (initial d)

theorem Settled.good (h : p.Settled initial) : p.Good initial := fun d => (h d).good

theorem modify_eq {act : Flow → Option Flow} {f : Flow} (h : act (p.flow d) = some f) :
    p.modify d act = some ⟨Function.update p.flow d f⟩ := by
  rw [modify, h]
  rfl

/-- A property of all directions, after one of them changed. -/
theorem forall_update {P : Direction → Flow → Prop} (h : ∀ d, P d (p.flow d)) {f : Flow}
    (hf : P d f) : ∀ d', P d' (Function.update p.flow d f d') := by
  intro d'
  by_cases hd : d' = d
  · subst hd
    rwa [Function.update_self]
  · rw [Function.update_of_ne hd]
    exact h d'

theorem forwardTraffic_spec (h : p.Good initial) :
    ∃ p', p.forwardTraffic = some p' ∧ p'.Settled initial := by
  obtain ⟨u₁, hu₁, hgood₁, hread₁, -⟩ := (h .upstream).scheduleRead
  obtain ⟨u₂, hu₂, hgood₂, hwrite₂, hkeep₂⟩ := hgood₁.scheduleWrite
  obtain ⟨v₁, hv₁, hgood₃, hwrite₃, -⟩ := (h .downstream).scheduleWrite
  obtain ⟨v₂, hv₂, hgood₄, hread₄, hkeep₄⟩ := hgood₃.scheduleRead
  refine ⟨⟨Function.update (Function.update p.flow .upstream u₂) .downstream v₂⟩, ?_, ?_⟩
  · have hne : Direction.downstream ≠ .upstream := by decide
    simp [forwardTraffic, modify, hu₁, hu₂, hv₁, hv₂, Function.update_comm hne]
  · intro d
    cases d with
    | upstream => exact ⟨hgood₂, hwrite₂, hkeep₂ hread₁⟩
    | downstream => exact ⟨hgood₄, hkeep₄ hwrite₃, hread₄⟩

/-- A completed operation is taken off, its handler changes the direction, and
`ForwardTraffic` follows. -/
theorem handler_spec {act : Flow → Option Flow} {f₁ f : Flow} (h : p.Good initial)
    (hact : act f₁ = some f) (hf : f.Good (initial d)) :
    ∃ p', (modify d act ⟨Function.update p.flow d f₁⟩).bind forwardTraffic = some p' ∧
      p'.Settled initial := by
  have hmodify : modify d act ⟨Function.update p.flow d f₁⟩ =
      some ⟨Function.update p.flow d f⟩ := by
    simp [modify, hact]
  rw [hmodify, Option.bind_some]
  exact forwardTraffic_spec (forall_update (P := fun d f => f.Good (initial d)) h hf)

theorem boundReadHandler_eq (d : Direction) (ec : Option ErrorCode) (n : ℕ) (p : ProxyBridge) :
    boundReadHandler d ec n p = (p.modify d (Flow.readHandler ec n)).bind forwardTraffic := by
  cases d <;> rfl

theorem boundWriteHandler_eq (d : Direction) (ec : Option ErrorCode) (n : ℕ) (p : ProxyBridge) :
    boundWriteHandler d ec n p = (p.modify d (Flow.writeHandler ec n)).bind forwardTraffic := by
  cases d <;> rfl

/-- Nothing that can happen to a settled bridge makes it fail or unsettles it. -/
theorem step_settled (a : BridgeAction) (h : p.Settled initial) (henabled : p.enabled a = true) :
    ∃ p', p.step a = some p' ∧ p'.Settled initial := by
  cases a with
  | receive d i bytes ec =>
    obtain ⟨op, hop, hallowed⟩ := (Option.any_eq_true _ _).mp henabled
    rw [Bool.and_eq_true, Option.isNone_iff_eq_none, decide_eq_true_eq] at hallowed
    obtain ⟨f, hrun, hf⟩ := (h d).receive ec hop hallowed.1 hallowed.2
    exact ⟨_, modify_eq hrun, forall_update (P := fun d f => f.Settled (initial d)) h hf⟩
  | send d i n ec =>
    obtain ⟨op, hop, hallowed⟩ := (Option.any_eq_true _ _).mp henabled
    rw [Bool.and_eq_true, Option.isNone_iff_eq_none, decide_eq_true_eq] at hallowed
    obtain ⟨f, hrun, hf⟩ := (h d).send ec hop hallowed.1 hallowed.2
    exact ⟨_, modify_eq hrun, forall_update (P := fun d f => f.Settled (initial d)) h hf⟩
  | readHandler d i =>
    obtain ⟨op, hop, hsome⟩ := (Option.any_eq_true _ _).mp henabled
    obtain ⟨⟨ec, n⟩, hdone⟩ := Option.isSome_iff_exists.mp hsome
    obtain ⟨f, hrun, hf⟩ := (h d).good.readHandler hop hdone
    obtain ⟨p', hp', hsettled⟩ := handler_spec h.good hrun hf
    refine ⟨p', ?_, hsettled⟩
    rw [← hp', ← boundReadHandler_eq]
    simp [step, hop, hdone, modify]
  | writeHandler d i =>
    obtain ⟨op, hop, hsome⟩ := (Option.any_eq_true _ _).mp henabled
    obtain ⟨⟨ec, n⟩, hdone⟩ := Option.isSome_iff_exists.mp hsome
    obtain ⟨f, hrun, hf⟩ := (h d).good.writeHandler hop hdone
    obtain ⟨p', hp', hsettled⟩ := handler_spec h.good hrun hf
    refine ⟨p', ?_, hsettled⟩
    rw [← hp', ← boundWriteHandler_eq]
    simp [step, hop, hdone, modify]

theorem connected_good (buffers : Direction → QuietBuffer) :
    (connected buffers).Good (fun d => (buffers d).buffer.contents) := by
  intro d
  obtain ⟨freelist, calls, results, hdisciplined, hrun⟩ := (buffers d).reached
  obtain ⟨results', u, hrun', ⟨data, space, hrep⟩, -, -⟩ :=
    BufferUser.run_spec (BufferUser.wellformed_create freelist) hdisciplined
  have hu : u = ⟨(buffers d).buffer, none, none⟩ := by
    rw [hrun] at hrun'
    exact (Prod.ext_iff.mp (Option.some.inj hrun')).2.symm
  subst hu
  exact .start hrep

theorem forward_settled (buffers : Direction → QuietBuffer) (actions : List BridgeAction)
    (h : possible buffers actions = true) :
    ∃ p, forward buffers actions = some p ∧
      p.Settled (fun d => (buffers d).buffer.contents) := by
  obtain ⟨p₀, hstart, hsettled⟩ := forwardTraffic_spec (connected_good buffers)
  rw [possible, hstart, Option.all_some] at h
  rw [forward, hstart, Option.bind_some]
  exact system.run_invariant (fun p a hp ha => step_settled a hp ha) hsettled h

/-- However the sockets complete their operations, what was written to the far socket,
and after it what is buffered, is what the handshake left and the source sent. No
operation is started while another one of its kind is outstanding on the socket, and no
assertion of the buffers fails. -/
theorem forwards_in_order (buffers : Direction → QuietBuffer) (actions : List BridgeAction)
    (h : possible buffers actions = true) :
    ∃ p, forward buffers actions = some p ∧ ∀ d,
      (p.flow d).sent <+: (buffers d).buffer.contents ++ (p.flow d).received ∧
      (p.flow d).Streams (buffers d).buffer.contents ∧
      ((∀ op ∈ (p.flow d).reads ++ (p.flow d).writes, op.completion = none) →
        (buffers d).buffer.contents ++ (p.flow d).received =
          (p.flow d).sent ++ (p.flow d).buff.contents) ∧
      (p.flow d).reads.length ≤ 1 ∧ (p.flow d).writes.length ≤ 1 := by
  obtain ⟨p, hrun, hsettled⟩ := forward_settled buffers actions h
  refine ⟨p, hrun, fun d => ?_⟩
  obtain ⟨r, w, hcarries, -⟩ := (hsettled d).good
  exact ⟨hcarries.sent_isPrefix, hcarries.streams, hcarries.streams_of_open,
    hcarries.reads ▸ Option.length_toList_le, hcarries.writes ▸ Option.length_toList_le⟩

def demoUser : BufferUser defaultBlockSize :=
  (((BufferUser.create defaultBlockSize demoFreelist).run [.copyIn [9]]).map Prod.snd).getD
    (BufferUser.create defaultBlockSize demoFreelist)

theorem demoUser_quiet : ∃ freelist calls results,
    (BufferUser.create defaultBlockSize freelist).disciplined calls = true ∧
    (BufferUser.create defaultBlockSize freelist).run calls =
      some (results, ⟨demoUser.buffer, none, none⟩) :=
  ⟨demoFreelist, [.copyIn [9]], [{}], by decide +kernel, by rfl⟩

theorem create_quiet : ∃ freelist calls results,
    (BufferUser.create defaultBlockSize freelist).disciplined calls = true ∧
    (BufferUser.create defaultBlockSize freelist).run calls =
      some (results, ⟨.create defaultBlockSize demoFreelist, none, none⟩) :=
  ⟨demoFreelist, [], [], rfl, rfl⟩

def demoBuffers : Direction → QuietBuffer
  | .upstream => ⟨demoUser.buffer, demoUser_quiet⟩
  | .downstream => ⟨.create defaultBlockSize demoFreelist, create_quiet⟩

/-- The client ends while a partial write is under way; the destination ends last. -/
def demoActions : List BridgeAction :=
  [.receive .upstream 0 [1, 2] none, .readHandler .upstream 0, .send .upstream 0 1 none,
    .receive .upstream 0 [] (some .eof), .readHandler .upstream 0, .writeHandler .upstream 0,
    .send .upstream 0 2 none, .writeHandler .upstream 0,
    .receive .downstream 0 [] (some .eof), .readHandler .downstream 0]

theorem demo_forwards_in_order : ∃ p, forward demoBuffers demoActions = some p ∧
    (p.flow .upstream).sent <+:
      (demoBuffers .upstream).buffer.contents ++ (p.flow .upstream).received := by
  obtain ⟨p, hrun, hflow⟩ := forwards_in_order demoBuffers demoActions (by decide +kernel)
  exact ⟨p, hrun, (hflow .upstream).1⟩

/-- A direction with data it may write has a write outstanding, and one with room it may
fill has a read outstanding. The far socket is shut down when the source has ended and
the buffer is empty, then and only then, and is offered nothing afterwards. Hence a
bridge at rest has, in each direction, delivered everything and shut the far socket
down, or met a failed write. -/
theorem half_close_propagated (buffers : Direction → QuietBuffer) (actions : List BridgeAction)
    (h : possible buffers actions = true) :
    ∃ p, forward buffers actions = some p ∧
      (∀ d,
        ((p.flow d).buff.contents ≠ [] → (p.flow d).writable = true → (p.flow d).writes ≠ []) ∧
        ((p.flow d).readable = true → (p.flow d).writable = true →
          (p.flow d).buff.dataSize < kMaxBufferSize → (p.flow d).reads ≠ []) ∧
        (∀ readable buffered, .shutdownSend readable buffered ∈ (p.flow d).history →
          readable = false ∧ buffered = 0) ∧
        (p.flow d).history.Pairwise FlowEvent.MayPrecede ∧
        ((p.flow d).readable = false → (p.flow d).buff.contents = [] →
          (p.flow d).shutDown = true)) ∧
      ((∀ d, (p.flow d).reads = [] ∧ (p.flow d).writes = []) → ∀ d,
        ((p.flow d).sent = (buffers d).buffer.contents ++ (p.flow d).received ∧
          (p.flow d).shutDown = true) ∨ (p.flow d).writeFailed = true) := by
  obtain ⟨p, hrun, hsettled⟩ := forward_settled buffers actions h
  refine ⟨p, hrun, fun d => ?_, fun hidle d => (hsettled d).at_rest (hidle d).1 (hidle d).2⟩
  obtain ⟨r, w, hcarries, hcloses⟩ := (hsettled d).good
  refine ⟨?_, (hsettled d).readPending, ?_, hcloses.last, ?_⟩
  · intro hdata hwritable
    refine (hsettled d).writePending hwritable (Nat.pos_of_ne_zero ?_)
    exact fun hempty => hdata (hcarries.contents_eq_nil.mpr hempty)
  · intro readable buffered hmem
    exact hcloses.proper _ hmem readable buffered rfl
  · intro hended hempty
    exact hcloses.closed.mpr ⟨hended, hcarries.contents_eq_nil.mp hempty⟩

theorem demo_half_close_propagated : ∃ p, forward demoBuffers demoActions = some p ∧
    ((∀ d, (p.flow d).reads = [] ∧ (p.flow d).writes = []) →
      (p.flow .upstream).sent =
          (demoBuffers .upstream).buffer.contents ++ (p.flow .upstream).received ∧
        (p.flow .upstream).shutDown = true ∨ (p.flow .upstream).writeFailed = true) := by
  obtain ⟨p, hrun, -, hrest⟩ := half_close_propagated demoBuffers demoActions (by decide +kernel)
  exact ⟨p, hrun, fun hidle => hrest hidle .upstream⟩

example : (forward demoBuffers demoActions).map (fun p => ((p.flow .upstream).sent,
    (p.flow .upstream).shutDown, (p.flow .upstream).reads.length, (p.flow .upstream).writes.length,
    (p.flow .downstream).shutDown)) = some ([9, 1, 2], true, 0, 0, true) := by
  decide +kernel

end ProxyBridge
end PublicEndorsement.Proxy
