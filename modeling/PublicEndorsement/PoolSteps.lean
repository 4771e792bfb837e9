import PublicEndorsement.ClientSessionPool

/-!
# What a handler of the pool can do

Each handler works on the socket and the buffer of its own index, and starts at most one
more operation on that socket; only the last socket may bring another one with it.
-/

namespace PublicEndorsement.Proxy.ClientSessionPool

variable {p p' : ClientSessionPool} {k : ℕ}

/-- The operations that the handler of socket `k` starts. -/
inductive Awaits (k : ℕ) (p p' : ClientSessionPool) : Prop
  | nothing (hpending : p'.pending = p.pending) (hsockets : p'.sockets = p.sockets)
  | again (handler : PoolHandler) (hpending : p'.pending = p.pending ++ [⟨handler, k⟩])
    (hsockets : p'.sockets = p.sockets)
  | grown (hpending : p'.pending = p.pending ++ [⟨.handle2ndResp, k⟩, ⟨.handleConnect, k + 1⟩])
    (hsockets : p'.sockets = p.sockets + 1) (hlast : k = p.sockets - 1)
    (hroom : p.sockets < p.capacity)

structure Effect (k : ℕ) (p p' : ClientSessionPool) : Prop where
  capacity : p'.capacity = p.capacity
  request : p'.proxyBindRequest = p.proxyBindRequest
  toProxy : p'.toProxy = p.toProxy ∨ p'.toProxy = p.toProxy ++ [p.proxyBindRequest]
  buffers : p'.buffers.length = p.buffers.length
  others : ∀ j ≠ k, p'.buf j = p.buf j
  runs : ∃ new, new ≠ [] ∧ p'.runs = p.runs ++ new ∧
    ∀ run ∈ new, run.index = k ∧ run.poolSize = p.sockets ∧ run.buffersSize = p.buffers.length
  awaits : Awaits k p p'

@[simp] theorem length_fill (k : ℕ) (bytes : List UInt8) (p : ClientSessionPool) :
    (p.fill k bytes).buffers.length = p.buffers.length :=
  List.length_set

theorem buf_fill_of_ne {j : ℕ} (hne : j ≠ k) (bytes : List UInt8) (p : ClientSessionPool) :
    (p.fill k bytes).buf j = p.buf j := by
  have hset : (p.fill k bytes).buffers[j]? = p.buffers[j]? := List.getElem?_set_ne hne.symm
  rw [buf, buf, List.getD_eq_getElem?_getD, List.getD_eq_getElem?_getD, hset]

theorem buf_fill_self (hk : k < p.buffers.length) (bytes : List UInt8) :
    (p.fill k bytes).buf k = overwrite bytes (p.buf k) := by
  have hset : (p.fill k bytes).buffers[k]? = some (overwrite bytes (p.buf k)) :=
    List.getElem?_set_self hk
  rw [buf, List.getD_eq_getElem?_getD, hset, Option.getD_some]

theorem toList_overwrite {bytes : List UInt8} (hle : bytes.length ≤ 24) (buf : MicroBuffer) :
    (overwrite bytes buf).toList = bytes ++ buf.toList.drop bytes.length := by
  refine List.take_of_length_le ?_
  rw [List.length_append, List.length_drop, List.Vector.toList_length]
  omega

@[simp] theorem overwrite_toList (message buf : MicroBuffer) :
    overwrite message.toList buf = message := by
  have hlen := message.toList_length
  apply List.Vector.toList_injective
  rw [toList_overwrite hlen.le, hlen, List.drop_eq_nil_of_le buf.toList_length.le,
    List.append_nil]

namespace Effect

theorem enter (handler : PoolHandler) (k : ℕ) (p : ClientSessionPool) :
    Effect k p (p.enter handler k) where
  capacity := rfl
  request := rfl
  toProxy := .inl rfl
  buffers := rfl
  others _ _ := rfl
  runs := ⟨[_], by simp, rfl, by simp⟩
  awaits := .nothing rfl rfl

/-- A handler that goes on with one more operation on its socket. -/
theorem andAwait (h : Effect k p p') (hpending : p'.pending = p.pending)
    (hsockets : p'.sockets = p.sockets) (handler : PoolHandler) :
    Effect k p (p'.await handler k) where
  capacity := h.capacity
  request := h.request
  toProxy := h.toProxy
  buffers := h.buffers
  others := h.others
  runs := h.runs
  awaits := .again handler (by rw [await, hpending]) hsockets

/-- A handler that makes its socket anew. -/
theorem andInitiateSocket (h : Effect k p p') (hpending : p'.pending = p.pending)
    (hsockets : p'.sockets = p.sockets) : Effect k p (p'.initiateSocket k) := by
  obtain ⟨new, hne, hruns, hnew⟩ := h.runs
  rw [initiateSocket]
  refine andAwait ?_ ?_ ?_ .handleConnect
  · refine ⟨h.capacity, h.request, h.toProxy, h.buffers, h.others, ?_, .nothing hpending hsockets⟩
    refine ⟨new ++ [⟨.initiateSocket, k, p'.sockets, p'.buffers.length⟩], by simp, ?_, ?_⟩
    · rw [← List.append_assoc, ← hruns]
      rfl
    · intro run hrun
      rcases List.mem_append.mp hrun with hrun | hrun
      · exact hnew run hrun
      · rw [List.mem_singleton.mp hrun]
        exact ⟨rfl, hsockets, h.buffers⟩
  · exact hpending
  · exact hsockets

theorem retry (handler : PoolHandler) (k : ℕ) (p : ClientSessionPool) :
    Effect k p ((p.enter handler k).retry k) := by
  have h := enter handler k p
  exact andInitiateSocket
    ⟨h.capacity, h.request, h.toProxy, h.buffers, h.others, h.runs, .nothing rfl rfl⟩ rfl rfl

theorem handleConnect (k : ℕ) (ec writeError : Option ErrorCode) (p : ClientSessionPool) :
    Effect k p (p.handleConnect k ec writeError) := by
  have h := enter .handleConnect k p
  rw [ClientSessionPool.handleConnect]
  split_ifs
  · exact h
  · exact retry .handleConnect k p
  · exact retry .handleConnect k p
  · refine andAwait ?_ ?_ ?_ .handle1stResp
    · exact ⟨h.capacity, h.request, .inr rfl, h.buffers, h.others, h.runs, .nothing rfl rfl⟩
    · rfl
    · rfl

theorem handle1stResp (k : ℕ) (ec : Option ErrorCode) (p : ClientSessionPool) :
    Effect k p (p.handle1stResp k ec) := by
  have h := enter .handle1stResp k p
  rw [ClientSessionPool.handle1stResp]
  dsimp only
  split_ifs with hstop hec hrep hgrow
  · exact h
  · exact retry .handle1stResp k p
  · exact retry .handle1stResp k p
  · refine ⟨h.capacity, h.request, h.toProxy, h.buffers, h.others, h.runs, ?_⟩
    exact .grown (by simp [await, ClientSessionPool.enter]) rfl hgrow.1 hgrow.2
  · exact h.andAwait rfl rfl .handle2ndResp

theorem handle2ndResp (k bytesRead : ℕ) (ec : Option ErrorCode) (padding : Octets 2)
    (p : ClientSessionPool) : Effect k p (p.handle2ndResp k bytesRead ec padding) := by
  have h := enter .handle2ndResp k p
  rw [ClientSessionPool.handle2ndResp]
  split_ifs
  · exact h
  · exact retry .handle2ndResp k p
  · refine andAwait ?_ ?_ ?_ .handleSendFd
    · exact ⟨h.capacity, h.request, h.toProxy, length_fill _ _ _,
        fun j hj => buf_fill_of_ne hj _ _, h.runs, .nothing rfl rfl⟩
    · rfl
    · rfl

theorem handleSendFd (k : ℕ) (ec : Option ErrorCode) (sent : Bool) (p : ClientSessionPool) :
    Effect k p (p.handleSendFd k ec sent) := by
  have h := enter .handleSendFd k p
  rw [ClientSessionPool.handleSendFd]
  split_ifs
  · exact h
  · exact retry .handleSendFd k p
  · refine andInitiateSocket ?_ rfl rfl
    exact ⟨h.capacity, h.request, h.toProxy, h.buffers, h.others, h.runs, .nothing rfl rfl⟩
  · exact ⟨h.capacity, h.request, h.toProxy, h.buffers, h.others, h.runs, .nothing rfl rfl⟩

theorem pending_lt (h : Effect k p p') (hk : k < p.sockets)
    (hpending : ∀ op ∈ p.pending, op.index < p.sockets) :
    ∀ op ∈ p'.pending, op.index < p'.sockets := by
  intro op hop
  cases h.awaits with
  | nothing hsame hsockets =>
    rw [hsame] at hop
    rw [hsockets]
    exact hpending op hop
  | again handler hagain hsockets =>
    rw [hagain, List.mem_append, List.mem_singleton] at hop
    rw [hsockets]
    rcases hop with hop | rfl
    · exact hpending op hop
    · exact hk
  | grown hgrown hsockets hlast hroom =>
    simp only [hgrown, List.mem_append, List.mem_cons, List.not_mem_nil, or_false] at hop
    rw [hsockets]
    rcases hop with hop | rfl | rfl
    · exact (hpending op hop).trans (Nat.lt_succ_self _)
    · exact hk.trans (Nat.lt_succ_self _)
    · exact Nat.succ_lt_succ hk

/-- What has been read is part of it. -/
theorem afterRead {bytes : List UInt8} (h : Effect k (p.fill k bytes) p') : Effect k p p' where
  capacity := h.capacity
  request := h.request
  toProxy := h.toProxy
  buffers := h.buffers.trans (length_fill _ _ _)
  others j hj := (h.others j hj).trans (buf_fill_of_ne hj _ _)
  runs := by
    obtain ⟨new, hne, hruns, hnew⟩ := h.runs
    rw [length_fill] at hnew
    exact ⟨new, hne, hruns, hnew⟩
  awaits := match h.awaits with
    | .nothing hpending hsockets => .nothing hpending hsockets
    | .again handler hpending hsockets => .again handler hpending hsockets
    | .grown hpending hsockets hlast hroom => .grown hpending hsockets hlast hroom

end Effect

/-- An operation whose handler can take the completion is dispatched. -/
theorem exists_dispatch {op : PoolOp} {completion : Completion}
    (haccepts : accepts op.handler completion = true) (p : ClientSessionPool) :
    ∃ p', dispatch op completion p = some p' := by
  obtain ⟨handler, index⟩ := op
  cases handler <;> cases completion <;> simp only [accepts, Bool.false_eq_true] at haccepts <;>
    exact ⟨_, rfl⟩

theorem effect_of_dispatch {op : PoolOp} {completion : Completion}
    (h : dispatch op completion p = some p') : Effect op.index p p' := by
  obtain ⟨handler, index⟩ := op
  cases handler <;> cases completion <;> simp only [dispatch, reduceCtorEq] at h <;> cases h
  · exact .handleConnect index _ _ p
  · exact .afterRead (.handle1stResp index _ _)
  · exact .afterRead (.handle2ndResp index _ _ _ _)
  · exact .handleSendFd index _ _ p

/-- One step of the pool. -/
theorem step_cases {a : PoolAction} (h : system.step p a = some p') :
    (a = .clientError ∧ p' = { p with stop := true }) ∨
    ∃ i op completion, a = .complete i completion ∧ p.pending[i]? = some op ∧
      dispatch op completion { p with pending := p.pending.eraseIdx i } = some p' := by
  cases a with
  | clientError => exact .inl ⟨rfl, (Option.some_injective _ h).symm⟩
  | complete i completion =>
    obtain ⟨op, hop, hdispatch⟩ := Option.bind_eq_some_iff.mp h
    exact .inr ⟨i, op, completion, rfl, hop, hdispatch⟩

theorem exists_step {a : PoolAction} (h : system.enabled p a = true) :
    ∃ p', system.step p a = some p' := by
  cases a with
  | clientError => exact ⟨_, rfl⟩
  | complete i completion =>
    obtain ⟨op, hop, haccepts⟩ := (Option.any_eq_true _ _).mp h
    obtain ⟨p', hdispatch⟩ := exists_dispatch haccepts { p with pending := p.pending.eraseIdx i }
    exact ⟨p', Option.bind_eq_some_iff.mpr ⟨op, hop, hdispatch⟩⟩

end PublicEndorsement.Proxy.ClientSessionPool
