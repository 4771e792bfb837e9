import PublicEndorsement.BridgeStreams

/-!
# A direction closes when it has delivered everything

A direction is finished once its source has ended and its buffer is empty. `Closes`
says that the far socket is shut down exactly in that state, although the decision is
taken in two different handlers, and that nothing is written afterwards.
-/

namespace PublicEndorsement.Proxy

namespace FlowEvent

def isShutdownSend : FlowEvent → Bool
  | .shutdownSend _ _ => true
  | _ => false

def isAsyncWrite : FlowEvent → Bool
  | .asyncWriteSome _ => true
  | _ => false

def isWriteFailure : FlowEvent → Bool
  | .writeHandler (some _) => true
  | _ => false

/-- Nothing is offered to a socket that was shut down. -/
def MayPrecede (e later : FlowEvent) : Prop := e.isShutdownSend = true → later.isAsyncWrite = false

/-- A shutdown happens when the source has ended and nothing is buffered. -/
def Proper (e : FlowEvent) : Prop :=
  ∀ readable buffered, e = .shutdownSend readable buffered → readable = false ∧ buffered = 0

end FlowEvent

namespace Flow

variable {initial : List UInt8} {f g : Flow} {r w : Option AsyncOp}

def shutDown (f : Flow) : Bool := f.history.any FlowEvent.isShutdownSend

def writeFailed (f : Flow) : Bool := f.history.any FlowEvent.isWriteFailure

def Finished (f : Flow) : Prop := f.readable = false ∧ f.buff.dataSize = 0

structure Closes (f : Flow) : Prop where
  ended : f.readable = false → f.reads = []
  closed : f.shutDown = true ↔ f.Finished
  stopped : f.writable = false → f.writeFailed = true ∨ f.Finished
  proper : ∀ e ∈ f.history, e.Proper
  last : f.history.Pairwise FlowEvent.MayPrecede

def readEvents (ec : Option ErrorCode) (buffered : ℕ) : List FlowEvent :=
  .readHandler ec :: if ec.isSome ∧ buffered = 0 then [.shutdownSend false 0] else []

def writeEvents (ec : Option ErrorCode) (readable : Bool) (buffered : ℕ) : List FlowEvent :=
  .writeHandler ec :: (if ec.isSome then [.shutdownReceive] else []) ++
    if readable = false ∧ buffered = 0 then [.shutdownSend false 0] else []

theorem afterRead_eq (ec : Option ErrorCode) (f : Flow) :
    afterRead ec f = { f with
      readable := f.readable && ec.isNone
      history := f.history ++ readEvents ec f.buff.dataSize } := by
  cases ec with
  | none => simp [afterRead, record, readEvents]
  | some e =>
    by_cases hempty : f.buff.dataSize = 0
    · simp [afterRead, record, shutdownSend, readEvents, hempty]
    · simp [afterRead, record, readEvents, hempty]

theorem afterWrite_eq (ec : Option ErrorCode) (f : Flow) :
    afterWrite ec f = { f with
      writable := f.writable && ec.isNone && (f.readable || f.buff.dataSize != 0)
      history := f.history ++ writeEvents ec f.readable f.buff.dataSize } := by
  by_cases hdone : f.readable = false ∧ f.buff.dataSize = 0
  · cases ec with
    | none => simp [afterWrite, record, shutdownSend, writeEvents, hdone]
    | some e => simp [afterWrite, record, shutdownSend, writeEvents, hdone]
  · have hgoes : (f.readable || f.buff.dataSize != 0) = true := by
      rw [not_and_or] at hdone
      simpa using hdone
    cases ec with
    | none => simp [afterWrite, record, writeEvents, hdone, hgoes]
    | some e => simp [afterWrite, record, writeEvents, hdone]

theorem any_readEvents (ec : Option ErrorCode) (n : ℕ) :
    (readEvents ec n).any FlowEvent.isShutdownSend = true ↔ ec.isSome = true ∧ n = 0 := by
  unfold readEvents
  split_ifs with h <;> simp [FlowEvent.isShutdownSend, h]

theorem any_writeEvents (ec : Option ErrorCode) (readable : Bool) (n : ℕ) :
    (writeEvents ec readable n).any FlowEvent.isShutdownSend = true ↔
      readable = false ∧ n = 0 := by
  unfold writeEvents
  split_ifs with _ h h <;> simp [FlowEvent.isShutdownSend, h]

theorem readEvents_proper (ec : Option ErrorCode) (n : ℕ) : ∀ e ∈ readEvents ec n, e.Proper := by
  unfold readEvents
  split_ifs <;> simp [FlowEvent.Proper]

theorem writeEvents_proper (ec : Option ErrorCode) (readable : Bool) (n : ℕ) :
    ∀ e ∈ writeEvents ec readable n, e.Proper := by
  unfold writeEvents
  split_ifs <;> simp [FlowEvent.Proper]

theorem readEvents_pairwise (ec : Option ErrorCode) (n : ℕ) :
    (readEvents ec n).Pairwise FlowEvent.MayPrecede := by
  unfold readEvents
  split_ifs <;> simp [FlowEvent.MayPrecede, FlowEvent.isShutdownSend]

theorem writeEvents_pairwise (ec : Option ErrorCode) (readable : Bool) (n : ℕ) :
    (writeEvents ec readable n).Pairwise FlowEvent.MayPrecede := by
  unfold writeEvents
  split_ifs <;> simp [FlowEvent.MayPrecede, FlowEvent.isShutdownSend]

theorem writeFailed_mono {events : List FlowEvent} (h : g.history = f.history ++ events)
    (hfailed : f.writeFailed = true) : g.writeFailed = true := by
  rw [writeFailed, h, List.any_append, Bool.or_eq_true]
  exact .inl hfailed

theorem not_finished_of_readable (h : f.readable = true) : ¬ f.Finished := by
  intro hdone
  rw [hdone.1] at h
  exact Bool.false_ne_true h

theorem not_finished_of_data (h : 0 < f.buff.dataSize) : ¬ f.Finished := by
  intro hdone
  rw [hdone.2] at h
  exact lt_irrefl 0 h

theorem wantsRead_iff : f.wantsRead = true ↔
    f.reading = false ∧ f.readable = true ∧ f.writable = true ∧
      f.buff.dataSize < kMaxBufferSize := by
  simp [wantsRead, and_assoc]

theorem wantsWrite_iff : f.wantsWrite = true ↔
    f.writing = false ∧ f.writable = true ∧ 0 < f.buff.dataSize := by
  simp [wantsWrite, and_assoc]

namespace Closes

theorem shutDown_of_not_finished (h : f.Closes) (hopen : ¬ f.Finished) : f.shutDown = false :=
  Bool.eq_false_of_not_eq_true (fun hshut => hopen (h.closed.mp hshut))

/-- All that happens in a direction happens before it is shut down. -/
theorem extend (h : f.Closes) (hopen : ¬ f.Finished) (events : List FlowEvent)
    (hhistory : g.history = f.history ++ events)
    (hended : g.readable = false → g.reads = [])
    (hclosed : events.any FlowEvent.isShutdownSend = true ↔ g.Finished)
    (hstopped : g.writable = false → g.writeFailed = true ∨ g.Finished)
    (hproper : ∀ e ∈ events, e.Proper) (hlast : events.Pairwise FlowEvent.MayPrecede) :
    g.Closes := by
  have hshut := h.shutDown_of_not_finished hopen
  refine ⟨hended, ?_, hstopped, ?_, ?_⟩
  · have hany : g.shutDown = (f.shutDown || events.any FlowEvent.isShutdownSend) := by
      rw [shutDown, hhistory, List.any_append]
      rfl
    rw [hany, hshut, Bool.false_or]
    exact hclosed
  · intro e he
    rw [hhistory, List.mem_append] at he
    rcases he with he | he
    · exact h.proper e he
    · exact hproper e he
  · rw [hhistory, List.pairwise_append]
    refine ⟨h.last, hlast, ?_⟩
    intro e he later _ hsend
    have hnone := List.any_eq_false.mp hshut e he
    exact absurd hsend hnone

/-- Moving bytes between socket and spans decides nothing. -/
theorem congr (h : f.Closes) (hreadable : g.readable = f.readable)
    (hwritable : g.writable = f.writable) (hhistory : g.history = f.history)
    (hsize : g.buff.dataSize = f.buff.dataSize) (hreads : f.reads = [] → g.reads = []) :
    g.Closes := by
  have hfinished : g.Finished ↔ f.Finished := by rw [Finished, Finished, hreadable, hsize]
  refine ⟨?_, ?_, ?_, ?_, ?_⟩
  · intro hend
    exact hreads (h.ended (hreadable ▸ hend))
  · rw [shutDown, hhistory, hfinished]
    exact h.closed
  · intro hstop
    rw [writeFailed, hhistory, hfinished]
    exact h.stopped (hwritable ▸ hstop)
  · rw [hhistory]
    exact h.proper
  · rw [hhistory]
    exact h.last

theorem startRead (h : f.Closes) (hwants : f.wantsRead = true) (spans : List Span) (b : Buffer) :
    (f.startRead spans b).Closes := by
  obtain ⟨-, hreadable, hwritable, -⟩ := wantsRead_iff.mp hwants
  have hopen : ¬ (f.startRead spans b).Finished := not_finished_of_readable hreadable
  refine h.extend (not_finished_of_readable hreadable) [.asyncReadSome] rfl ?_ ?_ ?_ ?_ ?_
  · intro hend
    exact absurd (hreadable.symm.trans hend) (by simp)
  · simpa [FlowEvent.isShutdownSend] using hopen
  · intro hstop
    exact absurd (hwritable.symm.trans hstop) (by simp)
  · simp [FlowEvent.Proper]
  · simp

theorem startWrite (h : f.Closes) (hwants : f.wantsWrite = true) (spans : List Span) {b : Buffer}
    (hsize : b.dataSize = f.buff.dataSize) : (f.startWrite spans b).Closes := by
  obtain ⟨-, hwritable, hdata⟩ := wantsWrite_iff.mp hwants
  have hopen : ¬ (f.startWrite spans b).Finished :=
    not_finished_of_data (hsize.symm ▸ hdata)
  refine h.extend (not_finished_of_data hdata) [.asyncWriteSome (b.readSpans spans)] rfl h.ended
    ?_ ?_ ?_ ?_
  · simpa [FlowEvent.isShutdownSend] using hopen
  · intro hstop
    exact absurd (hwritable.symm.trans hstop) (by simp)
  · simp [FlowEvent.Proper]
  · simp

/-- The read handler shuts the far socket down if nothing is left to be written. -/
theorem afterRead (h : f.Closes) (hreads : f.reads ≠ []) (ec : Option ErrorCode) (b : Buffer) :
    (Flow.afterRead ec { f with reads := [], reading := false, buff := b }).Closes := by
  have hreadable : f.readable = true := by
    by_contra hend
    exact hreads (h.ended (Bool.eq_false_of_not_eq_true hend))
  have hopen : ¬ f.Finished := not_finished_of_readable hreadable
  rw [afterRead_eq]
  refine h.extend hopen (readEvents ec b.dataSize) rfl (fun _ => rfl) ?_ ?_
    (readEvents_proper ec _) (readEvents_pairwise ec _)
  · rw [any_readEvents, Finished, hreadable]
    simp
  · intro hstop
    exact .inl (writeFailed_mono rfl ((h.stopped hstop).resolve_right hopen))

/-- The write handler shuts the far socket down if it has written the last bytes of an
ended source. -/
theorem afterWrite (h : f.Closes) (hdata : 0 < f.buff.dataSize) (ec : Option ErrorCode)
    (b : Buffer) :
    (Flow.afterWrite ec { f with writes := [], writing := false, buff := b }).Closes := by
  have hopen : ¬ f.Finished := not_finished_of_data hdata
  rw [afterWrite_eq]
  refine h.extend hopen (writeEvents ec f.readable b.dataSize) rfl h.ended
    (any_writeEvents ec _ _) ?_ (writeEvents_proper ec _ _) (writeEvents_pairwise ec _ _)
  intro hstop
  cases hwritable : f.writable with
  | false => exact .inl (writeFailed_mono rfl ((h.stopped hwritable).resolve_right hopen))
  | true =>
    cases ec with
    | none =>
      right
      simpa [hwritable, Finished] using hstop
    | some e =>
      left
      simp [writeFailed, writeEvents, FlowEvent.isWriteFailure]

end Closes
end Flow
end PublicEndorsement.Proxy
