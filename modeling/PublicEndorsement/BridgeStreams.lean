import PublicEndorsement.ProxyBridge

/-!
# A direction loses, duplicates and reorders nothing

`Carries` says how the bytes a direction has seen are spread over what was sent, the
buffer and the spans held by outstanding operations. Every operation on a direction
keeps it, so none of them fails.
-/

namespace PublicEndorsement.Proxy

open BasicBuffer

namespace Flow

variable {initial : List UInt8} {f : Flow} {r w : Option AsyncOp}

/-- What was there at the start and what was received is what the handlers drained,
then the buffer, then what they have not committed; of the buffer, the front may have
been sent already. -/
def Streams (initial : List UInt8) (f : Flow) : Prop :=
  ∃ delivered, initial ++ f.received = delivered ++ f.buff.contents ++ f.unreportedReads ∧
    f.sent = delivered ++ f.buff.contents.take f.unreportedWrites

/-- A direction with outstanding read `r` and outstanding write `w`. -/
structure Carries (initial : List UInt8) (f : Flow) (r w : Option AsyncOp) : Prop where
  reads : f.reads = r.toList
  writes : f.writes = w.toList
  reading : f.reading = r.isSome
  writing : f.writing = w.isSome
  represents : ∃ data space,
    Represents f.buff (r.map AsyncOp.spans) (w.map AsyncOp.spans) data space
  read_fits : ∀ op ∈ r, op.transferred ≤ op.size
  write_fits : ∀ op ∈ w, op.transferred ≤ op.size ∧ 0 < op.size
  streams : Streams initial f

theorem length_flatMap_cells (op : AsyncOp) :
    (op.spans.flatMap Span.cells).length = op.size := by
  simp [AsyncOp.size, List.length_flatMap]

theorem unreportedReads_none (h : f.reads = []) : f.unreportedReads = [] := by
  rw [unreportedReads, h, List.flatMap_nil]

theorem unreportedReads_some {op : AsyncOp} (h : f.reads = [op]) :
    f.unreportedReads = (f.buff.readSpans op.spans).take op.transferred := by
  rw [unreportedReads, h, List.flatMap_singleton]

theorem unreportedWrites_none (h : f.writes = []) : f.unreportedWrites = 0 := by
  rw [unreportedWrites, h, List.map_nil, List.sum_nil]

theorem unreportedWrites_some {op : AsyncOp} (h : f.writes = [op]) :
    f.unreportedWrites = op.transferred := by
  rw [unreportedWrites, h, List.map_singleton, List.sum_singleton]

/-- The bytes waiting in the reservation depend only on what it holds. -/
theorem unreportedReads_congr {f' : Flow} (h : f.reads = r.toList) (h' : f'.reads = r.toList)
    (hreserved : (r.map AsyncOp.spans).map f'.buff.readSpans =
      (r.map AsyncOp.spans).map f.buff.readSpans) :
    f'.unreportedReads = f.unreportedReads := by
  cases r with
  | none => rw [unreportedReads_none h, unreportedReads_none h']
  | some op =>
    rw [unreportedReads_some h, unreportedReads_some h']
    exact congrArg (List.take op.transferred) (Option.some.inj hreserved)

/-- A change of the buffer that leaves its contents and the reserved bytes alone. -/
theorem Streams.congr {f' : Flow} (h : Streams initial f) (hreceived : f'.received = f.received)
    (hsent : f'.sent = f.sent) (hcontents : f'.buff.contents = f.buff.contents)
    (hreads : f'.unreportedReads = f.unreportedReads)
    (hwrites : f'.unreportedWrites = f.unreportedWrites) : Streams initial f' := by
  obtain ⟨delivered, htotal, hdelivered⟩ := h
  refine ⟨delivered, ?_, ?_⟩
  · rw [hreceived, hcontents, hreads, htotal]
  · rw [hsent, hcontents, hwrites, hdelivered]

namespace Carries

/-- The streams do not depend on the other flags and the history. -/
theorem withFlags (h : f.Carries initial r w) (readable writable : Bool)
    (history : List FlowEvent) :
    Carries initial { f with readable, writable, history } r w :=
  ⟨h.reads, h.writes, h.reading, h.writing, h.represents, h.read_fits, h.write_fits, h.streams⟩

theorem dataSize_eq (h : f.Carries initial r w) : f.buff.dataSize = f.buff.contents.length := by
  obtain ⟨data, space, hrep⟩ := h.represents
  exact hrep.dataSize_eq

/-- A write offers bytes of the buffer. -/
theorem size_le {op : AsyncOp} (h : f.Carries initial r (some op)) :
    op.size ≤ f.buff.contents.length := by
  obtain ⟨data, space, hrep⟩ := h.represents
  have hview := hrep.view_isPrefix.length_le
  rw [readSpans, List.length_map, length_flatMap_cells] at hview
  exact hview

/-- While a write is outstanding there is data. -/
theorem dataSize_pos {op : AsyncOp} (h : f.Carries initial r (some op)) :
    0 < f.buff.dataSize := by
  rw [h.dataSize_eq]
  exact (h.write_fits op rfl).2.trans_le h.size_le

theorem startRead (h : f.Carries initial none w) :
    ∃ spans total b, f.buff.reserveAtLeast kReadSize = some (spans, total, b) ∧
      b.dataSize = f.buff.dataSize ∧
      Carries initial (f.startRead spans b) (some (.start spans)) w := by
  obtain ⟨data, space, hrep⟩ := h.represents
  obtain ⟨spans, b, data', space', hrun, hrep', hstep⟩ :=
    hrep.reserveAtLeast (n := kReadSize) (by decide)
  obtain ⟨region, -, hqueue⟩ := hstep.reserveAtLeast_inv
  have hcontents : b.contents = f.buff.contents := congrArg FifoQueue.contents hqueue
  refine ⟨spans, _, b, hrun, by rw [hrep.dataSize_eq, hrep'.dataSize_eq, hcontents], ?_⟩
  have hreads : (f.startRead spans b).reads = [.start spans] := by
    rw [Flow.startRead, record, h.reads]
    rfl
  refine ⟨hreads, h.writes, rfl, h.writing, ⟨data', space', hrep'⟩, ?_, h.write_fits, ?_⟩
  · rintro _ ⟨⟩
    exact Nat.zero_le _
  · refine h.streams.congr rfl rfl hcontents ?_ rfl
    rw [unreportedReads_some hreads, unreportedReads_none h.reads]
    rfl

theorem startWrite (h : f.Carries initial r none) (hdata : 0 < f.buff.dataSize) :
    ∃ spans b, f.buff.peek = some (spans, b) ∧ b.dataSize = f.buff.dataSize ∧
      Carries initial (f.startWrite spans b) r (some (.start spans)) := by
  obtain ⟨data, space, hrep⟩ := h.represents
  obtain ⟨spans, b, hrun, hrep', hstep⟩ := hrep.peek
  obtain ⟨hitems, hqueue⟩ := hstep.peek_inv
  have hcontents : b.contents = f.buff.contents := congrArg FifoQueue.contents hqueue
  have hreserved := congrArg FifoQueue.reservation hqueue
  have hsize : (spans.flatMap Span.cells).length = f.buff.dataSize := by
    have hlen := congrArg List.length hitems
    rw [readSpans, List.length_map] at hlen
    rw [h.dataSize_eq]
    exact hlen
  refine ⟨spans, b, hrun, by rw [hrep.dataSize_eq, hrep'.dataSize_eq, hcontents], ?_⟩
  have hwrites : (f.startWrite spans b).writes = [.start spans] := by
    rw [Flow.startWrite, record, h.writes]
    rfl
  refine ⟨h.reads, hwrites, h.reading, rfl, ⟨data, space, hrep'⟩, h.read_fits, ?_, ?_⟩
  · rintro _ ⟨⟩
    refine ⟨Nat.zero_le _, ?_⟩
    rw [← length_flatMap_cells]
    exact hdata.trans_eq hsize.symm
  · refine h.streams.congr rfl rfl hcontents ?_ ?_
    · exact unreportedReads_congr h.reads h.reads hreserved
    · rw [unreportedWrites_some hwrites, unreportedWrites_none h.writes]
      rfl

theorem unreportedWrites_le (h : f.Carries initial r w) :
    f.unreportedWrites ≤ f.buff.contents.length := by
  cases w with
  | none =>
    rw [unreportedWrites_none h.writes]
    exact Nat.zero_le _
  | some op =>
    rw [unreportedWrites_some h.writes]
    exact (h.write_fits op rfl).1.trans h.size_le

theorem transferred_eq {op : AsyncOp} {ec : Option ErrorCode} {n : ℕ}
    (h : op.completion = some (ec, n)) : op.transferred = n := by
  rw [AsyncOp.transferred, h]
  rfl

/-- The commit of a read handler moves what was read from the reservation to the end of
the buffer. -/
theorem finishRead {op : AsyncOp} {ec : Option ErrorCode} {n : ℕ}
    (h : f.Carries initial (some op) w) (hdone : op.completion = some (ec, n)) :
    ∃ b, f.buff.commit n = some b ∧
      Carries initial { f with reads := [], reading := false, buff := b } none w := by
  obtain ⟨data, space, hrep⟩ := h.represents
  have hn := transferred_eq hdone
  have hfits : n ≤ (op.spans.flatMap Span.cells).length := by
    rw [length_flatMap_cells, ← hn]
    exact h.read_fits op rfl
  obtain ⟨b, data', space', hrun, hrep', hstep⟩ := hrep.commit hfits
  obtain ⟨region, hregion, hqueue⟩ := hstep.commit_inv
  have hregion' : f.buff.readSpans op.spans = region := Option.some.inj hregion
  have hcontents : b.contents = f.buff.contents ++ region.take n :=
    congrArg FifoQueue.contents hqueue
  obtain ⟨delivered, htotal, hsent⟩ := h.streams
  rw [unreportedReads_some h.reads, hregion', hn] at htotal
  refine ⟨b, hrun, rfl, h.writes, rfl, h.writing, ⟨data', space', hrep'⟩, by simp, h.write_fits,
    delivered, ?_, ?_⟩
  · rw [unreportedReads_none rfl, hcontents, htotal, List.append_nil, List.append_assoc]
  · -- A write may have sent bytes already; they lie before the ones committed now.
    rw [hcontents]
    change f.sent = delivered ++ (f.buff.contents ++ region.take n).take f.unreportedWrites
    rw [List.take_append_of_le_length h.unreportedWrites_le]
    exact hsent

/-- The drain of a write handler removes what was sent from the buffer. -/
theorem finishWrite {op : AsyncOp} {ec : Option ErrorCode} {n : ℕ}
    (h : f.Carries initial r (some op)) (hdone : op.completion = some (ec, n)) :
    ∃ b, f.buff.drain n = some b ∧
      Carries initial { f with writes := [], writing := false, buff := b } r none := by
  obtain ⟨data, space, hrep⟩ := h.represents
  have hn := transferred_eq hdone
  have hfits : n ≤ (op.spans.flatMap Span.cells).length := by
    rw [length_flatMap_cells, ← hn]
    exact (h.write_fits op rfl).1
  obtain ⟨b, data', space', hrun, hrep', hstep⟩ := hrep.drain hfits
  have hqueue := hstep.drain_inv
  have hcontents : b.contents = f.buff.contents.drop n := congrArg FifoQueue.contents hqueue
  have hreserved := congrArg FifoQueue.reservation hqueue
  obtain ⟨delivered, htotal, hsent⟩ := h.streams
  rw [unreportedWrites_some h.writes, hn] at hsent
  refine ⟨b, hrun, h.reads, rfl, h.reading, rfl, ⟨data', space', hrep'⟩, h.read_fits, by simp,
    delivered ++ f.buff.contents.take n, ?_, ?_⟩
  · have hreads : unreportedReads { f with writes := [], writing := false, buff := b } =
        f.unreportedReads := unreportedReads_congr h.reads h.reads hreserved
    rw [hreads, hcontents, htotal, List.append_assoc delivered (f.buff.contents.take n),
      List.take_append_drop]
  · rw [unreportedWrites_none rfl, List.take_zero, List.append_nil]
    exact hsent

theorem transferred_complete (op : AsyncOp) (ec : Option ErrorCode) (n : ℕ) :
    (op.complete ec n).transferred = n := rfl

theorem transferred_of_open {op : AsyncOp} (h : op.completion = none) : op.transferred = 0 := by
  rw [AsyncOp.transferred, h]
  rfl

/-- The source fills the front of the reserved spans. -/
theorem fill {op : AsyncOp} {bytes : List UInt8} (ec : Option ErrorCode)
    (h : f.Carries initial (some op) w) (hopen : op.completion = none)
    (hle : bytes.length ≤ op.size) :
    (f.fill 0 op bytes ec).buff.dataSize = f.buff.dataSize ∧
      Carries initial (f.fill 0 op bytes ec) (some (op.complete ec bytes.length)) w := by
  obtain ⟨data, space, hrep⟩ := h.represents
  obtain ⟨hrep', hcontents, hbytes⟩ := hrep.fill ((length_flatMap_cells op).symm ▸ hle)
  have hreads : (f.fill 0 op bytes ec).reads = [op.complete ec bytes.length] := by
    rw [Flow.fill, h.reads]
    rfl
  have hcontents' : (f.fill 0 op bytes ec).buff.contents = f.buff.contents := hcontents
  refine ⟨?_, hreads, h.writes, h.reading, h.writing, ⟨data, space, hrep'⟩, ?_, h.write_fits, ?_⟩
  · rw [hrep.dataSize_eq, ← hcontents]
    exact hrep'.dataSize_eq
  · rintro _ ⟨⟩
    exact hle
  · obtain ⟨delivered, htotal, hsent⟩ := h.streams
    rw [unreportedReads_some h.reads, transferred_of_open hopen, List.take_zero,
      List.append_nil] at htotal
    refine ⟨delivered, ?_, ?_⟩
    · rw [unreportedReads_some hreads, transferred_complete, hcontents', ← htotal]
      change initial ++ (f.received ++ bytes) = _
      rw [← List.append_assoc]
      exact congrArg ((initial ++ f.received) ++ ·) hbytes.symm
    · rw [hcontents']
      exact hsent

/-- The far socket takes the front of what is buffered. -/
theorem take {op : AsyncOp} {n : ℕ} (ec : Option ErrorCode)
    (h : f.Carries initial r (some op)) (hopen : op.completion = none) (hle : n ≤ op.size) :
    Carries initial (f.take 0 op n ec) r (some (op.complete ec n)) := by
  obtain ⟨data, space, hrep⟩ := h.represents
  have hwrites : (f.take 0 op n ec).writes = [op.complete ec n] := by
    rw [Flow.take, h.writes]
    rfl
  have hlen : n ≤ (f.buff.readSpans op.spans).length := by
    rw [readSpans, List.length_map, length_flatMap_cells]
    exact hle
  refine ⟨h.reads, hwrites, h.reading, h.writing, ⟨data, space, hrep⟩, h.read_fits, ?_, ?_⟩
  · rintro _ ⟨⟩
    exact ⟨hle, (h.write_fits op rfl).2⟩
  · obtain ⟨delivered, htotal, hsent⟩ := h.streams
    rw [unreportedWrites_some h.writes, transferred_of_open hopen, List.take_zero,
      List.append_nil] at hsent
    refine ⟨delivered, htotal, ?_⟩
    obtain ⟨rest, hrest⟩ : f.buff.readSpans op.spans <+: f.buff.contents := hrep.view_isPrefix
    rw [unreportedWrites_some hwrites, transferred_complete]
    change f.sent ++ (f.buff.readSpans op.spans).take n = delivered ++ f.buff.contents.take n
    rw [hsent, ← hrest, List.take_append_of_le_length hlen]

theorem sent_isPrefix (h : f.Carries initial r w) : f.sent <+: initial ++ f.received := by
  obtain ⟨delivered, htotal, hsent⟩ := h.streams
  rw [htotal, hsent, List.append_assoc]
  have hfront : f.buff.contents.take f.unreportedWrites <+:
      f.buff.contents ++ f.unreportedReads :=
    (List.take_prefix _ _).trans (List.prefix_append _ _)
  exact (List.prefix_append_right_inj delivered).mpr hfront

/-- When every completed operation has had its handler called, all bytes are sent or
buffered. -/
theorem streams_of_open (h : f.Carries initial r w)
    (hopen : ∀ op ∈ f.reads ++ f.writes, op.completion = none) :
    initial ++ f.received = f.sent ++ f.buff.contents := by
  have hreads : f.unreportedReads = [] := by
    cases r with
    | none => exact unreportedReads_none h.reads
    | some op =>
      have hnone := transferred_of_open (hopen op (by simp [h.reads]))
      rw [unreportedReads_some h.reads, hnone, List.take_zero]
  have hwrites : f.unreportedWrites = 0 := by
    cases w with
    | none => exact unreportedWrites_none h.writes
    | some op =>
      rw [unreportedWrites_some h.writes]
      exact transferred_of_open (hopen op (by simp [h.writes]))
  obtain ⟨delivered, htotal, hsent⟩ := h.streams
  rw [hwrites, List.take_zero, List.append_nil] at hsent
  rw [htotal, hreads, List.append_nil, hsent]

end Carries
end Flow
end PublicEndorsement.Proxy
