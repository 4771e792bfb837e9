import PublicEndorsement.BridgeClosing

/-!
# What a direction does between two handlers

`ForwardTraffic` leaves a direction with an operation outstanding wherever one is
needed. Completions keep that, and a handler followed by `ForwardTraffic` restores it.
-/

namespace PublicEndorsement.Proxy

namespace Flow

variable {initial : List UInt8} {f : Flow} {r w : Option AsyncOp}

def Good (initial : List UInt8) (f : Flow) : Prop := ∃ r w, f.Carries initial r w ∧ f.Closes

def WritePending (f : Flow) : Prop :=
  f.writable = true → 0 < f.buff.dataSize → f.writes ≠ []

def ReadPending (f : Flow) : Prop :=
  f.readable = true → f.writable = true → f.buff.dataSize < kMaxBufferSize → f.reads ≠ []

structure Settled (initial : List UInt8) (f : Flow) : Prop where
  good : f.Good initial
  writePending : f.WritePending
  readPending : f.ReadPending

/-- A direction before its first operation. -/
theorem Good.start {b : Buffer} {data space : List BasicBuffer.Cell}
    (hrep : Represents b none none data space) :
    ({ buff := b } : Flow).Good b.contents := by
  have hopen : ¬ ({ buff := b } : Flow).Finished := not_finished_of_readable rfl
  refine ⟨none, none, ⟨rfl, rfl, rfl, rfl, ⟨data, space, hrep⟩, nofun, nofun, [], ?_, rfl⟩, ?_⟩
  · simp [unreportedReads]
  · refine ⟨by simp, ?_, by simp, by simp, by simp⟩
    simpa [shutDown] using hopen

theorem toList_ne_nil {o : Option AsyncOp} (h : o.isSome = true) : o.toList ≠ [] := by
  cases o with
  | none => cases h
  | some op => simp

theorem Good.scheduleRead (h : f.Good initial) :
    ∃ f', f.scheduleRead = some f' ∧ f'.Good initial ∧ f'.ReadPending ∧
      (f.WritePending → f'.WritePending) := by
  obtain ⟨r, w, hcarries, hcloses⟩ := h
  cases hwants : f.wantsRead with
  | true =>
    have hidle := (wantsRead_iff.mp hwants).1
    rw [hcarries.reading, Option.isSome_eq_false_iff, Option.isNone_iff_eq_none] at hidle
    subst hidle
    obtain ⟨spans, total, b, hrun, hsize, hcarries'⟩ := hcarries.startRead
    refine ⟨f.startRead spans b, ?_, ⟨_, _, hcarries', hcloses.startRead hwants spans b⟩, ?_, ?_⟩
    · simp [Flow.scheduleRead, hwants, hrun]
    · intro _ _ _
      rw [hcarries'.reads]
      exact toList_ne_nil rfl
    · intro hpending hwritable hdata
      exact hpending hwritable (hdata.trans_eq hsize)
  | false =>
    refine ⟨f, by simp [Flow.scheduleRead, hwants], ⟨r, w, hcarries, hcloses⟩, ?_, id⟩
    intro hreadable hwritable hroom
    have hbusy : f.reading = true := by
      by_contra hidle
      have hwants' := wantsRead_iff.mpr
        ⟨Bool.eq_false_of_not_eq_true hidle, hreadable, hwritable, hroom⟩
      exact Bool.false_ne_true (hwants.symm.trans hwants')
    rw [hcarries.reads]
    exact toList_ne_nil (hcarries.reading.symm.trans hbusy)

theorem Good.scheduleWrite (h : f.Good initial) :
    ∃ f', f.scheduleWrite = some f' ∧ f'.Good initial ∧ f'.WritePending ∧
      (f.ReadPending → f'.ReadPending) := by
  obtain ⟨r, w, hcarries, hcloses⟩ := h
  cases hwants : f.wantsWrite with
  | true =>
    obtain ⟨hidle, -, hdata⟩ := wantsWrite_iff.mp hwants
    rw [hcarries.writing, Option.isSome_eq_false_iff, Option.isNone_iff_eq_none] at hidle
    subst hidle
    obtain ⟨spans, b, hrun, hsize, hcarries'⟩ := hcarries.startWrite hdata
    refine ⟨f.startWrite spans b, ?_, ⟨_, _, hcarries', hcloses.startWrite hwants spans hsize⟩,
      ?_, ?_⟩
    · simp [Flow.scheduleWrite, hwants, hrun]
    · intro _ _
      rw [hcarries'.writes]
      exact toList_ne_nil rfl
    · intro hpending hreadable hwritable hroom
      exact hpending hreadable hwritable (hsize.symm.trans_lt hroom)
  | false =>
    refine ⟨f, by simp [Flow.scheduleWrite, hwants], ⟨r, w, hcarries, hcloses⟩, ?_, id⟩
    intro hwritable hdata
    have hbusy : f.writing = true := by
      by_contra hidle
      have hwants' := wantsWrite_iff.mpr ⟨Bool.eq_false_of_not_eq_true hidle, hwritable, hdata⟩
      exact Bool.false_ne_true (hwants.symm.trans hwants')
    rw [hcarries.writes]
    exact toList_ne_nil (hcarries.writing.symm.trans hbusy)

/-- An outstanding operation is the only one. -/
theorem getElem?_toList {o : Option AsyncOp} {i : ℕ} {op : AsyncOp}
    (h : o.toList[i]? = some op) : o = some op ∧ i = 0 := by
  cases o with
  | none => simp at h
  | some op' =>
    cases i with
    | zero => exact ⟨h, rfl⟩
    | succ i => simp at h

theorem Settled.receive {i : ℕ} {op : AsyncOp} {bytes : List UInt8} (ec : Option ErrorCode)
    (h : f.Settled initial) (hop : f.reads[i]? = some op) (hopen : op.completion = none)
    (hle : bytes.length ≤ op.size) :
    ∃ f', f.receive i bytes ec = some f' ∧ f'.Settled initial := by
  obtain ⟨r, w, hcarries, hcloses⟩ := h.good
  have hreads := hcarries.reads
  rw [hreads] at hop
  obtain ⟨rfl, rfl⟩ := getElem?_toList hop
  obtain ⟨hsize, hcarries'⟩ := hcarries.fill ec hopen hle
  have hbusy : (f.fill 0 op bytes ec).reads ≠ [] := by
    rw [hcarries'.reads]
    exact toList_ne_nil rfl
  refine ⟨f.fill 0 op bytes ec, ?_, ⟨_, _, hcarries', ?_⟩, ?_, fun _ _ _ => hbusy⟩
  · simp [Flow.receive, hreads]
  · refine hcloses.congr rfl rfl rfl hsize (fun hnil => ?_)
    rw [hreads] at hnil
    exact absurd hnil (toList_ne_nil rfl)
  · intro hwritable hdata
    exact h.writePending hwritable (hdata.trans_eq hsize)

theorem Settled.send {i n : ℕ} {op : AsyncOp} (ec : Option ErrorCode)
    (h : f.Settled initial) (hop : f.writes[i]? = some op) (hopen : op.completion = none)
    (hle : n ≤ op.size) :
    ∃ f', f.send i n ec = some f' ∧ f'.Settled initial := by
  obtain ⟨r, w, hcarries, hcloses⟩ := h.good
  have hwrites := hcarries.writes
  rw [hwrites] at hop
  obtain ⟨rfl, rfl⟩ := getElem?_toList hop
  have hcarries' := hcarries.take ec hopen hle
  have hbusy : (f.take 0 op n ec).writes ≠ [] := by
    rw [hcarries'.writes]
    exact toList_ne_nil rfl
  refine ⟨f.take 0 op n ec, ?_, ⟨_, _, hcarries', hcloses.congr rfl rfl rfl rfl id⟩,
    fun _ _ => hbusy, h.readPending⟩
  simp [Flow.send, hwrites]

theorem Good.readHandler {i n : ℕ} {op : AsyncOp} {ec : Option ErrorCode}
    (h : f.Good initial) (hop : f.reads[i]? = some op) (hdone : op.completion = some (ec, n)) :
    ∃ f', Flow.readHandler ec n { f with reads := f.reads.eraseIdx i } = some f' ∧
      f'.Good initial := by
  obtain ⟨r, w, hcarries, hcloses⟩ := h
  have hreads := hcarries.reads
  rw [hreads] at hop
  obtain ⟨rfl, rfl⟩ := getElem?_toList hop
  obtain ⟨b, hrun, hcarries'⟩ := hcarries.finishRead hdone
  have herase : f.reads.eraseIdx 0 = [] := by
    rw [hreads]
    rfl
  refine ⟨afterRead ec { f with reads := [], reading := false, buff := b }, ?_, none, w, ?_,
    hcloses.afterRead (hreads ▸ toList_ne_nil rfl) ec b⟩
  · simp [Flow.readHandler, herase, hrun]
  · rw [afterRead_eq]
    exact hcarries'.withFlags _ _ _

theorem Good.writeHandler {i n : ℕ} {op : AsyncOp} {ec : Option ErrorCode}
    (h : f.Good initial) (hop : f.writes[i]? = some op) (hdone : op.completion = some (ec, n)) :
    ∃ f', Flow.writeHandler ec n { f with writes := f.writes.eraseIdx i } = some f' ∧
      f'.Good initial := by
  obtain ⟨r, w, hcarries, hcloses⟩ := h
  have hwrites := hcarries.writes
  rw [hwrites] at hop
  obtain ⟨rfl, rfl⟩ := getElem?_toList hop
  obtain ⟨b, hrun, hcarries'⟩ := hcarries.finishWrite hdone
  have herase : f.writes.eraseIdx 0 = [] := by
    rw [hwrites]
    rfl
  refine ⟨afterWrite ec { f with writes := [], writing := false, buff := b }, ?_, r, none, ?_,
    hcloses.afterWrite hcarries.dataSize_pos ec b⟩
  · simp [Flow.writeHandler, herase, hrun]
  · rw [afterWrite_eq]
    exact hcarries'.withFlags _ _ _

theorem Carries.contents_eq_nil (h : f.Carries initial r w) :
    f.buff.contents = [] ↔ f.buff.dataSize = 0 := by
  rw [h.dataSize_eq, List.length_eq_zero_iff]

/-- A direction without outstanding operations has delivered everything and shut its
far socket down, or a write to it failed. -/
theorem Settled.at_rest (h : f.Settled initial) (hreads : f.reads = []) (hwrites : f.writes = []) :
    (f.sent = initial ++ f.received ∧ f.shutDown = true) ∨ f.writeFailed = true := by
  obtain ⟨r, w, hcarries, hcloses⟩ := h.good
  have hdelivered : f.Finished → f.sent = initial ++ f.received ∧ f.shutDown = true := by
    intro hdone
    refine ⟨?_, hcloses.closed.mpr hdone⟩
    rw [hcarries.streams_of_open (by simp [hreads, hwrites]),
      hcarries.contents_eq_nil.mpr hdone.2, List.append_nil]
  cases hwritable : f.writable with
  | false =>
    rcases hcloses.stopped hwritable with hfailed | hdone
    · exact .inr hfailed
    · exact .inl (hdelivered hdone)
  | true =>
    have hempty : f.buff.dataSize = 0 := by
      by_contra hdata
      exact h.writePending hwritable (Nat.pos_of_ne_zero hdata) hwrites
    have hended : f.readable = false := by
      by_contra hreadable
      have hroom : f.buff.dataSize < kMaxBufferSize := hempty ▸ by decide
      exact h.readPending (Bool.eq_true_of_not_eq_false hreadable) hwritable hroom hreads
    exact .inl (hdelivered ⟨hended, hempty⟩)

end Flow
end PublicEndorsement.Proxy
