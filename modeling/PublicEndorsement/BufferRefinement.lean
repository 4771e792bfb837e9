import PublicEndorsement.BufferCopy
import PublicEndorsement.FifoQueue

/-!
# Buffers are queues

`Represents` relates a buffer, together with the spans its user holds, to a queue.
Every operation of the buffer answers as the queue does, whatever other reservation
or view is outstanding.
-/

namespace PublicEndorsement.Proxy

open BasicBuffer

variable {size : BlockSize} {b : BasicBuffer size} {reservation view : Option (List Span)}
  {q : FifoQueue UInt8}

def BasicBuffer.contents (b : BasicBuffer size) : List UInt8 :=
  b.readSpans ((b.peekLoop b.blockCnt b.head).getD [])

/-- What the user of a buffer sees of it through the spans it holds. -/
def BasicBuffer.queue (b : BasicBuffer size) (reservation view : Option (List Span)) :
    FifoQueue UInt8 where
  contents := b.contents
  reservation := reservation.map b.readSpans
  view := view.map b.readSpans

structure Represents (b : BasicBuffer size) (reservation view : Option (List Span))
    (data space : List Cell) : Prop where
  tape : IsTape b data space
  reserved : b.reserved = reservation.isSome
  peeked : b.peeked = view.isSome
  reservation_cells : ∀ spans ∈ reservation,
    spans.flatMap Span.cells <+: space ∧ spans.flatMap Span.cells ≠ []
  view_cells : ∀ spans ∈ view, spans.flatMap Span.cells <+: data

namespace Represents

variable {data space : List Cell}

theorem contents_eq (h : Represents b reservation view data space) :
    b.contents = data.map b.read := by
  obtain ⟨spans, hloop, hcells⟩ := h.tape.peekLoop
  rw [BasicBuffer.contents, hloop, Option.getD_some, BasicBuffer.readSpans, hcells]

theorem queue_eq (h : Represents b reservation view data space) :
    b.queue reservation view =
      ⟨data.map b.read, reservation.map b.readSpans, view.map b.readSpans⟩ := by
  rw [← h.contents_eq]
  rfl

theorem dataSize_eq (h : Represents b reservation view data space) :
    b.dataSize = b.contents.length := by
  rw [h.contents_eq, List.length_map, h.tape.dataSize_eq]

theorem map_readSpans_congr {b' : BasicBuffer size} {o : Option (List Span)}
    (hread : ∀ spans ∈ o, ∀ c ∈ spans.flatMap Span.cells, b'.read c = b.read c) :
    o.map b'.readSpans = o.map b.readSpans := by
  cases o with
  | none => rfl
  | some spans =>
    rw [Option.map_some, Option.map_some, readSpans, readSpans,
      List.map_congr_left (hread spans rfl)]

theorem readSpans_congr {b' : BasicBuffer size} (hread : ∀ c, b'.read c = b.read c) :
    b'.readSpans = b.readSpans := by
  funext spans
  rw [readSpans, readSpans, funext hread]

/-- Reserving takes the first free cells. -/
theorem of_reserve (h : Represents b none view data space) {b' : BasicBuffer size}
    {space' : List Cell} {spans : List Span} {m : ℕ} (htape : IsTape b' data space')
    (hcells : spans.flatMap Span.cells = space'.take m) (hle : m ≤ space'.length) (hm : 1 ≤ m)
    (hres : b'.reserved = true) (hpeek : b'.peeked = b.peeked) :
    Represents b' (some spans) view data space' ∧ (spans.flatMap Span.cells).length = m := by
  have hlen : (spans.flatMap Span.cells).length = m := by
    rw [hcells, List.length_take, Nat.min_eq_left hle]
  refine ⟨⟨htape, hres, hpeek.trans h.peeked, ?_, h.view_cells⟩, hlen⟩
  rintro _ ⟨⟩
  refine ⟨hcells ▸ List.take_prefix m space', ?_⟩
  intro hnil
  rw [hnil, List.length_nil] at hlen
  omega

theorem reserve (h : Represents b none view data space) {n : ℕ} (hn : 1 ≤ n) :
    ∃ spans b' data' space', b.reserve n = some (spans, b') ∧
      Represents b' (some spans) view data' space' ∧ (spans.flatMap Span.cells).length = n ∧
      (b.queue none view).Step (.reserve n) { size := n } (b'.queue (some spans) view) := by
  obtain ⟨spans, b', space', hreserve, htape, hcells, hle, hres, hpeek, hread⟩ :=
    h.tape.reserve h.reserved n
  obtain ⟨h', hlen⟩ := h.of_reserve htape hcells hle hn hres hpeek
  refine ⟨spans, b', data, space', hreserve, h', hlen, ?_⟩
  rw [h.queue_eq, h'.queue_eq, funext hread, readSpans_congr hread]
  exact .reserve (by simp [readSpans, ← hlen])

theorem reserveAtLeast (h : Represents b none view data space) {n : ℕ} (hn : 1 ≤ n) :
    ∃ spans b' data' space',
      b.reserveAtLeast n = some (spans, (spans.flatMap Span.cells).length, b') ∧
      Represents b' (some spans) view data' space' ∧
      (b.queue none view).Step (.reserveAtLeast n) { size := (spans.flatMap Span.cells).length }
        (b'.queue (some spans) view) := by
  obtain ⟨spans, total, b', space', hreserve, htape, hcells, hle, hnt, hres, hpeek, hread⟩ :=
    h.tape.reserveAtLeast h.reserved n
  obtain ⟨h', hlen⟩ := h.of_reserve htape hcells hle (hn.trans hnt) hres hpeek
  refine ⟨spans, b', data, space', hlen ▸ hreserve, h', ?_⟩
  rw [h.queue_eq, h'.queue_eq, funext hread, readSpans_congr hread]
  have hregion : (b.readSpans spans).length = (spans.flatMap Span.cells).length := by
    rw [readSpans, List.length_map]
  have hle : n ≤ (b.readSpans spans).length := by
    rw [hregion, hlen]
    exact hnt
  rw [← hregion]
  exact .reserveAtLeast hle

theorem commit {spans : List Span} (h : Represents b (some spans) view data space) {k : ℕ}
    (hk : k ≤ (spans.flatMap Span.cells).length) :
    ∃ b' data' space', b.commit k = some b' ∧ Represents b' none view data' space' ∧
      (b.queue (some spans) view).Step (.commit k) {} (b'.queue none view) := by
  obtain ⟨hfront, hne⟩ := h.reservation_cells spans rfl
  obtain ⟨rest, rfl⟩ := hfront
  have hspace : spans.flatMap Span.cells ++ rest ≠ [] := by simp [hne]
  obtain ⟨b', hcommit, htape, hres, hpeek, hread⟩ :=
    h.tape.commit h.reserved hspace (hk.trans (by simp))
  have h' : Represents b' none view
      (data ++ (spans.flatMap Span.cells ++ rest).take k)
      ((spans.flatMap Span.cells ++ rest).drop k) := by
    refine ⟨htape, hres, hpeek.trans h.peeked, by simp, ?_⟩
    intro s hs
    exact (h.view_cells s hs).trans (List.prefix_append _ _)
  refine ⟨b', _, _, hcommit, h', ?_⟩
  rw [h.queue_eq, h'.queue_eq, funext hread, readSpans_congr hread,
    List.take_append_of_le_length hk, List.map_append, List.map_take]
  exact .commit rfl

/-- Overwriting one of several different cells changes one of the bytes read. -/
theorem map_read_write {cells : List Cell} (hnodup : cells.Nodup) {i : ℕ} {c : Cell}
    (hi : cells[i]? = some c) (x : UInt8) :
    cells.map (b.write c x).read = (cells.map b.read).set i x := by
  refine List.ext_getElem? (fun j => ?_)
  rw [List.getElem?_set, List.getElem?_map, List.getElem?_map, List.length_map]
  obtain ⟨hlt, hc⟩ := List.getElem?_eq_some_iff.mp hi
  by_cases hij : i = j
  · subst hij
    rw [if_pos rfl, if_pos hlt, hi, Option.map_some, read_write, if_pos rfl]
  · rw [if_neg hij]
    cases hj : cells[j]? with
    | none => rfl
    | some c' =>
      obtain ⟨hlt', hc'⟩ := List.getElem?_eq_some_iff.mp hj
      have hne : c' ≠ c := by
        intro heq
        rw [← hc, ← hc'] at heq
        exact hij ((hnodup.getElem_inj_iff).mp heq).symm
      rw [Option.map_some, Option.map_some, read_write, if_neg hne]

theorem write {spans : List Span} (h : Represents b (some spans) view data space) {i : ℕ}
    {c : Cell} (hi : (spans.flatMap Span.cells)[i]? = some c) (x : UInt8) :
    Represents (b.write c x) (some spans) view data space ∧
      (b.queue (some spans) view).Step (.write i x) {}
        ((b.write c x).queue (some spans) view) := by
  have hfront := (h.reservation_cells spans rfl).1
  have hmem : c ∈ space := hfront.subset (List.mem_of_getElem? hi)
  have hnodup : (spans.flatMap Span.cells).Nodup := h.tape.space_nodup.sublist hfront.sublist
  have hother : ∀ c' ∈ data, (b.write c x).read c' = b.read c' := by
    intro c' hc'
    rw [read_write, if_neg]
    rintro rfl
    exact h.tape.disjoint c' hmem hc'
  have h' : Represents (b.write c x) (some spans) view data space :=
    ⟨h.tape.write c x, h.reserved, h.peeked, h.reservation_cells, h.view_cells⟩
  refine ⟨h', ?_⟩
  have hview : view.map (b.write c x).readSpans = view.map b.readSpans :=
    map_readSpans_congr (fun s hs c' hc' => hother c' ((h.view_cells s hs).subset hc'))
  have hregion : (some spans).map (b.write c x).readSpans = some ((b.readSpans spans).set i x) := by
    rw [Option.map_some, readSpans, map_read_write hnodup hi]
    rfl
  rw [h.queue_eq, h'.queue_eq, List.map_congr_left hother, hview, hregion]
  exact .write rfl

/-- Filling the front of a reservation leaves the contents alone. -/
theorem fill {spans : List Span} (h : Represents b (some spans) view data space)
    {bytes : List UInt8} (hle : bytes.length ≤ (spans.flatMap Span.cells).length) :
    Represents (b.writeAll ((spans.flatMap Span.cells).zip bytes)) (some spans) view data space ∧
      (b.writeAll ((spans.flatMap Span.cells).zip bytes)).contents = b.contents ∧
      ((b.writeAll ((spans.flatMap Span.cells).zip bytes)).readSpans spans).take bytes.length =
        bytes := by
  obtain ⟨htape, hres, hpeek, hdata, hbytes⟩ :=
    h.tape.fill (h.reservation_cells spans rfl).1 hle
  have h' : Represents (b.writeAll ((spans.flatMap Span.cells).zip bytes)) (some spans) view
      data space :=
    ⟨htape, hres.trans h.reserved, hpeek.trans h.peeked, h.reservation_cells, h.view_cells⟩
  refine ⟨h', ?_, ?_⟩
  · rw [h.contents_eq, h'.contents_eq, List.map_congr_left hdata]
  · rw [readSpans, ← List.map_take]
    exact hbytes

theorem view_isPrefix {spans : List Span} (h : Represents b reservation (some spans) data space) :
    b.readSpans spans <+: b.contents := by
  rw [h.contents_eq]
  exact (h.view_cells spans rfl).map b.read

theorem peek (h : Represents b reservation none data space) :
    ∃ spans b', b.peek = some (spans, b') ∧ Represents b' reservation (some spans) data space ∧
      (b.queue reservation none).Step .peek
        ⟨b'.readSpans spans, (spans.flatMap Span.cells).length⟩
        (b'.queue reservation (some spans)) := by
  obtain ⟨spans, hpeek, hcells⟩ := h.tape.peek h.peeked
  have hread : ∀ c, ({ b with peeked := true } : BasicBuffer size).read c = b.read c :=
    fun _ => rfl
  have h' : Represents ({ b with peeked := true } : BasicBuffer size) reservation (some spans)
      data space := by
    refine ⟨h.tape.withFlags _ _, h.reserved, rfl, h.reservation_cells, ?_⟩
    rintro _ ⟨⟩
    rw [hcells]
  refine ⟨spans, _, hpeek, h', ?_⟩
  rw [h.queue_eq, h'.queue_eq, funext hread, readSpans_congr hread, Option.map_some, readSpans,
    hcells, ← List.length_map b.read]
  exact .peek

/-- Draining leaves the reserved cells where they are. -/
theorem of_drain (h : Represents b reservation view data space) {b' : BasicBuffer size}
    {data' space' : List Cell} (htape : IsTape b' data' space')
    (hspace : b.reserved = true → space' = space) (hpeek : b'.peeked = false)
    (hres : b'.reserved = b.reserved) : Represents b' reservation none data' space' := by
  refine ⟨htape, hres.trans h.reserved, hpeek, ?_, by simp⟩
  intro s hs
  have hreserved : b.reserved = true := by
    rw [h.reserved, hs]
    rfl
  rw [hspace hreserved]
  exact h.reservation_cells s hs

theorem drain {spans : List Span} (h : Represents b reservation (some spans) data space) {k : ℕ}
    (hk : k ≤ (spans.flatMap Span.cells).length) :
    ∃ b' data' space', b.drain k = some b' ∧ Represents b' reservation none data' space' ∧
      (b.queue reservation (some spans)).Step (.drain k) {} (b'.queue reservation none) := by
  have hfront := h.view_cells spans rfl
  obtain ⟨b', space', hdrain, htape, hspace, hpeek, hres, hread⟩ :=
    h.tape.drain h.peeked (hk.trans hfront.length_le)
  have h' := h.of_drain htape hspace hpeek hres
  refine ⟨b', _, _, hdrain, h', ?_⟩
  rw [h.queue_eq, h'.queue_eq, funext hread, readSpans_congr hread, List.map_drop]
  exact .drain

theorem copyIn (h : Represents b none view data space) {bytes : List UInt8} (hne : bytes ≠ []) :
    ∃ b' data' space', b.copyIn bytes = some b' ∧ Represents b' none view data' space' ∧
      (b.queue none view).Step (.copyIn bytes) {} (b'.queue none view) := by
  obtain ⟨b', added, space', hcopy, htape, hadded, hread, hres, hpeek⟩ :=
    h.tape.copyIn h.reserved hne
  have h' : Represents b' none view (data ++ added) space' := by
    refine ⟨htape, hres, hpeek.trans h.peeked, by simp, ?_⟩
    intro s hs
    exact (h.view_cells s hs).trans (List.prefix_append _ _)
  refine ⟨b', _, _, hcopy, h', ?_⟩
  have hview : view.map b'.readSpans = view.map b.readSpans :=
    map_readSpans_congr (fun s hs c hc => hread c ((h.view_cells s hs).subset hc))
  rw [h.queue_eq, h'.queue_eq, List.map_append, hadded, List.map_congr_left hread, hview]
  exact .copyIn

theorem copyOut (h : Represents b reservation none data space) (toNull : Bool) (n : ℕ) :
    ∃ bytes copied b' data' space', b.copyOut toNull n = some (bytes, copied, b') ∧
      Represents b' reservation none data' space' ∧
      (b.queue reservation none).Step (.copyOut toNull n) ⟨bytes, copied⟩
        (b'.queue reservation none) := by
  obtain ⟨b', space', hcopy, htape, hspace, hpeek, hres, hread⟩ :=
    h.tape.copyOut h.peeked toNull n
  have h' := h.of_drain htape hspace hpeek hres
  refine ⟨_, _, b', _, _, hcopy, h', ?_⟩
  rw [h.queue_eq, h'.queue_eq, funext hread, readSpans_congr hread, List.map_drop, List.map_take,
    ← List.length_map b.read]
  exact .copyOut

end Represents

structure BufferUser (size : BlockSize) where
  buffer : BasicBuffer size
  reservation : Option (List Span)
  view : Option (List Span)

namespace BufferUser

def create (size : BlockSize) (freelist : Freelist) : BufferUser size where
  buffer := BasicBuffer.create size freelist
  reservation := none
  view := none

def queue (u : BufferUser size) : FifoQueue UInt8 := u.buffer.queue u.reservation u.view

/-- One call of the user; a write goes through the reserved spans. -/
def step (u : BufferUser size) :
    FifoCall UInt8 → Option (FifoResult UInt8 × BufferUser size)
  | .reserve n => do
    let (spans, b) ← u.buffer.reserve n
    some ({ size := (spans.flatMap Span.cells).length },
      { u with buffer := b, reservation := some spans })
  | .reserveAtLeast n => do
    let (spans, total, b) ← u.buffer.reserveAtLeast n
    some ({ size := total }, { u with buffer := b, reservation := some spans })
  | .write i x => do
    let spans ← u.reservation
    let c ← (spans.flatMap Span.cells)[i]?
    some ({}, { u with buffer := u.buffer.write c x })
  | .commit k => do
    let b ← u.buffer.commit k
    some ({}, { u with buffer := b, reservation := none })
  | .peek => do
    let (spans, b) ← u.buffer.peek
    some (⟨b.readSpans spans, (spans.flatMap Span.cells).length⟩,
      { u with buffer := b, view := some spans })
  | .drain k => do
    let b ← u.buffer.drain k
    some ({}, { u with buffer := b, view := none })
  | .copyIn bytes => do
    let b ← u.buffer.copyIn bytes
    some ({}, { u with buffer := b })
  | .copyOut toNull n => do
    let (bytes, copied, b) ← u.buffer.copyOut toNull n
    some (⟨bytes, copied⟩, { u with buffer := b })

def run (u : BufferUser size) :
    List (FifoCall UInt8) → Option (List (FifoResult UInt8) × BufferUser size)
  | [] => some ([], u)
  | call :: calls => do
    let (result, u) ← u.step call
    let (results, u) ← u.run calls
    some (result :: results, u)

/-- Each call is one the user may make, as far as the buffer gets. -/
def disciplined (u : BufferUser size) : List (FifoCall UInt8) → Bool
  | [] => true
  | call :: calls => u.queue.permits call &&
      match u.step call with
      | some (_, u') => u'.disciplined calls
      | none => true

def Wellformed (u : BufferUser size) : Prop :=
  ∃ data space, Represents u.buffer u.reservation u.view data space

theorem wellformed_create (freelist : Freelist) : (create size freelist).Wellformed :=
  ⟨[], [], .create freelist, rfl, rfl, by simp [create], by simp [create]⟩

theorem queue_isNone {o : Option (List Span)} (h : (o.map b.readSpans).isNone = true) :
    o = none := by
  rwa [Option.isNone_map, Option.isNone_iff_eq_none] at h

theorem queue_any {o : Option (List Span)} {p : ℕ → Prop} [DecidablePred p]
    (h : (o.map b.readSpans).any (fun region => p region.length) = true) :
    ∃ spans, o = some spans ∧ p (spans.flatMap Span.cells).length := by
  cases o with
  | none => simp at h
  | some spans => exact ⟨spans, rfl, by simpa [readSpans] using h⟩

/-- A permitted call is answered as the queue answers it. -/
theorem step_spec {u : BufferUser size} (h : u.Wellformed) {call : FifoCall UInt8}
    (hpermits : u.queue.permits call = true) :
    ∃ result u', u.step call = some (result, u') ∧ u'.Wellformed ∧
      u.queue.Step call result u'.queue := by
  obtain ⟨b, reservation, view⟩ := u
  obtain ⟨data, space, h⟩ := h
  cases call with
  | reserve n =>
    rw [FifoQueue.permits, Bool.and_eq_true, decide_eq_true_eq] at hpermits
    obtain ⟨hfree, hn⟩ := hpermits
    obtain rfl := queue_isNone hfree
    obtain ⟨spans, b', data', space', hrun, h', hlen, hstep⟩ := h.reserve hn
    refine ⟨_, ⟨b', some spans, view⟩, ?_, ⟨data', space', h'⟩, hstep⟩
    simp only [step, hrun, Option.bind_eq_bind, Option.bind_some, hlen]
  | reserveAtLeast n =>
    rw [FifoQueue.permits, Bool.and_eq_true, decide_eq_true_eq] at hpermits
    obtain ⟨hfree, hn⟩ := hpermits
    obtain rfl := queue_isNone hfree
    obtain ⟨spans, b', data', space', hrun, h', hstep⟩ := h.reserveAtLeast hn
    exact ⟨_, ⟨b', some spans, view⟩, by simp [step, hrun], ⟨data', space', h'⟩, hstep⟩
  | write i x =>
    obtain ⟨spans, rfl, hi⟩ := queue_any hpermits
    obtain ⟨c, hcell⟩ : ∃ c, (spans.flatMap Span.cells)[i]? = some c :=
      ⟨_, List.getElem?_eq_getElem hi⟩
    obtain ⟨h', hstep⟩ := h.write hcell x
    exact ⟨_, ⟨b.write c x, some spans, view⟩, by simp [step, hcell], ⟨data, space, h'⟩, hstep⟩
  | commit k =>
    obtain ⟨spans, rfl, hk⟩ := queue_any hpermits
    obtain ⟨b', data', space', hrun, h', hstep⟩ := h.commit hk
    exact ⟨_, ⟨b', none, view⟩, by simp [step, hrun], ⟨data', space', h'⟩, hstep⟩
  | peek =>
    obtain rfl := queue_isNone hpermits
    obtain ⟨spans, b', hrun, h', hstep⟩ := h.peek
    exact ⟨_, ⟨b', reservation, some spans⟩, by simp [step, hrun], ⟨data, space, h'⟩, hstep⟩
  | drain k =>
    obtain ⟨spans, rfl, hk⟩ := queue_any hpermits
    obtain ⟨b', data', space', hrun, h', hstep⟩ := h.drain hk
    exact ⟨_, ⟨b', reservation, none⟩, by simp [step, hrun], ⟨data', space', h'⟩, hstep⟩
  | copyIn bytes =>
    rw [FifoQueue.permits, Bool.and_eq_true] at hpermits
    obtain ⟨hfree, hne⟩ := hpermits
    obtain rfl := queue_isNone hfree
    have hbytes : bytes ≠ [] := by simpa using hne
    obtain ⟨b', data', space', hrun, h', hstep⟩ := h.copyIn hbytes
    exact ⟨_, ⟨b', none, view⟩, by simp [step, hrun], ⟨data', space', h'⟩, hstep⟩
  | copyOut toNull n =>
    obtain rfl := queue_isNone hpermits
    obtain ⟨bytes, copied, b', data', space', hrun, h', hstep⟩ := h.copyOut toNull n
    exact ⟨_, ⟨b', reservation, none⟩, by simp [step, hrun], ⟨data', space', h'⟩, hstep⟩

/-- Disciplined calls run to their end, as a run of the queue. -/
theorem run_spec {u : BufferUser size} (h : u.Wellformed) {calls : List (FifoCall UInt8)}
    (hcalls : u.disciplined calls = true) :
    ∃ results u', u.run calls = some (results, u') ∧ u'.Wellformed ∧
      results.length = calls.length ∧ u.queue.Run (calls.zip results) u'.queue := by
  induction calls generalizing u with
  | nil => exact ⟨[], u, rfl, h, rfl, .nil⟩
  | cons call calls ih =>
    rw [disciplined, Bool.and_eq_true] at hcalls
    obtain ⟨hpermits, hrest⟩ := hcalls
    obtain ⟨result, u₁, hstep, hwf, hspec⟩ := step_spec h hpermits
    rw [hstep] at hrest
    obtain ⟨results, u', hrun, hwf', hlen, hqueue⟩ := ih hwf hrest
    refine ⟨result :: results, u', ?_, hwf', by simp [hlen], .cons hpermits hspec hqueue⟩
    simp [run, hstep, hrun]

/-- However reservations, views, commits and drains interleave, a buffer answers every
call of a disciplined user as the queue of the bytes committed and not yet drained. -/
theorem refines_fifoQueue (size : BlockSize) (freelist : Freelist)
    (calls : List (FifoCall UInt8)) (hcalls : (create size freelist).disciplined calls = true) :
    ∃ results u, (create size freelist).run calls = some (results, u) ∧
      results.length = calls.length ∧
      FifoQueue.empty.Run (calls.zip results) u.queue ∧
      u.buffer.dataSize = u.queue.contents.length := by
  obtain ⟨results, u, hrun, hwf, hlen, hqueue⟩ := run_spec (wellformed_create freelist) hcalls
  refine ⟨results, u, hrun, hlen, hqueue, ?_⟩
  obtain ⟨data, space, h⟩ := hwf
  exact h.dataSize_eq

/-- Blocks with room for eight bytes: a reservation across three blocks, then one that outlives
the drain of all blocks before it. -/
def demoCalls : List (FifoCall UInt8) :=
  [.reserve 20, .write 16 9, .write 0 7, .commit 16, .peek, .reserveAtLeast 1, .drain 16,
    .write 0 5, .commit 1, .copyIn [1, 2], .copyOut false 2]

def demoSize : BlockSize := ⟨32, by decide⟩

def demoFreelist : Freelist := .empty (fun _ => ⟨none, 0, 0, fun _ => 0⟩)

theorem demo_refines_fifoQueue : ∃ results, ∃ u : BufferUser demoSize,
    (create demoSize demoFreelist).run demoCalls = some (results, u) ∧
    FifoQueue.empty.Run (demoCalls.zip results) u.queue := by
  obtain ⟨results, u, hrun, -, hqueue, -⟩ :=
    refines_fifoQueue demoSize demoFreelist demoCalls (by decide +kernel)
  exact ⟨results, u, hrun, hqueue⟩

example : ((create demoSize demoFreelist).run demoCalls).map
    (fun r => (r.1.map FifoResult.items, r.2.queue.contents)) =
    some ([[], [], [], [], 7 :: List.replicate 15 0, [], [], [], [], [], [5, 1]], [2]) := by
  decide +kernel

end BufferUser

end PublicEndorsement.Proxy
