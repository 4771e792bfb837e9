import PublicEndorsement.BufferLoops

/-!
# A buffer as a tape of cells

`IsTape b data space` hides the blocks: the buffer holds its data in the cells `data`
and has the cells `space` free behind them. Each operation is described by what it
does to these two lists; nothing but a write changes what a cell contains.
-/

namespace PublicEndorsement.Proxy

open BasicBuffer

variable {size : BlockSize} {b : BasicBuffer size} {data space : List Cell}

def IsTape (b : BasicBuffer size) (data space : List Cell) : Prop :=
  ∃ chain free, Layout b chain free ∧ data = dataCells b.memory chain ∧
    space = spaceCells size.capacity b.memory chain

theorem Keeps.read {b' : BasicBuffer size} (h : Keeps b b') (c : Cell) : b'.read c = b.read c := by
  rw [BasicBuffer.read, BasicBuffer.read, h.bytes]

/-- Flags are not part of the layout. -/
theorem Layout.withFlags {chain free : List Addr} (h : Layout b chain free)
    (reserved peeked : Bool) :
    Layout ({ b with reserved := reserved, peeked := peeked } : BasicBuffer size) chain free :=
  ⟨h.toBlocks.withFields _ _ _ _, h.end_at, h.data_size⟩

namespace IsTape

theorem dataSize_eq (h : IsTape b data space) : b.dataSize = data.length := by
  obtain ⟨chain, free, hlayout, rfl, rfl⟩ := h
  exact hlayout.data_size

theorem disjoint (h : IsTape b data space) : ∀ c ∈ space, c ∉ data := by
  obtain ⟨chain, free, hlayout, rfl, rfl⟩ := h
  exact fun c hc => notMem_dataCells_of_mem_spaceCells hc

theorem space_nodup (h : IsTape b data space) : space.Nodup := by
  obtain ⟨chain, free, hlayout, rfl, rfl⟩ := h
  exact nodup_spaceCells hlayout.chain_nodup

theorem withFlags (h : IsTape b data space) (reserved peeked : Bool) :
    IsTape ({ b with reserved := reserved, peeked := peeked } : BasicBuffer size) data space := by
  obtain ⟨chain, free, hlayout, hdata, hspace⟩ := h
  exact ⟨chain, free, hlayout.withFlags reserved peeked, hdata, hspace⟩

theorem create (freelist : Freelist) : IsTape (BasicBuffer.create size freelist) [] [] := by
  refine ⟨[], freelist.blocks, ⟨⟨rfl, freelist.linked, freelist.nodup, freelist.allocated, rfl,
    fun h => absurd rfl h, ⟨by simp, by simp, List.Pairwise.nil⟩⟩, ?_, rfl⟩, rfl, rfl⟩
  exact ⟨[], [], rfl, rfl, by simp, by simp, fun _ => rfl⟩

end IsTape

section SpaceSize

/-- Blocks that were not drained from are data and space, without loss. -/
theorem length_cells_of_offset_zero {memory : Memory} {l : List Addr} {capacity : ℕ}
    (hfits : ∀ a ∈ l, (memory a).offset < capacity ∧
      (memory a).offset + (memory a).len ≤ capacity)
    (hzero : ∀ a ∈ l, (memory a).offset = 0) :
    (dataCells memory l).length + (spaceCells capacity memory l).length =
      l.length * capacity := by
  induction l with
  | nil => simp
  | cons a l ih =>
    have hrest := ih (fun x hx => hfits x (List.mem_cons_of_mem a hx))
      (fun x hx => hzero x (List.mem_cons_of_mem a hx))
    have hle := (hfits a List.mem_cons_self).2
    have ha := hzero a List.mem_cons_self
    simp only [dataCells_cons, spaceCells_cons, List.length_append, length_cells, dataSpan,
      spaceSpan, Block.spaceLen, List.length_cons, Nat.add_mul, one_mul]
    omega

theorem IsTape.spaceSize_eq (h : IsTape b data space) : b.spaceSize = space.length := by
  obtain ⟨chain, free, hlayout, rfl, rfl⟩ := h
  unfold spaceSize
  cases chain with
  | nil =>
    have hhead : b.head = none := hlayout.linked
    simp [hhead]
  | cons a l =>
    have hhead : b.head = some a := hlayout.linked.1
    have hfits := hlayout.packed.fits a List.mem_cons_self
    have hrest := length_cells_of_offset_zero hlayout.packed.tail.fits hlayout.packed.offset_zero
    have hcount := hlayout.count
    have hsize := hlayout.data_size
    simp only [hhead, hcount, hsize, dataCells_cons, spaceCells_cons, List.length_append,
      length_cells, dataSpan, spaceSpan, Block.spaceLen, List.length_cons, Nat.add_mul, one_mul]
    omega

end SpaceSize

section Walk

variable {b' : BasicBuffer size} {done rem new free : List Addr}

/-- After a walk that started behind the blocks without space, the free cells are those
of the blocks walked over. -/
theorem IsTape.of_walk (hlayout : Layout b' (done ++ rem ++ new) free)
    (happ : Appends b b' (done ++ rem) new)
    (hfull : ∀ a ∈ done, (b.memory a).spaceLen size.capacity = 0) :
    IsTape b' (dataCells b.memory (done ++ rem))
      (spaceCells size.capacity b'.memory (rem ++ new)) := by
  refine ⟨done ++ rem ++ new, free, hlayout, happ.dataCells_eq.symm, ?_⟩
  have hdone : spaceCells size.capacity b'.memory done = [] := by
    apply spaceCells_eq_nil
    intro a ha
    have hsame := happ.headers a (List.mem_append_left rem ha)
    rw [Block.spaceLen, hsame.1, hsame.2]
    exact hfull a ha
  rw [List.append_assoc, spaceCells_append _ _ done, hdone, List.nil_append]

end Walk

namespace IsTape

theorem reserve (h : IsTape b data space) (hfree : b.reserved = false) (n : ℕ) :
    ∃ spans b' space', b.reserve n = some (spans, b') ∧ IsTape b' data space' ∧
      spans.flatMap Span.cells = space'.take n ∧ n ≤ space'.length ∧
      b'.reserved = true ∧ b'.peeked = b.peeked ∧ ∀ c, b'.read c = b.read c := by
  obtain ⟨chain, free, hlayout, rfl, rfl⟩ := h
  obtain ⟨done, rem, rfl, hstart, hfull, hrem⟩ := spaceStepper_spec hlayout
  obtain ⟨spans, new, free', b', hloop, hlayout', happ, hcells, hle⟩ :=
    reserveLoop_spec (hlayout.withFlags true b.peeked) hrem (le_refl n)
  have htape := IsTape.of_walk hlayout' happ hfull
  refine ⟨spans, b', _, ?_, htape, hcells, hle, happ.reserved,
    happ.peeked, happ.toKeeps.read⟩
  rw [BasicBuffer.reserve, hfree, hstart]
  exact hloop

theorem reserveAtLeast (h : IsTape b data space) (hfree : b.reserved = false) (n : ℕ) :
    ∃ spans total b' space', b.reserveAtLeast n = some (spans, total, b') ∧
      IsTape b' data space' ∧ spans.flatMap Span.cells = space'.take total ∧
      total ≤ space'.length ∧ n ≤ total ∧
      b'.reserved = true ∧ b'.peeked = b.peeked ∧ ∀ c, b'.read c = b.read c := by
  obtain ⟨chain, free, hlayout, rfl, rfl⟩ := h
  obtain ⟨done, rem, rfl, hstart, hfull, hrem⟩ := spaceStepper_spec hlayout
  obtain ⟨spans, total, new, free', b', hloop, hlayout', happ, hcells, hle, -, hn⟩ :=
    reserveAtLeastLoop_spec (hlayout.withFlags true b.peeked) hrem (show n ≤ 0 + n by omega)
  have htape := IsTape.of_walk hlayout' happ hfull
  refine ⟨spans, total, b', _, ?_, htape, hcells, hle, hn,
    happ.reserved, happ.peeked, happ.toKeeps.read⟩
  rw [BasicBuffer.reserveAtLeast, hfree, hstart]
  exact hloop

theorem commit (h : IsTape b data space) (hres : b.reserved = true) (hspace : space ≠ []) {n : ℕ}
    (hn : n ≤ space.length) :
    ∃ b', b.commit n = some b' ∧ IsTape b' (data ++ space.take n) (space.drop n) ∧
      b'.reserved = false ∧ b'.peeked = b.peeked ∧ ∀ c, b'.read c = b.read c := by
  have hsize := h.spaceSize_eq
  obtain ⟨chain, free, hlayout, rfl, rfl⟩ := h
  obtain ⟨done, rem, rfl, hstart, hfull, hrem⟩ := spaceStepper_spec hlayout
  have hhead : b.head.isSome = true := by
    rw [hlayout.linked.head?_eq, List.isSome_head?]
    intro hnil
    rw [hnil] at hspace
    exact hspace rfl
  obtain ⟨b', hloop, hblocks, hend, hkeeps, hdata, hspaces⟩ :=
    commitLoop_spec hlayout.toBlocks hfull hrem hlayout.end_at hn (le_refl n)
  refine ⟨{ b' with dataSize := b'.dataSize + n, reserved := false }, ?_, ?_, rfl, hkeeps.peeked,
    hkeeps.read⟩
  · rw [BasicBuffer.commit, hstart, hloop]
    have hfits : n ≤ b.spaceSize := hsize ▸ hn
    simp [hres, hhead, hfits]
  · refine ⟨done ++ rem, free, ⟨hblocks.withFields _ _ _ _, hend, ?_⟩, hdata.symm, hspaces.symm⟩
    change b'.dataSize + n = (dataCells b'.memory (done ++ rem)).length
    rw [hkeeps.dataSize, hlayout.data_size, hdata, List.length_append, List.length_take,
      Nat.min_eq_left hn]

theorem peekLoop (h : IsTape b data space) :
    ∃ spans, b.peekLoop b.blockCnt b.head = some spans ∧ spans.flatMap Span.cells = data := by
  obtain ⟨chain, free, hlayout, rfl, rfl⟩ := h
  exact peekLoop_spec hlayout.linked hlayout.packed (le_of_eq hlayout.count.symm)

theorem peek (h : IsTape b data space) (hfree : b.peeked = false) :
    ∃ spans, b.peek = some (spans, { b with peeked := true }) ∧
      spans.flatMap Span.cells = data := by
  obtain ⟨spans, hloop, hcells⟩ := h.peekLoop
  refine ⟨spans, ?_, hcells⟩
  rw [BasicBuffer.peek, hloop, hfree]
  rfl

end IsTape

section Drain

variable {b' : BasicBuffer size} {chain pruned chain' free : List Addr} {n : ℕ}

/-- While data is left, the end block has not been given back. -/
theorem EndAt.drain (h : EndAt size.capacity b.memory b.endBlock (pruned ++ chain'))
    (hdrains : Drains b b' (pruned ++ chain') chain' n)
    (hleft : dataCells b'.memory chain' ≠ []) :
    EndAt size.capacity b'.memory b'.endBlock chain' := by
  obtain ⟨full, rest, hsplit, he, hfull, hrest, hempty⟩ := h
  obtain ⟨full', rfl, hpruned⟩ : ∃ full', chain' = full' ++ rest ∧ full = pruned ++ full' := by
    rcases List.append_eq_append_iff.mp hsplit with ⟨full', hf, hc⟩ | ⟨middle, hp, hr⟩
    · exact ⟨full', hc, hf⟩
    · cases middle with
      | nil => exact ⟨[], by simpa using hr.symm, by simpa using hp.symm⟩
      | cons e middle =>
        refine absurd (dataCells_eq_nil fun a ha => ?_) hleft
        have hmem : a ∈ rest.tail := by
          rw [hr]
          exact List.mem_append_right middle ha
        have hlen := hdrains.len a ha
        rw [hrest a hmem] at hlen
        exact Nat.le_zero.mp hlen
  refine ⟨full', rest, rfl, hdrains.endBlock.trans he, ?_, ?_, ?_⟩
  · intro a ha
    rw [hdrains.spaceLen a (List.mem_append_left rest ha)]
    exact hfull a (hpruned ▸ List.mem_append_right pruned ha)
  · intro a ha
    have hlen := hdrains.len a (List.mem_append_right full' (List.mem_of_mem_tail ha))
    rw [hrest a ha] at hlen
    exact Nat.le_zero.mp hlen
  · intro hnil
    have hnone := hempty hnil
    rw [hpruned] at hnone
    exact (List.append_eq_nil_iff.mp hnone).2

/-- An empty buffer whose end block is its head block. -/
theorem Blocks.layout_of_empty (h : Blocks b chain free) (hempty : dataCells b.memory chain = [])
    (hend : b.endBlock = b.head) (hsize : b.dataSize = 0) : Layout b chain free := by
  refine ⟨h, ⟨[], chain, rfl, ?_, by simp, ?_, fun _ => rfl⟩, ?_⟩
  · rw [hend, h.linked.head?_eq]
  · intro a ha
    exact len_eq_zero_of_dataCells hempty a (List.mem_of_mem_tail ha)
  · rw [hempty, hsize]
    rfl

def resetBlock (b : BasicBuffer size) (h : Addr) : BasicBuffer size :=
  b.store h { b.memory h with offset := 0 }

theorem resetBlock_self {h : Addr} :
    (resetBlock b h).memory h = { b.memory h with offset := 0 } := Function.update_self ..

theorem resetBlock_of_ne {h a : Addr} (ha : a ≠ h) : (resetBlock b h).memory a = b.memory a :=
  Function.update_of_ne ha _ _

theorem resetBlock_keeps {h : Addr} : Keeps b (resetBlock b h) := .store rfl

theorem resetBlock_fields {h : Addr} (a : Addr) :
    ((resetBlock b h).memory a).len = (b.memory a).len ∧
      ((resetBlock b h).memory a).offset ≤ (b.memory a).offset ∧
      links (resetBlock b h).memory a = links b.memory a := by
  by_cases ha : a = h
  · rw [ha, links, resetBlock_self]
    exact ⟨rfl, Nat.zero_le _, rfl⟩
  · rw [links, resetBlock_of_ne ha]
    exact ⟨rfl, le_refl _, rfl⟩

/-- The head block of an empty buffer may start over. -/
theorem Blocks.resetBlock {h : Addr} (hb : Blocks b chain free)
    (hempty : dataCells b.memory chain = []) :
    Blocks (resetBlock b h) chain free ∧ dataCells (resetBlock b h).memory chain = [] := by
  have hnew : ∀ a ∈ chain, ((Proxy.resetBlock b h).memory a).len = 0 :=
    fun a ha => (resetBlock_fields a).1.trans (len_eq_zero_of_dataCells hempty a ha)
  have hpacked : Packed size.capacity (Proxy.resetBlock b h).memory chain := by
    refine ⟨?_, ?_, ?_⟩
    · intro a ha
      have hfits := hb.packed.fits a ha
      have hle := (resetBlock_fields (b := b) (h := h) a).2.1
      have hlen := hnew a ha
      omega
    · intro a ha
      have hle := (resetBlock_fields (b := b) (h := h) a).2.1
      rw [hb.packed.offset_zero a ha] at hle
      exact Nat.le_zero.mp hle
    · rw [List.pairwise_iff_forall_sublist]
      intro a a' hsub
      exact .inr (hnew a' (hsub.subset (by simp)))
  exact ⟨hb.withMemory (fun a => (resetBlock_fields a).2.2) hpacked, dataCells_eq_nil hnew⟩

/-- The end of `Drain`: the head block of an empty buffer starts over, unless something
is reserved. -/
def startOver (b : BasicBuffer size) : BasicBuffer size :=
  match b.head with
  | some h => if b.dataSize = 0 ∧ b.reserved = false then resetBlock b h else b
  | none => b

theorem startOver_cases (b : BasicBuffer size) :
    startOver b = b ∨
      ∃ h, b.dataSize = 0 ∧ b.reserved = false ∧ startOver b = resetBlock b h := by
  rw [startOver]
  split
  · split_ifs with hempty
    · exact .inr ⟨_, hempty.1, hempty.2, rfl⟩
    · exact .inl rfl
  · exact .inl rfl

theorem match_startOver (b : BasicBuffer size) :
    (match b.head with
      | some h =>
        if b.dataSize = 0 ∧ b.reserved = false then some (b.store h { b.memory h with offset := 0 })
        else some b
      | none => some b) = some (startOver b) := by
  rw [startOver]
  cases b.head with
  | none => rfl
  | some h => exact (apply_ite some _ _ _).symm

theorem drain_of_loop {n : ℕ} {b' : BasicBuffer size} (hpeek : b.peeked = true)
    (hn : n ≤ b.dataSize) (hloop : drainLoop n n b = some b') :
    b.drain n = some (startOver (if b'.dataSize - n = 0
      then { b' with dataSize := b'.dataSize - n, peeked := false, endBlock := b'.head }
      else { b' with dataSize := b'.dataSize - n, peeked := false })) := by
  have hguard : (b.peeked && decide (n ≤ b.dataSize)) = true := by
    rw [hpeek, Bool.true_and, decide_eq_true_eq]
    exact hn
  rw [BasicBuffer.drain, if_pos hguard, hloop]
  exact match_startOver _

/-- An empty buffer is laid out the same whether its head block starts over or not. -/
theorem startOver_of_empty (hb : Blocks b chain free) (hempty : dataCells b.memory chain = [])
    (hend : b.endBlock = b.head) (hsize : b.dataSize = 0) :
    ∃ space, IsTape (startOver b) [] space ∧ Keeps b (startOver b) ∧
      (b.reserved = true → space = spaceCells size.capacity b.memory chain) := by
  obtain hsame | ⟨h, -, hfree, hreset⟩ := startOver_cases b
  · rw [hsame]
    exact ⟨_, ⟨chain, free, hb.layout_of_empty hempty hend hsize, hempty.symm, rfl⟩, .refl b,
      fun _ => rfl⟩
  · rw [hreset]
    obtain ⟨hblocks, hempty'⟩ := hb.resetBlock (h := h) hempty
    refine ⟨_, ⟨chain, free, hblocks.layout_of_empty hempty' hend hsize, hempty'.symm, rfl⟩,
      resetBlock_keeps, fun hreserved => ?_⟩
    rw [hfree] at hreserved
    cases hreserved

theorem IsTape.drain (h : IsTape b data space) (hpeek : b.peeked = true) {n : ℕ}
    (hn : n ≤ data.length) :
    ∃ b' space', b.drain n = some b' ∧ IsTape b' (data.drop n) space' ∧
      (b.reserved = true → space' = space) ∧ b'.peeked = false ∧ b'.reserved = b.reserved ∧
      ∀ c, b'.read c = b.read c := by
  have hsize := h.dataSize_eq
  obtain ⟨chain, free, hlayout, rfl, rfl⟩ := h
  obtain ⟨pruned, chain', free', b', rfl, hloop, hblocks, hdrains⟩ :=
    drainLoop_spec hlayout.toBlocks hn (le_refl n)
  have hsize' : b'.dataSize - n = (dataCells b'.memory chain').length := by
    rw [hdrains.data, List.length_drop, hdrains.dataSize, hsize]
  rw [drain_of_loop hpeek (hsize ▸ hn) hloop, ← hdrains.data]
  by_cases hleft : dataCells b'.memory chain' = []
  · have hzero : b'.dataSize - n = 0 := by
      rw [hsize', hleft]
      rfl
    obtain ⟨space', htape, hkeeps, hspace⟩ := startOver_of_empty
      (b := { b' with dataSize := b'.dataSize - n, peeked := false, endBlock := b'.head })
      (hblocks.withFields _ _ _ _) hleft rfl hzero
    rw [if_pos hzero, hleft]
    refine ⟨_, space', rfl, htape, fun hreserved => ?_, hkeeps.peeked,
      hkeeps.reserved.trans hdrains.reserved, fun c => (hkeeps.read c).trans (hdrains.read c)⟩
    exact (hspace (hdrains.reserved.trans hreserved)).trans hdrains.space
  · have hne : b'.dataSize - n ≠ 0 := by
      rw [hsize']
      exact fun hzero => hleft (List.length_eq_zero_iff.mp hzero)
    have hend := hlayout.end_at.drain hdrains hleft
    obtain hsame | ⟨-, hzero, -⟩ :=
      startOver_cases { b' with dataSize := b'.dataSize - n, peeked := false }
    · rw [if_neg hne, hsame]
      exact ⟨_, _, rfl, ⟨chain', free', ⟨hblocks.withFields _ _ _ _, hend, hsize'⟩, rfl, rfl⟩,
        fun _ => hdrains.space, rfl, hdrains.reserved, hdrains.toKeeps.read⟩
    · exact absurd hzero hne

end Drain

section Write

theorem write_memory (c : Cell) (x : UInt8) (a : Addr) :
    ((b.write c x).memory a).offset = (b.memory a).offset ∧
      ((b.write c x).memory a).len = (b.memory a).len ∧
      links (b.write c x).memory a = links b.memory a := by
  by_cases ha : a = c.1
  · have hself : (b.write c x).memory a = { b.memory c.1 with
        buf := Function.update (b.memory c.1).buf c.2 x } := by
      rw [ha]
      exact Function.update_self ..
    rw [links, hself, ha]
    exact ⟨rfl, rfl, rfl⟩
  · have hother : (b.write c x).memory a = b.memory a := Function.update_of_ne ha _ _
    rw [links, hother]
    exact ⟨rfl, rfl, rfl⟩

theorem read_write (c : Cell) (x : UInt8) (c' : Cell) :
    (b.write c x).read c' = if c' = c then x else b.read c' := by
  obtain ⟨a, i⟩ := c
  obtain ⟨a', i'⟩ := c'
  simp only [BasicBuffer.read, BasicBuffer.write, BasicBuffer.store, Prod.mk.injEq]
  by_cases ha : a' = a
  · subst ha
    by_cases hi : i' = i
    · simp [hi]
    · simp [hi]
  · simp [ha]

/-- Writing changes no header. -/
theorem IsTape.write (h : IsTape b data space) (c : Cell) (x : UInt8) :
    IsTape (b.write c x) data space := by
  obtain ⟨chain, free, hlayout, rfl, rfl⟩ := h
  have hsame : ∀ a ∈ chain, ((b.write c x).memory a).offset = (b.memory a).offset ∧
      ((b.write c x).memory a).len = (b.memory a).len :=
    fun a _ => ⟨(write_memory c x a).1, (write_memory c x a).2.1⟩
  have hblocks : Blocks (b.write c x) chain free :=
    hlayout.withMemory (fun a => (write_memory c x a).2.2) (hlayout.packed.congr hsame)
  obtain ⟨full, rest, hsplit, he, hfull, hrest, hempty⟩ := hlayout.end_at
  refine ⟨chain, free, ⟨hblocks, ⟨full, rest, hsplit, he, ?_, ?_, hempty⟩, ?_⟩,
    (dataCells_congr hsame).symm, (spaceCells_congr hsame).symm⟩
  · intro a ha
    rw [Block.spaceLen, (write_memory c x a).1, (write_memory c x a).2.1]
    exact hfull a ha
  · intro a ha
    rw [(write_memory c x a).2.1]
    exact hrest a ha
  · rw [dataCells_congr hsame]
    exact hlayout.data_size

theorem writeAll_spec (ps : List (Cell × UInt8)) (h : IsTape b data space) :
    IsTape (writeAll b ps) data space ∧ (writeAll b ps).reserved = b.reserved ∧
      (writeAll b ps).peeked = b.peeked ∧
      (∀ c, c ∉ ps.map Prod.fst → (writeAll b ps).read c = b.read c) ∧
      ((ps.map Prod.fst).Nodup → ∀ p ∈ ps, (writeAll b ps).read p.1 = p.2) := by
  induction ps generalizing b with
  | nil => exact ⟨h, rfl, rfl, fun _ _ => rfl, by simp⟩
  | cons p ps ih =>
    obtain ⟨htape, hreserved, hpeeked, hother, hwritten⟩ := ih (h.write p.1 p.2)
    refine ⟨htape, hreserved, hpeeked, ?_, ?_⟩
    · intro c hc
      rw [List.map_cons, List.mem_cons, not_or] at hc
      have hlater := hother c hc.2
      rw [read_write, if_neg hc.1] at hlater
      exact hlater
    · intro hnodup q hq
      rw [List.map_cons, List.nodup_cons] at hnodup
      rcases List.mem_cons.mp hq with rfl | hq
      · have hlater := hother q.1 hnodup.1
        rw [read_write, if_pos rfl] at hlater
        exact hlater
      · exact hwritten hnodup.2 q hq

end Write

end PublicEndorsement.Proxy
