import PublicEndorsement.BufferLayout

/-!
# The blocks of a buffer and its pointers

`Layout` ties the pointers and counters of a buffer to the chain of its blocks. The
end pointer splits the chain into blocks without space and blocks without data; the
tail pointer may dangle while the chain is empty. A space stepper walks the blocks
that have space and appends a block when there is none left.
-/

namespace PublicEndorsement.Proxy

open BasicBuffer

abbrev links (memory : Memory) (a : Addr) : Option Addr := (memory a).next

/-- A block rewritten with the same content leaves all contents as they were. -/
theorem update_buf {memory : Memory} {a : Addr} {block : Block}
    (h : block.buf = (memory a).buf) (x : Addr) :
    (Function.update memory a block x).buf = (memory x).buf := by
  by_cases hx : x = a
  · rw [hx, Function.update_self, h]
  · rw [Function.update_of_ne hx]

variable {size : BlockSize}

/-- The chain and the free list share no block, and all of them are allocated. -/
structure Blocks (b : BasicBuffer size) (chain free : List Addr) : Prop where
  linked : Linked (links b.memory) b.head chain
  free_linked : Linked (links b.memory) b.freelist free
  nodup : (chain ++ free).Nodup
  allocated : ∀ a ∈ chain ++ free, a < b.brk
  count : b.blockCnt = chain.length
  tail_eq : chain ≠ [] → b.tail = chain.getLast?
  packed : Packed size.capacity b.memory chain

/-- Blocks before the end block have no space, blocks behind it have no data. -/
def EndAt (capacity : ℕ) (memory : Memory) (e : Option Addr) (chain : List Addr) : Prop :=
  ∃ full rest, chain = full ++ rest ∧ e = rest.head? ∧
    (∀ a ∈ full, (memory a).spaceLen capacity = 0) ∧ (∀ a ∈ rest.tail, (memory a).len = 0) ∧
    (rest = [] → full = [])

structure Layout (b : BasicBuffer size) (chain free : List Addr) : Prop extends
    Blocks b chain free where
  end_at : EndAt size.capacity b.memory b.endBlock chain
  data_size : b.dataSize = (dataCells b.memory chain).length

namespace Blocks

variable {b : BasicBuffer size} {chain free : List Addr}

theorem chain_nodup (h : Blocks b chain free) : chain.Nodup := (List.nodup_append.mp h.nodup).1

theorem ne_of_mem_before {done rem : List Addr} {a : Addr} (h : Blocks b (done ++ a :: rem) free) :
    ∀ x ∈ done, x ≠ a := by
  rintro x hx rfl
  exact (List.nodup_append.mp h.chain_nodup).2.2 x hx x List.mem_cons_self rfl

theorem ne_of_mem_after {done rem : List Addr} {a : Addr} (h : Blocks b (done ++ a :: rem) free) :
    ∀ x ∈ rem, x ≠ a := by
  rintro x hx rfl
  exact (List.nodup_cons.mp (List.nodup_append.mp h.chain_nodup).2.1).1 hx

/-- Nothing here is said about the end block, the size of the data and the flags. -/
theorem withFields (h : Blocks b chain free) (e : Option Addr) (n : ℕ) (reserved peeked : Bool) :
    Blocks ({ b with endBlock := e, dataSize := n, reserved := reserved, peeked := peeked } :
      BasicBuffer size) chain free :=
  ⟨h.linked, h.free_linked, h.nodup, h.allocated, h.count, h.tail_eq, h.packed⟩

/-- Changing headers without touching the links keeps everything but the shape. -/
theorem withMemory (h : Blocks b chain free) {memory : Memory}
    (hlinks : ∀ a, links memory a = links b.memory a)
    (hpacked : Packed size.capacity memory chain) :
    Blocks ({ b with memory := memory } : BasicBuffer size) chain free where
  linked := h.linked.congr (fun a _ => hlinks a)
  free_linked := h.free_linked.congr (fun a _ => hlinks a)
  nodup := h.nodup
  allocated := h.allocated
  count := h.count
  tail_eq := h.tail_eq
  packed := hpacked

end Blocks

section Append

variable {b b' : BasicBuffer size} {chain new free : List Addr}

structure Keeps (b b' : BasicBuffer size) : Prop where
  bytes : ∀ a, (b'.memory a).buf = (b.memory a).buf
  dataSize : b'.dataSize = b.dataSize
  reserved : b'.reserved = b.reserved
  peeked : b'.peeked = b.peeked

theorem Keeps.refl (b : BasicBuffer size) : Keeps b b := ⟨fun _ => rfl, rfl, rfl, rfl⟩

theorem Keeps.trans {b'' : BasicBuffer size} (h : Keeps b b') (h' : Keeps b' b'') :
    Keeps b b'' where
  bytes := fun a => (h'.bytes a).trans (h.bytes a)
  dataSize := h'.dataSize.trans h.dataSize
  reserved := h'.reserved.trans h.reserved
  peeked := h'.peeked.trans h.peeked

theorem Keeps.store {a : Addr} {block : Block} (h : block.buf = (b.memory a).buf) :
    Keeps b (b.store a block) := ⟨update_buf h, rfl, rfl, rfl⟩

structure Appends (b b' : BasicBuffer size) (chain new : List Addr) : Prop extends
    Keeps b b' where
  headers : ∀ a ∈ chain,
    (b'.memory a).offset = (b.memory a).offset ∧ (b'.memory a).len = (b.memory a).len
  fresh : ∀ a ∈ new, (b'.memory a).offset = 0 ∧ (b'.memory a).len = 0

theorem Appends.refl (b : BasicBuffer size) (chain : List Addr) : Appends b b chain [] where
  toKeeps := .refl b
  headers := fun _ _ => ⟨rfl, rfl⟩
  fresh := by simp

theorem Appends.trans {b'' : BasicBuffer size} {new' : List Addr} (h : Appends b b' chain new)
    (h' : Appends b' b'' (chain ++ new) new') : Appends b b'' chain (new ++ new') where
  toKeeps := h.toKeeps.trans h'.toKeeps
  headers := by
    intro a ha
    have hsame := h'.headers a (List.mem_append_left new ha)
    rw [hsame.1, hsame.2]
    exact h.headers a ha
  fresh := by
    intro a ha
    rcases List.mem_append.mp ha with ha | ha
    · have hsame := h'.headers a (List.mem_append_right chain ha)
      rw [hsame.1, hsame.2]
      exact h.fresh a ha
    · exact h'.fresh a ha

theorem Appends.dataCells_eq (h : Appends b b' chain new) :
    dataCells b'.memory (chain ++ new) = dataCells b.memory chain := by
  rw [dataCells_append, dataCells_congr h.headers, dataCells_eq_nil (fun a ha => (h.fresh a ha).2),
    List.append_nil]

structure IsNew (b : BasicBuffer size) (chain : List Addr) (a brk : Addr) (freelist : Option Addr)
    (free : List Addr) : Prop where
  new_eq : b.new =
    (a, { b.store a (b.memory a).construct with brk := brk, freelist := freelist })
  nodup : (chain ++ a :: free).Nodup
  allocated : ∀ x ∈ chain ++ a :: free, x < brk
  free_linked : Linked (links b.memory) freelist free

section New

variable {a brk : Addr} {freelist : Option Addr}

theorem IsNew.ne_of_mem_chain (h : IsNew b chain a brk freelist free) : ∀ x ∈ chain, x ≠ a := by
  rintro x hx rfl
  exact (List.nodup_append.mp h.nodup).2.2 x hx x List.mem_cons_self rfl

theorem IsNew.ne_of_mem_free (h : IsNew b chain a brk freelist free) : ∀ x ∈ free, x ≠ a := by
  rintro x hx rfl
  exact (List.nodup_cons.mp (List.nodup_append.mp h.nodup).2.1).1 hx

end New

/-- A block taken from the free list or from the heap is in no chain. -/
theorem new_spec (h : Blocks b chain free) :
    ∃ a brk freelist free', IsNew b chain a brk freelist free' := by
  have hlink := h.free_linked
  cases free with
  | nil =>
    have hnone : b.freelist = none := hlink
    have hnew : b.new = (b.brk, { b.store b.brk (b.memory b.brk).construct with
        brk := b.brk + 1, freelist := b.freelist }) := by
      obtain ⟨memory, brk, freelist⟩ := b
      cases hnone
      rfl
    have hfresh : b.brk ∉ chain := by
      intro hmem
      exact lt_irrefl _ (h.allocated _ (List.mem_append_left _ hmem))
    refine ⟨b.brk, b.brk + 1, b.freelist, [], hnew, ?_, ?_, hlink⟩
    · rw [List.nodup_append]
      refine ⟨h.chain_nodup, List.nodup_singleton _, ?_⟩
      intro x hx y hy hxy
      rw [List.mem_singleton.mp hy] at hxy
      exact hfresh (hxy ▸ hx)
    · intro x hx
      rcases List.mem_append.mp hx with hx | hx
      · exact (h.allocated x (List.mem_append_left _ hx)).trans (Nat.lt_succ_self _)
      · rw [List.mem_singleton.mp hx]
        exact Nat.lt_succ_self _
  | cons a free' =>
    refine ⟨a, b.brk, (b.memory a).next, free', ?_, h.nodup, h.allocated, hlink.2⟩
    rw [BasicBuffer.new, hlink.1]
    rfl

/-- A layout whose chain was extended by one empty block is a layout again. -/
theorem Layout.append {a : Addr} {free' : List Addr} (h : Layout b chain free)
    (happ : Appends b b' chain [a]) (hlinked : Linked (links b'.memory) b'.head (chain ++ [a]))
    (hfree : Linked (links b'.memory) b'.freelist free')
    (hnodup : (chain ++ a :: free').Nodup) (halloc : ∀ x ∈ chain ++ a :: free', x < b'.brk)
    (hcount : b'.blockCnt = b.blockCnt + 1) (htail : b'.tail = some a)
    (hend : b'.endBlock = if chain = [] then some a else b.endBlock) :
    Layout b' (chain ++ [a]) free' := by
  have hfresh := happ.fresh a List.mem_cons_self
  refine ⟨⟨hlinked, hfree, ?_, ?_, ?_, ?_, ?_⟩, ?_, ?_⟩
  · rw [List.append_assoc]
    exact hnodup
  · rw [List.append_assoc]
    exact halloc
  · rw [hcount, h.count, List.length_append, List.length_singleton]
  · intro _
    rw [htail, List.getLast?_concat]
  · exact (h.packed.congr happ.headers).snoc hfresh.1 hfresh.2 size.capacity_pos
  · by_cases hnil : chain = []
    · refine ⟨[], [a], by rw [hnil], ?_, by simp, by simp, by simp⟩
      rw [hend, if_pos hnil]
      rfl
    · obtain ⟨full, rest, hchain, he, hfull, hrest, hempty⟩ := h.end_at
      have hne : rest ≠ [] := by
        intro hrnil
        rw [hrnil, hempty hrnil] at hchain
        exact hnil hchain
      refine ⟨full, rest ++ [a], by rw [hchain, List.append_assoc], ?_, ?_, ?_, by simp⟩
      · rw [hend, if_neg hnil, he, List.head?_append_of_ne_nil _ hne]
      · intro x hx
        have hsame := happ.headers x (hchain ▸ List.mem_append_left rest hx)
        rw [Block.spaceLen, hsame.1, hsame.2]
        exact hfull x hx
      · intro x hx
        rw [List.tail_append_of_ne_nil hne] at hx
        rcases List.mem_append.mp hx with hx | hx
        · have hmem : x ∈ chain := hchain ▸ List.mem_append_right full (List.mem_of_mem_tail hx)
          rw [(happ.headers x hmem).2]
          exact hrest x hx
        · rw [List.mem_singleton.mp hx]
          exact hfresh.2
  · rw [happ.dataSize, h.data_size, happ.dataCells_eq]

/-- The first block of an empty chain. -/
theorem appendNewBlock_nil {a brk : Addr} {freelist : Option Addr} {free' : List Addr}
    (h : Layout b [] free) (hnew : IsNew b [] a brk freelist free') : ∃ b',
    b.appendNewBlock = some b' ∧ b'.tail = some a ∧ links b'.memory a = none ∧
    Layout b' [a] free' ∧ Appends b b' [] [a] := by
  have hhead : b.head = none := h.linked
  have happend : b.appendNewBlock = some { b.store a (b.memory a).construct with
      brk := brk, freelist := freelist, head := some a, tail := some a, endBlock := some a,
      blockCnt := b.blockCnt + 1 } := by
    rw [appendNewBlock, hhead, hnew.new_eq]
    rfl
  have hself : Function.update b.memory a (b.memory a).construct a = (b.memory a).construct :=
    Function.update_self ..
  have hlink : links (Function.update b.memory a (b.memory a).construct) a = none := by
    rw [links, hself]
    rfl
  have happ : Appends b { b.store a (b.memory a).construct with
      brk := brk, freelist := freelist, head := some a, tail := some a, endBlock := some a,
      blockCnt := b.blockCnt + 1 } [] [a] := by
    refine ⟨⟨update_buf rfl, rfl, rfl, rfl⟩, by simp, ?_⟩
    intro x hx
    rw [List.mem_singleton.mp hx]
    exact ⟨congrArg Block.offset hself, congrArg Block.len hself⟩
  refine ⟨_, happend, rfl, hlink, ?_, happ⟩
  refine h.append happ ⟨rfl, hlink⟩ ?_ hnew.nodup hnew.allocated rfl rfl rfl
  exact hnew.free_linked.congr
    (fun x hx => congrArg Block.next (Function.update_of_ne (hnew.ne_of_mem_free x hx) _ _))

def linkBehind (memory : Memory) (t a : Addr) : Memory :=
  Function.update (Function.update memory a (memory a).construct) t
    { memory t with next := some a }

section LinkBehind

variable {memory : Memory} {t a : Addr}

theorem linkBehind_new (hta : t ≠ a) : linkBehind memory t a a = (memory a).construct := by
  rw [linkBehind, Function.update_of_ne hta.symm, Function.update_self]

theorem linkBehind_last : linkBehind memory t a t = { memory t with next := some a } :=
  Function.update_self ..

theorem linkBehind_of_ne {x : Addr} (hxa : x ≠ a) (hxt : x ≠ t) :
    linkBehind memory t a x = memory x := by
  rw [linkBehind, Function.update_of_ne hxt, Function.update_of_ne hxa]

theorem buf_linkBehind (x : Addr) : (linkBehind memory t a x).buf = (memory x).buf := by
  have hbuf (y : Addr) :
      (Function.update memory a (memory a).construct y).buf = (memory y).buf := by
    apply update_buf
    rfl
  rw [← hbuf x, linkBehind]
  apply update_buf
  exact (hbuf t).symm

end LinkBehind

/-- The last block gets a successor. -/
theorem appendNewBlock_concat {l : List Addr} {t a brk : Addr} {freelist : Option Addr}
    {free' : List Addr} (h : Layout b (l ++ [t]) free)
    (hnew : IsNew b (l ++ [t]) a brk freelist free') : ∃ b',
    b.appendNewBlock = some b' ∧ b'.tail = some a ∧ links b'.memory a = none ∧
    Layout b' (l ++ [t] ++ [a]) free' ∧ Appends b b' (l ++ [t]) [a] := by
  have hta : t ≠ a := hnew.ne_of_mem_chain t (by simp)
  have hlt : ∀ x ∈ l, x ≠ t := h.ne_of_mem_before
  obtain ⟨first, hfirst⟩ : ∃ first, b.head = some first := by
    rw [h.linked.head?_eq]
    exact Option.isSome_iff_exists.mp (by simp)
  have htail : b.tail = some t := by
    rw [h.tail_eq (by simp), List.getLast?_concat]
  have happend : b.appendNewBlock = some { b with
      memory := linkBehind b.memory t a, brk := brk, freelist := freelist, tail := some a,
      blockCnt := b.blockCnt + 1 } := by
    unfold appendNewBlock
    split
    case h_1 hnone =>
      rw [hfirst] at hnone
      cases hnone
    case h_2 =>
      simp only [htail, Option.bind_eq_bind, Option.bind_some, hnew.new_eq, store,
        Function.update_of_ne hta]
      rfl
  have hnewNext : links (linkBehind b.memory t a) a = none :=
    congrArg Block.next (linkBehind_new hta)
  have happ : Appends b { b with
      memory := linkBehind b.memory t a, brk := brk, freelist := freelist, tail := some a,
      blockCnt := b.blockCnt + 1 } (l ++ [t]) [a] := by
    refine ⟨⟨buf_linkBehind, rfl, rfl, rfl⟩, ?_, ?_⟩
    · intro x hx
      by_cases hxt : x = t
      · simp only [hxt, linkBehind_last, and_self]
      · simp only [linkBehind_of_ne (hnew.ne_of_mem_chain x hx) hxt, and_self]
    · intro x hx
      rw [List.mem_singleton.mp hx]
      exact ⟨congrArg Block.offset (linkBehind_new hta), congrArg Block.len (linkBehind_new hta)⟩
  refine ⟨_, happend, rfl, hnewNext, ?_, happ⟩
  refine h.append happ ?_ ?_ hnew.nodup hnew.allocated rfl rfl (by simp)
  · refine h.linked.snoc ?_ (congrArg Block.next linkBehind_last) hnewNext
    intro x hx
    exact congrArg Block.next
      (linkBehind_of_ne (hnew.ne_of_mem_chain x (List.mem_append_left _ hx)) (hlt x hx))
  · refine hnew.free_linked.congr (fun x hx => congrArg Block.next
      (linkBehind_of_ne (hnew.ne_of_mem_free x hx) ?_))
    rintro rfl
    exact (List.nodup_append.mp hnew.nodup).2.2 x (by simp) x (List.mem_cons_of_mem a hx) rfl

theorem appendNewBlock_spec (h : Layout b chain free) : ∃ a b' free',
    b.appendNewBlock = some b' ∧ b'.tail = some a ∧ links b'.memory a = none ∧
    Layout b' (chain ++ [a]) free' ∧ Appends b b' chain [a] := by
  obtain ⟨a, brk, freelist, free', hnew⟩ := new_spec h.toBlocks
  rcases List.eq_nil_or_concat chain with rfl | ⟨l, t, rfl⟩
  · obtain ⟨b', happend⟩ := appendNewBlock_nil h hnew
    exact ⟨a, b', free', happend⟩
  · rw [List.concat_eq_append] at *
    obtain ⟨b', happend⟩ := appendNewBlock_concat h hnew
    exact ⟨a, b', free', happend⟩

end Append

section Stepper

variable {b : BasicBuffer size} {chain done rem free : List Addr}

/-- A new stepper stands on the first block with space; all blocks before it are full. -/
theorem spaceStepper_spec (h : Layout b chain free) : ∃ done rem,
    chain = done ++ rem ∧ b.spaceStepper = rem.head? ∧
    (∀ a ∈ done, (b.memory a).spaceLen size.capacity = 0) ∧
    (∀ a ∈ rem, 0 < (b.memory a).spaceLen size.capacity) := by
  obtain ⟨full, rest, rfl, he, hfull, hrest, hempty⟩ := h.end_at
  unfold spaceStepper
  cases rest with
  | nil =>
    have hnone : b.endBlock = none := he
    refine ⟨full, [], rfl, by rw [hnone]; rfl, hfull, by simp⟩
  | cons e post =>
    have hsome : b.endBlock = some e := he
    have hpost : ∀ a ∈ post, 0 < (b.memory a).spaceLen size.capacity := by
      intro a ha
      exact h.packed.spaceLen_pos (by simp [ha]) (hrest a ha)
    simp only [hsome]
    by_cases hspace : (b.memory e).spaceLen size.capacity = 0
    · rw [if_pos hspace]
      refine ⟨full ++ [e], post, by simp, h.linked.next_eq, ?_, hpost⟩
      intro a ha
      rcases List.mem_append.mp ha with ha | ha
      · exact hfull a ha
      · rw [List.mem_singleton.mp ha]
        exact hspace
    · rw [if_neg hspace]
      refine ⟨full, e :: post, rfl, rfl, hfull, ?_⟩
      intro a ha
      rcases List.mem_cons.mp ha with rfl | ha
      · exact Nat.pos_of_ne_zero hspace
      · exact hpost a ha

/-- One step returns a block with space, the next of the chain or a new one. -/
theorem stepperNext_spec (h : Layout b (done ++ rem) free)
    (hrem : ∀ a ∈ rem, 0 < (b.memory a).spaceLen size.capacity) : ∃ a rem' new free' b',
    b.stepperNext rem.head? = some (a, rem'.head?, b') ∧ rem ++ new = a :: rem' ∧
    Layout b' (done ++ a :: rem') free' ∧ Appends b b' (done ++ rem) new ∧
    (∀ x ∈ a :: rem', 0 < (b'.memory x).spaceLen size.capacity) := by
  cases rem with
  | cons a rem' =>
    refine ⟨a, rem', [], free, b, ?_, List.append_nil _, h, Appends.refl b _, hrem⟩
    have hnext : links b.memory a = rem'.head? := h.linked.next_eq
    simp [stepperNext, ← hnext]
  | nil =>
    rw [List.append_nil] at h
    obtain ⟨a, b', free', happend, htail, hlink, hlayout, happ⟩ := appendNewBlock_spec h
    refine ⟨a, [], [a], free', b', ?_, rfl, hlayout, by rwa [List.append_nil], ?_⟩
    · have hnext : (b'.memory a).next = none := hlink
      simp [stepperNext, happend, htail, hnext]
    · intro x hx
      rw [List.mem_singleton.mp hx]
      have hfresh := happ.fresh a List.mem_cons_self
      rw [Block.spaceLen, hfresh.1, hfresh.2]
      exact size.capacity_pos

end Stepper

end PublicEndorsement.Proxy
