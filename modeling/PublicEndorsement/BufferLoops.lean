import PublicEndorsement.BufferBlocks

/-!
# The loops of a buffer

Each loop of the buffer walks the chain of blocks, one block a round. On the tape of
cells a round of `Reserve` passes over free cells, a round of `Commit` moves the
border between data and space, and a round of `Drain` cuts cells off the front.
-/

namespace PublicEndorsement.Proxy

open BasicBuffer

variable {size : BlockSize} {b : BasicBuffer size} {chain done rem free : List Addr}

section Reserve

theorem Appends.spaceSpan_eq {b' : BasicBuffer size} {new : List Addr} {a : Addr}
    (h : Appends b b' chain new) (ha : a ∈ chain) :
    spaceSpan size.capacity b'.memory a = spaceSpan size.capacity b.memory a := by
  have hsame := h.headers a ha
  rw [spaceSpan, spaceSpan, Block.spaceLen, Block.spaceLen, hsame.1, hsame.2]

/-- A walk that goes on from the block after `a` is a walk from `a` on. -/
theorem walk_cons {a : Addr} {rem' new₁ new₂ free₂ : List Addr} {b₁ b₂ : BasicBuffer size}
    (hsplit : rem ++ new₁ = a :: rem') (happ₁ : Appends b b₁ (done ++ rem) new₁)
    (hlayout : Layout b₂ (done ++ [a] ++ rem' ++ new₂) free₂)
    (happ₂ : Appends b₁ b₂ (done ++ [a] ++ rem') new₂) :
    Layout b₂ (done ++ rem ++ (new₁ ++ new₂)) free₂ ∧
      Appends b b₂ (done ++ rem) (new₁ ++ new₂) ∧
      spaceCells size.capacity b₂.memory (rem ++ (new₁ ++ new₂)) =
        (spaceSpan size.capacity b₁.memory a).cells ++
          spaceCells size.capacity b₂.memory (rem' ++ new₂) := by
  have hrest : rem ++ (new₁ ++ new₂) = a :: (rem' ++ new₂) := by
    rw [← List.append_assoc, hsplit, List.cons_append]
  have hchain : done ++ rem ++ new₁ = done ++ [a] ++ rem' := by
    rw [List.append_assoc, hsplit, List.append_assoc, List.singleton_append]
  refine ⟨?_, ?_, ?_⟩
  · rw [← List.append_assoc, hchain]
    exact hlayout
  · refine happ₁.trans ?_
    rw [hchain]
    exact happ₂
  · rw [hrest, spaceCells_cons, happ₂.spaceSpan_eq (by simp)]

theorem reserveLoop_spec {fuel remaining : ℕ} (h : Layout b (done ++ rem) free)
    (hrem : ∀ a ∈ rem, 0 < (b.memory a).spaceLen size.capacity) (hfuel : remaining ≤ fuel) :
    ∃ spans new free' b', reserveLoop fuel remaining rem.head? b = some (spans, b') ∧
      Layout b' (done ++ rem ++ new) free' ∧ Appends b b' (done ++ rem) new ∧
      spans.flatMap Span.cells =
        (spaceCells size.capacity b'.memory (rem ++ new)).take remaining ∧
      remaining ≤ (spaceCells size.capacity b'.memory (rem ++ new)).length := by
  induction fuel generalizing b done rem free remaining with
  | zero =>
    obtain rfl : remaining = 0 := by omega
    exact ⟨[], [], free, b, by simp [reserveLoop], by simpa using h, .refl b _, rfl, by simp⟩
  | succ fuel ih =>
    by_cases hzero : remaining = 0
    · subst hzero
      exact ⟨[], [], free, b, by simp [reserveLoop], by simpa using h, .refl b _, rfl, by simp⟩
    obtain ⟨a, rem', new₁, free₁, b₁, hnext, hsplit, hlayout₁, happ₁, hrem₁⟩ :=
      stepperNext_spec h hrem
    have hspace := hrem₁ a List.mem_cons_self
    obtain ⟨len, hlen⟩ : ∃ len, len = if remaining ≥ (b₁.memory a).spaceLen size.capacity
        then (b₁.memory a).spaceLen size.capacity else remaining := ⟨_, rfl⟩
    have hbounds : len ≤ (b₁.memory a).spaceLen size.capacity ∧ 0 < len ∧ len ≤ remaining ∧
        remaining - len = remaining - (b₁.memory a).spaceLen size.capacity := by
      split_ifs at hlen <;> omega
    have hsmall : remaining - len ≤ fuel := by omega
    rw [List.append_cons] at hlayout₁
    obtain ⟨spans, new₂, free₂, b₂, hloop, hlayout₂, happ₂, hcells, hle⟩ :=
      ih hlayout₁ (fun x hx => hrem₁ x (List.mem_cons_of_mem a hx)) hsmall
    obtain ⟨hlayout, happ, hspaces⟩ := walk_cons hsplit happ₁ hlayout₂ happ₂
    refine ⟨⟨a, (b₁.memory a).offset + (b₁.memory a).len, len⟩ :: spans, new₁ ++ new₂, free₂, b₂,
      ?_, hlayout, happ, ?_, ?_⟩
    · rw [reserveLoop, if_neg hzero]
      simp only [hnext, Option.bind_eq_bind, Option.bind_some, ← hlen, hloop]
    · have hfirst : (spaceSpan size.capacity b₁.memory a).cells.take remaining =
          (⟨a, (b₁.memory a).offset + (b₁.memory a).len, len⟩ : Span).cells := by
        rw [← take_cells _ _ hbounds.1, spaceSpan]
        split_ifs at hlen with hcase
        · rw [hlen, List.take_of_length_le, List.take_of_length_le] <;> simp [hcase]
        · rw [hlen]
      rw [hspaces, List.take_append, hfirst, List.flatMap_cons, hcells, length_cells, hbounds.2.2.2]
      rfl
    · rw [hspaces, List.length_append, length_cells, spaceSpan]
      simp only
      omega

theorem reserveAtLeastLoop_spec {fuel n reservedSize : ℕ} (h : Layout b (done ++ rem) free)
    (hrem : ∀ a ∈ rem, 0 < (b.memory a).spaceLen size.capacity) (hfuel : n ≤ reservedSize + fuel) :
    ∃ spans total new free' b',
      reserveAtLeastLoop fuel n reservedSize rem.head? b = some (spans, total, b') ∧
      Layout b' (done ++ rem ++ new) free' ∧ Appends b b' (done ++ rem) new ∧
      spans.flatMap Span.cells =
        (spaceCells size.capacity b'.memory (rem ++ new)).take (total - reservedSize) ∧
      total - reservedSize ≤ (spaceCells size.capacity b'.memory (rem ++ new)).length ∧
      reservedSize ≤ total ∧ n ≤ total := by
  induction fuel generalizing b done rem free reservedSize with
  | zero =>
    have hdone : n ≤ reservedSize := by omega
    exact ⟨[], reservedSize, [], free, b, by simp [reserveAtLeastLoop, hdone], by simpa using h,
      .refl b _, by simp, by simp, le_refl _, hdone⟩
  | succ fuel ih =>
    by_cases hdone : n ≤ reservedSize
    · exact ⟨[], reservedSize, [], free, b, by simp [reserveAtLeastLoop, hdone], by simpa using h,
        .refl b _, by simp, by simp, le_refl _, hdone⟩
    obtain ⟨a, rem', new₁, free₁, b₁, hnext, hsplit, hlayout₁, happ₁, hrem₁⟩ :=
      stepperNext_spec h hrem
    have hspace := hrem₁ a List.mem_cons_self
    have hsmall : n ≤ reservedSize + (b₁.memory a).spaceLen size.capacity + fuel := by omega
    rw [List.append_cons] at hlayout₁
    obtain ⟨spans, total, new₂, free₂, b₂, hloop, hlayout₂, happ₂, hcells, hle, htotal, hn⟩ :=
      ih hlayout₁ (fun x hx => hrem₁ x (List.mem_cons_of_mem a hx)) hsmall
    obtain ⟨hlayout, happ, hspaces⟩ := walk_cons hsplit happ₁ hlayout₂ happ₂
    refine ⟨spaceSpan size.capacity b₁.memory a :: spans, total, new₁ ++ new₂, free₂, b₂, ?_,
      hlayout, happ, ?_, ?_, by omega, hn⟩
    · rw [reserveAtLeastLoop, if_neg hdone]
      simp only [hnext, Option.bind_eq_bind, Option.bind_some, hloop]
      rfl
    · have hfirst : (spaceSpan size.capacity b₁.memory a).cells.take (total - reservedSize) =
          (spaceSpan size.capacity b₁.memory a).cells := by
        apply List.take_of_length_le
        rw [length_cells, spaceSpan]
        simp only
        omega
      rw [hspaces, List.take_append, hfirst, List.flatMap_cons, hcells, length_cells,
        ← Nat.sub_sub]
      rfl
    · rw [hspaces, List.length_append, length_cells, spaceSpan]
      simp only
      omega

end Reserve

section Commit

variable {a : Addr} {k : ℕ}

def commitBlock (b : BasicBuffer size) (a : Addr) (k : ℕ) : BasicBuffer size :=
  { b.store a { b.memory a with len := (b.memory a).len + k } with endBlock := some a }

theorem commitBlock_self : (commitBlock b a k).memory a =
    { b.memory a with len := (b.memory a).len + k } := Function.update_self ..

theorem commitBlock_of_ne {x : Addr} (h : x ≠ a) : (commitBlock b a k).memory x = b.memory x :=
  Function.update_of_ne h _ _

theorem commitBlock_keeps : Keeps b (commitBlock b a k) := ⟨update_buf rfl, rfl, rfl, rfl⟩

/-- Committing `k` bytes into the first block with space turns the first `k` free cells
into data. -/
theorem commit_step (h : Blocks b (done ++ a :: rem) free)
    (hfull : ∀ x ∈ done, (b.memory x).spaceLen size.capacity = 0)
    (hspace : 0 < (b.memory a).spaceLen size.capacity)
    (hk : k ≤ (b.memory a).spaceLen size.capacity) :
    Blocks (commitBlock b a k) (done ++ a :: rem) free ∧
      EndAt size.capacity (commitBlock b a k).memory (commitBlock b a k).endBlock
        (done ++ a :: rem) ∧
      dataCells (commitBlock b a k).memory (done ++ a :: rem) =
        dataCells b.memory (done ++ a :: rem) ++
          (spaceCells size.capacity b.memory (done ++ a :: rem)).take k ∧
      spaceCells size.capacity (commitBlock b a k).memory (done ++ a :: rem) =
        (spaceCells size.capacity b.memory (done ++ a :: rem)).drop k := by
  have hdone : ∀ x ∈ done, (commitBlock b a k).memory x = b.memory x :=
    fun x hx => commitBlock_of_ne (h.ne_of_mem_before x hx)
  have hrem : ∀ x ∈ rem, (commitBlock b a k).memory x = b.memory x :=
    fun x hx => commitBlock_of_ne (h.ne_of_mem_after x hx)
  have hremLen : ∀ x ∈ rem, (b.memory x).len = 0 := h.packed.suffix.len_eq_zero hspace
  have hlinks : ∀ x, links (commitBlock b a k).memory x = links b.memory x := by
    intro x
    by_cases hx : x = a
    · rw [hx, links, commitBlock_self]
    · rw [links, commitBlock_of_ne hx]
  have hdoneSame : ∀ x ∈ done, ((commitBlock b a k).memory x).offset = (b.memory x).offset ∧
      ((commitBlock b a k).memory x).len = (b.memory x).len := by
    intro x hx
    rw [hdone x hx]
    exact ⟨rfl, rfl⟩
  have hremSame : ∀ x ∈ rem, ((commitBlock b a k).memory x).offset = (b.memory x).offset ∧
      ((commitBlock b a k).memory x).len = (b.memory x).len := by
    intro x hx
    rw [hrem x hx]
    exact ⟨rfl, rfl⟩
  have hspaceSpan : spaceSpan size.capacity (commitBlock b a k).memory a =
      ⟨a, (b.memory a).offset + (b.memory a).len + k,
        (b.memory a).spaceLen size.capacity - k⟩ := by
    simp only [spaceSpan, commitBlock_self, Block.spaceLen]
    congr 1 <;> omega
  refine ⟨?_, ?_, ?_, ?_⟩
  · exact (h.withMemory hlinks (h.packed.commit h.chain_nodup hfull rfl rfl hk)).withFields _ _ _ _
  · refine ⟨done, a :: rem, rfl, rfl, ?_, ?_, by simp⟩
    · intro x hx
      rw [hdone x hx]
      exact hfull x hx
    · intro x hx
      rw [hrem x hx]
      exact hremLen x hx
  · simp only [dataCells_append, dataCells_cons, spaceCells_append, spaceCells_cons,
      spaceCells_eq_nil hfull, List.nil_append, dataCells_eq_nil hremLen, List.append_nil,
      dataCells_congr hdoneSame, dataCells_congr hremSame]
    rw [List.take_append_of_le_length (by rw [length_cells]; exact hk), spaceSpan,
      take_cells _ _ hk, dataSpan, dataSpan, commitBlock_self, cells_append, List.append_assoc]
  · simp only [spaceCells_append, spaceCells_cons, spaceCells_eq_nil hfull, List.nil_append,
      spaceCells_congr hdoneSame, spaceCells_congr hremSame]
    rw [List.drop_append_of_le_length (by rw [length_cells]; exact hk), hspaceSpan, spaceSpan,
      drop_cells _ _ hk]

/-- A block that is filled up joins the full ones. -/
theorem commitBlock_full (h : Blocks b (done ++ a :: rem) free)
    (hfull : ∀ x ∈ done, (b.memory x).spaceLen size.capacity = 0) :
    ∀ x ∈ done ++ [a], ((commitBlock b a ((b.memory a).spaceLen size.capacity)).memory x).spaceLen
      size.capacity = 0 := by
  intro x hx
  rcases List.mem_append.mp hx with hx | hx
  · rw [commitBlock_of_ne (h.ne_of_mem_before x hx)]
    exact hfull x hx
  · rw [List.mem_singleton.mp hx, commitBlock_self]
    simp only [Block.spaceLen]
    omega

theorem commitLoop_spec {fuel remaining : ℕ} (h : Blocks b (done ++ rem) free)
    (hfull : ∀ x ∈ done, (b.memory x).spaceLen size.capacity = 0)
    (hrem : ∀ x ∈ rem, 0 < (b.memory x).spaceLen size.capacity)
    (hend : EndAt size.capacity b.memory b.endBlock (done ++ rem))
    (hle : remaining ≤ (spaceCells size.capacity b.memory (done ++ rem)).length)
    (hfuel : remaining ≤ fuel) :
    ∃ b', commitLoop fuel remaining rem.head? b = some b' ∧ Blocks b' (done ++ rem) free ∧
      EndAt size.capacity b'.memory b'.endBlock (done ++ rem) ∧ Keeps b b' ∧
      dataCells b'.memory (done ++ rem) = dataCells b.memory (done ++ rem) ++
        (spaceCells size.capacity b.memory (done ++ rem)).take remaining ∧
      spaceCells size.capacity b'.memory (done ++ rem) =
        (spaceCells size.capacity b.memory (done ++ rem)).drop remaining := by
  induction fuel generalizing b done rem remaining with
  | zero =>
    obtain rfl : remaining = 0 := by omega
    exact ⟨b, by simp [commitLoop], h, hend, .refl b, by simp, by simp⟩
  | succ fuel ih =>
    by_cases hzero : remaining = 0
    · subst hzero
      exact ⟨b, by simp [commitLoop], h, hend, .refl b, by simp, by simp⟩
    cases rem with
    | nil =>
      rw [List.append_nil, spaceCells_eq_nil hfull] at hle
      exact absurd (Nat.le_zero.mp hle) hzero
    | cons a rem =>
      have hspace := hrem a List.mem_cons_self
      have hnext : (b.memory a).next = rem.head? := h.linked.next_eq
      obtain ⟨k, hk⟩ : ∃ k, k = if remaining < (b.memory a).spaceLen size.capacity
        then remaining else (b.memory a).spaceLen size.capacity := ⟨_, rfl⟩
      have hbounds : k ≤ (b.memory a).spaceLen size.capacity ∧ 0 < k ∧ k ≤ remaining := by
        split_ifs at hk <;> omega
      have hround : commitLoop (fuel + 1) remaining (a :: rem).head? b =
          commitLoop fuel (remaining - k) rem.head? (commitBlock b a k) := by
        rw [commitLoop, if_neg hzero, ← hnext]
        simp only [List.head?_cons, stepperNext, Option.bind_eq_bind, Option.bind_some,
          Block.commit, ← hk]
        rfl
      obtain ⟨hblocks, hend₁, hdata, hspaces⟩ := commit_step h hfull hspace hbounds.1
      rw [hround]
      by_cases hlast : remaining < (b.memory a).spaceLen size.capacity
      · -- the block is not filled up, so this was the last round
        rw [if_pos hlast] at hk
        refine ⟨commitBlock b a k, ?_, hblocks, hend₁, commitBlock_keeps, hk ▸ hdata, hk ▸ hspaces⟩
        rw [hk, Nat.sub_self]
        unfold commitLoop
        rw [if_pos rfl]
      · rw [if_neg hlast] at hk
        have hdoneFull := hk ▸ commitBlock_full h hfull
        have hremSpace : ∀ x ∈ rem,
            0 < ((commitBlock b a k).memory x).spaceLen size.capacity := by
          intro x hx
          rw [commitBlock_of_ne (h.ne_of_mem_after x hx)]
          exact hrem x (List.mem_cons_of_mem a hx)
        have hleft : remaining - k ≤ (spaceCells size.capacity (commitBlock b a k).memory
            (done ++ a :: rem)).length := by
          rw [hspaces, List.length_drop]
          omega
        rw [List.append_cons] at hblocks hend₁ hdata hspaces hleft ⊢
        obtain ⟨b', hloop, hblocks', hend', hkeeps, hdata', hspaces'⟩ :=
          ih hblocks hdoneFull hremSpace hend₁ hleft (by omega)
        refine ⟨b', hloop, hblocks', hend', commitBlock_keeps.trans hkeeps, ?_, ?_⟩
        · rw [hdata', hdata, hspaces, List.append_assoc, ← List.take_add,
            Nat.add_sub_cancel' hbounds.2.2]
        · rw [hspaces', hspaces, List.drop_drop, Nat.add_sub_cancel' hbounds.2.2]

end Commit

section Peek

theorem peekLoop_spec {fuel : ℕ} {p : Option Addr} {l : List Addr}
    (hlinked : Linked (links b.memory) p l) (hpacked : Packed size.capacity b.memory l)
    (hfuel : l.length ≤ fuel) :
    ∃ spans, b.peekLoop fuel p = some spans ∧
      spans.flatMap Span.cells = dataCells b.memory l := by
  induction l generalizing fuel p with
  | nil =>
    cases hlinked
    exact ⟨[], by unfold peekLoop; rfl, rfl⟩
  | cons a l ih =>
    obtain ⟨rfl, hrest⟩ := hlinked
    by_cases hlen : 0 < (b.memory a).len
    · cases fuel with
      | zero => simp at hfuel
      | succ fuel =>
        obtain ⟨spans, hloop, hcells⟩ := ih hrest hpacked.tail (by simpa using hfuel)
        have hnext : b.peekLoop fuel (b.memory a).next = some spans := hloop
        refine ⟨dataSpan b.memory a :: spans, ?_, ?_⟩
        · rw [peekLoop, if_pos hlen]
          simp only [hnext, Option.bind_eq_bind, Option.bind_some]
          rfl
        · rw [List.flatMap_cons, hcells, dataCells_cons]
    · -- a block without data has space, so there is no data behind it
      have hzero : (b.memory a).len = 0 := by omega
      have hspace := hpacked.spaceLen_pos List.mem_cons_self hzero
      refine ⟨[], ?_, ?_⟩
      · unfold peekLoop
        simp only [hlen, if_false]
      · rw [dataCells_eq_nil]
        · rfl
        · intro x hx
          rcases List.mem_cons.mp hx with rfl | hx
          · exact hzero
          · exact hpacked.len_eq_zero hspace x hx

end Peek

section Drain

variable {h : Addr} {l : List Addr} {k : ℕ}

def drainBlock (b : BasicBuffer size) (h : Addr) (k : ℕ) : BasicBuffer size :=
  b.store h { b.memory h with offset := (b.memory h).offset + k, len := (b.memory h).len - k }

theorem drainBlock_self : (drainBlock b h k).memory h =
    { b.memory h with offset := (b.memory h).offset + k, len := (b.memory h).len - k } :=
  Function.update_self ..

theorem drainBlock_of_ne {x : Addr} (hx : x ≠ h) : (drainBlock b h k).memory x = b.memory x :=
  Function.update_of_ne hx _ _

theorem drainBlock_links (x : Addr) : links (drainBlock b h k).memory x = links b.memory x := by
  by_cases hx : x = h
  · rw [hx, links, drainBlock_self]
  · rw [links, drainBlock_of_ne hx]

theorem drainBlock_spaceLen (hk : k ≤ (b.memory h).len) (x : Addr) :
    ((drainBlock b h k).memory x).spaceLen size.capacity =
      (b.memory x).spaceLen size.capacity := by
  by_cases hx : x = h
  · rw [hx, drainBlock_self]
    simp only [Block.spaceLen]
    omega
  · rw [drainBlock_of_ne hx]

theorem drainBlock_len (x : Addr) : ((drainBlock b h k).memory x).len ≤ (b.memory x).len := by
  by_cases hx : x = h
  · rw [hx, drainBlock_self]
    exact Nat.sub_le _ _
  · rw [drainBlock_of_ne hx]

/-- Draining from the first block cuts cells off the front of the data. -/
theorem drainBlock_cells (hl : h ∉ l) (hk : k ≤ (b.memory h).len) :
    dataCells (drainBlock b h k).memory (h :: l) = (dataCells b.memory (h :: l)).drop k ∧
      spaceCells size.capacity (drainBlock b h k).memory (h :: l) =
        spaceCells size.capacity b.memory (h :: l) := by
  have hsame : ∀ x ∈ l, ((drainBlock b h k).memory x).offset = (b.memory x).offset ∧
      ((drainBlock b h k).memory x).len = (b.memory x).len := by
    intro x hx
    rw [drainBlock_of_ne (ne_of_mem_of_not_mem hx hl)]
    exact ⟨rfl, rfl⟩
  constructor
  · rw [dataCells_cons, dataCells_cons, dataCells_congr hsame,
      List.drop_append_of_le_length (by rw [length_cells]; exact hk), dataSpan, dataSpan,
      drop_cells _ _ hk, drainBlock_self]
  · rw [spaceCells_cons, spaceCells_cons, spaceCells_congr hsame, spaceSpan, spaceSpan,
      drainBlock_spaceLen hk, drainBlock_self]
    simp only
    rw [show (b.memory h).offset + k + ((b.memory h).len - k) =
      (b.memory h).offset + (b.memory h).len by omega]

def pruneHead (b : BasicBuffer size) (h : Addr) : BasicBuffer size :=
  { b.delete h with blockCnt := b.blockCnt - 1, head := (b.memory h).next }

theorem pruneHead_self : (pruneHead b h).memory h = { b.memory h with next := b.freelist } :=
  Function.update_self ..

theorem pruneHead_of_ne {x : Addr} (hx : x ≠ h) : (pruneHead b h).memory x = b.memory x :=
  Function.update_of_ne hx _ _

theorem pruneHead_keeps : Keeps b (pruneHead b h) := ⟨update_buf rfl, rfl, rfl, rfl⟩

theorem Blocks.head_notMem (hb : Blocks b (h :: l) free) : h ∉ l :=
  (List.nodup_cons.mp hb.chain_nodup).1

/-- The next block becomes the head, and the old head the first free block. -/
theorem Blocks.prune (hb : Blocks b (h :: l) free) :
    Blocks (pruneHead (drainBlock b h k) h) l (h :: free) := by
  have hother : ∀ x, x ≠ h → (pruneHead (drainBlock b h k) h).memory x = b.memory x := by
    intro x hx
    rw [pruneHead_of_ne hx, drainBlock_of_ne hx]
  have hl : ∀ x ∈ l, x ≠ h := fun x hx => ne_of_mem_of_not_mem hx hb.head_notMem
  have hfree : ∀ x ∈ free, x ≠ h := by
    rintro x hx rfl
    exact (List.nodup_append.mp hb.nodup).2.2 x List.mem_cons_self x hx rfl
  have hperm : (l ++ h :: free).Perm (h :: l ++ free) := List.perm_middle
  have hself : links (pruneHead (drainBlock b h k) h).memory h = b.freelist := by
    rw [links, pruneHead_self]
    rfl
  refine ⟨?_, ⟨rfl, ?_⟩, ?_, ?_, ?_, ?_, ?_⟩
  · have hhead : (pruneHead (drainBlock b h k) h).head = (b.memory h).next := by
      rw [pruneHead, drainBlock_self]
    rw [hhead]
    exact hb.linked.2.congr (fun x hx => congrArg Block.next (hother x (hl x hx)))
  · rw [hself]
    exact hb.free_linked.congr (fun x hx => congrArg Block.next (hother x (hfree x hx)))
  · exact hperm.nodup_iff.mpr hb.nodup
  · intro x hx
    exact hb.allocated x (hperm.mem_iff.mp hx)
  · have hcount := hb.count
    rw [List.length_cons] at hcount
    change b.blockCnt - 1 = l.length
    omega
  · intro hne
    have htail := hb.tail_eq (List.cons_ne_nil h l)
    rw [List.getLast?_cons_of_ne_nil hne] at htail
    exact htail
  · refine hb.packed.tail.congr (fun x hx => ?_)
    rw [hother x (hl x hx)]
    exact ⟨rfl, rfl⟩

/-- What a run of the drain loop does: it gives `pruned` back and keeps `chain'`. -/
structure Drains (b b' : BasicBuffer size) (chain chain' : List Addr) (n : ℕ) : Prop extends
    Keeps b b' where
  data : dataCells b'.memory chain' = (dataCells b.memory chain).drop n
  space : spaceCells size.capacity b'.memory chain' = spaceCells size.capacity b.memory chain
  endBlock : b'.endBlock = b.endBlock
  spaceLen : ∀ a ∈ chain',
    (b'.memory a).spaceLen size.capacity = (b.memory a).spaceLen size.capacity
  len : ∀ a ∈ chain', (b'.memory a).len ≤ (b.memory a).len

theorem Drains.refl (b : BasicBuffer size) (chain : List Addr) : Drains b b chain chain 0 where
  toKeeps := .refl b
  data := List.drop_zero.symm
  space := rfl
  endBlock := rfl
  spaceLen := fun _ _ => rfl
  len := fun _ _ => le_refl _

theorem Drains.trans {b₁ b₂ : BasicBuffer size} {chain₁ chain₂ : List Addr} {m n : ℕ}
    (h₁ : Drains b b₁ chain chain₁ m) (h₂ : Drains b₁ b₂ chain₁ chain₂ n)
    (hsub : chain₂ ⊆ chain₁) : Drains b b₂ chain chain₂ (m + n) where
  toKeeps := h₁.toKeeps.trans h₂.toKeeps
  data := by rw [h₂.data, h₁.data, List.drop_drop]
  space := h₂.space.trans h₁.space
  endBlock := h₂.endBlock.trans h₁.endBlock
  spaceLen := fun a ha => (h₂.spaceLen a ha).trans (h₁.spaceLen a (hsub ha))
  len := fun a ha => (h₂.len a ha).trans (h₁.len a (hsub ha))

theorem drainBlock_drains (hl : h ∉ l) (hk : k ≤ (b.memory h).len) :
    Drains b (drainBlock b h k) (h :: l) (h :: l) k where
  toKeeps := .store rfl
  data := (drainBlock_cells hl hk).1
  space := (drainBlock_cells hl hk).2
  endBlock := rfl
  spaceLen := fun a _ => drainBlock_spaceLen hk a
  len := fun a _ => drainBlock_len a

/-- A block that is given back takes no data and no space along. -/
theorem pruneHead_drains (hl : h ∉ l) (hlen : (b.memory h).len = 0)
    (hspace : (b.memory h).spaceLen size.capacity = 0) :
    Drains b (pruneHead b h) (h :: l) l 0 := by
  have hother : ∀ x ∈ l, (pruneHead b h).memory x = b.memory x :=
    fun x hx => pruneHead_of_ne (ne_of_mem_of_not_mem hx hl)
  have hsame : ∀ x ∈ l, ((pruneHead b h).memory x).offset = (b.memory x).offset ∧
      ((pruneHead b h).memory x).len = (b.memory x).len := by
    intro x hx
    rw [hother x hx]
    exact ⟨rfl, rfl⟩
  refine ⟨pruneHead_keeps, ?_, ?_, rfl, ?_, ?_⟩
  · rw [dataCells_congr hsame, dataCells_cons, dataSpan, hlen]
    rfl
  · rw [spaceCells_congr hsame, spaceCells_cons, spaceSpan, hspace]
    rfl
  · intro x hx
    rw [hother x hx]
  · intro x hx
    rw [hother x hx]

/-- While there is data, the head block has some. -/
theorem Blocks.head_len_pos (hb : Blocks b (h :: l) free)
    (hdata : dataCells b.memory (h :: l) ≠ []) : 0 < (b.memory h).len := by
  by_contra hnot
  have hlen : (b.memory h).len = 0 := by omega
  have hspace := hb.packed.spaceLen_pos List.mem_cons_self hlen
  refine hdata (dataCells_eq_nil ?_)
  intro x hx
  rcases List.mem_cons.mp hx with rfl | hx
  · exact hlen
  · exact hb.packed.len_eq_zero hspace x hx

/-- One round drains the head block, and gives it back if it is used up then. -/
theorem drainLoop_round {remaining : ℕ} (hb : Blocks b (h :: l) free) (hzero : remaining ≠ 0)
    (hle : remaining ≤ (dataCells b.memory (h :: l)).length) :
    ∃ n pruned chain' free' b', 0 < n ∧ n ≤ remaining ∧ h :: l = pruned ++ chain' ∧
      (∀ fuel, drainLoop (fuel + 1) remaining b = drainLoop fuel (remaining - n) b') ∧
      Blocks b' chain' free' ∧ Drains b b' (h :: l) chain' n := by
  have hhead : b.head = some h := hb.linked.1
  have hpos : 0 < (b.memory h).len := hb.head_len_pos (fun hnil => by
    rw [hnil] at hle
    exact hzero (Nat.le_zero.mp hle))
  obtain ⟨k, hk⟩ : ∃ k, k = if (b.memory h).len < remaining then (b.memory h).len
    else remaining := ⟨_, rfl⟩
  have hbounds : k ≤ (b.memory h).len ∧ 0 < k ∧ k ≤ remaining := by
    split_ifs at hk <;> omega
  have hstep := drainBlock_drains (b := b) hb.head_notMem hbounds.1
  have hround : ∀ fuel, drainLoop (fuel + 1) remaining b =
      if ((drainBlock b h k).memory h).len = 0 ∧
          ((drainBlock b h k).memory h).spaceLen size.capacity = 0 then
        drainLoop fuel (remaining - k) (pruneHead (drainBlock b h k) h)
      else drainLoop fuel (remaining - k) (drainBlock b h k) := by
    intro fuel
    rw [pruneHead, drainBlock_self, drainLoop, if_neg hzero, hhead]
    simp only [Option.bind_eq_bind, Option.bind_some, Block.drain, ← hk]
    rfl
  by_cases hused : ((drainBlock b h k).memory h).len = 0 ∧
      ((drainBlock b h k).memory h).spaceLen size.capacity = 0
  · have hprune := pruneHead_drains hb.head_notMem hused.1 hused.2
    refine ⟨k, [h], l, h :: free, pruneHead (drainBlock b h k) h, hbounds.2.1, hbounds.2.2, rfl,
      fun fuel => by rw [hround, if_pos hused], hb.prune, ?_⟩
    exact hstep.trans hprune (List.subset_cons_self h l)
  · refine ⟨k, [], h :: l, free, drainBlock b h k, hbounds.2.1, hbounds.2.2, rfl,
      fun fuel => by rw [hround, if_neg hused], ?_, hstep⟩
    refine hb.withMemory drainBlock_links (hb.packed.drain hb.head_notMem rfl rfl hbounds.1 ?_)
    rw [drainBlock_self] at hused
    omega

theorem drainLoop_spec {fuel remaining : ℕ} (hb : Blocks b chain free)
    (hle : remaining ≤ (dataCells b.memory chain).length) (hfuel : remaining ≤ fuel) :
    ∃ pruned chain' free' b', chain = pruned ++ chain' ∧ drainLoop fuel remaining b = some b' ∧
      Blocks b' chain' free' ∧ Drains b b' chain chain' remaining := by
  induction fuel generalizing b chain free remaining with
  | zero =>
    obtain rfl : remaining = 0 := by omega
    exact ⟨[], chain, free, b, rfl, by simp [drainLoop], hb, .refl b chain⟩
  | succ fuel ih =>
    by_cases hzero : remaining = 0
    · subst hzero
      exact ⟨[], chain, free, b, rfl, by simp [drainLoop], hb, .refl b chain⟩
    cases chain with
    | nil => exact absurd (Nat.le_zero.mp hle) hzero
    | cons h l =>
      obtain ⟨n, pruned₁, chain₁, free₁, b₁, hpos, hn, hsplit₁, hround, hblocks₁, hdrains₁⟩ :=
        drainLoop_round hb hzero hle
      have hleft : remaining - n ≤ (dataCells b₁.memory chain₁).length := by
        rw [hdrains₁.data, List.length_drop]
        omega
      obtain ⟨pruned₂, chain', free', b', hsplit₂, hloop, hblocks, hdrains⟩ :=
        ih hblocks₁ hleft (by omega)
      have hall := hdrains₁.trans hdrains (hsplit₂ ▸ List.subset_append_right pruned₂ chain')
      rw [Nat.add_sub_cancel' hn] at hall
      refine ⟨pruned₁ ++ pruned₂, chain', free', b', ?_, (hround fuel).trans hloop, hblocks, hall⟩
      rw [hsplit₁, hsplit₂, List.append_assoc]

end Drain

end PublicEndorsement.Proxy
