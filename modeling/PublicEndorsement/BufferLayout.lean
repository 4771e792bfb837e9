import PublicEndorsement.BasicBuffer

/-!
# How a buffer lies in memory

The blocks of a buffer form a chain whose data lies without gaps in front of its
free space. Seen through its cells a buffer is a tape: committing moves the border
between data and space, draining cuts cells off the front, and appending a block
adds cells at the back.
-/

namespace PublicEndorsement.Proxy

open BasicBuffer

section Cells

variable (a s m n : ℕ)

@[simp] theorem length_cells (s : Span) : s.cells.length = s.len := by
  simp [Span.cells]

theorem cells_append : (⟨a, s, m + n⟩ : Span).cells = (⟨a, s, m⟩ : Span).cells ++
    (⟨a, s + m, n⟩ : Span).cells := by
  simp only [Span.cells, ← List.map_append]
  rw [List.range'_append_1]

theorem take_cells {k n : ℕ} (h : k ≤ n) :
    (⟨a, s, n⟩ : Span).cells.take k = (⟨a, s, k⟩ : Span).cells := by
  obtain ⟨j, rfl⟩ := Nat.exists_eq_add_of_le h
  rw [cells_append]
  exact List.take_left' (length_cells _)

theorem drop_cells {k n : ℕ} (h : k ≤ n) :
    (⟨a, s, n⟩ : Span).cells.drop k = (⟨a, s + k, n - k⟩ : Span).cells := by
  obtain ⟨j, rfl⟩ := Nat.exists_eq_add_of_le h
  rw [cells_append, Nat.add_sub_cancel_left]
  exact List.drop_left' (length_cells _)

theorem mem_cells {c : Cell} : c ∈ (⟨a, s, n⟩ : Span).cells ↔ c.1 = a ∧ s ≤ c.2 ∧ c.2 < s + n := by
  obtain ⟨x, i⟩ := c
  simp [Span.cells, List.mem_range'_1]
  tauto

theorem nodup_cells : (⟨a, s, n⟩ : Span).cells.Nodup :=
  List.Nodup.map (fun _ _ h => (Prod.mk.inj h).2) List.nodup_range'

end Cells

section Tape

variable (capacity : ℕ) (memory memory' : Memory)

def dataSpan (a : Addr) : Span := ⟨a, (memory a).offset, (memory a).len⟩

def spaceSpan (a : Addr) : Span :=
  ⟨a, (memory a).offset + (memory a).len, (memory a).spaceLen capacity⟩

def dataCells (chain : List Addr) : List Cell := chain.flatMap (fun a => (dataSpan memory a).cells)

def spaceCells (chain : List Addr) : List Cell :=
  chain.flatMap (fun a => (spaceSpan capacity memory a).cells)

@[simp] theorem dataCells_nil : dataCells memory [] = [] := rfl
@[simp] theorem spaceCells_nil : spaceCells capacity memory [] = [] := rfl

@[simp] theorem dataCells_cons (a : Addr) (l : List Addr) :
    dataCells memory (a :: l) = (dataSpan memory a).cells ++ dataCells memory l := rfl

@[simp] theorem spaceCells_cons (a : Addr) (l : List Addr) :
    spaceCells capacity memory (a :: l) =
      (spaceSpan capacity memory a).cells ++ spaceCells capacity memory l := rfl

@[simp] theorem dataCells_append (l r : List Addr) :
    dataCells memory (l ++ r) = dataCells memory l ++ dataCells memory r := List.flatMap_append

@[simp] theorem spaceCells_append (l r : List Addr) :
    spaceCells capacity memory (l ++ r) =
      spaceCells capacity memory l ++ spaceCells capacity memory r := List.flatMap_append

variable {capacity memory memory'}

theorem dataCells_eq_nil {l : List Addr} (h : ∀ a ∈ l, (memory a).len = 0) :
    dataCells memory l = [] := by
  rw [dataCells, List.flatMap_eq_nil_iff]
  intro a ha
  simp [dataSpan, Span.cells, h a ha]

theorem spaceCells_eq_nil {l : List Addr} (h : ∀ a ∈ l, (memory a).spaceLen capacity = 0) :
    spaceCells capacity memory l = [] := by
  rw [spaceCells, List.flatMap_eq_nil_iff]
  intro a ha
  simp [spaceSpan, Span.cells, h a ha]

theorem len_eq_zero_of_dataCells {l : List Addr} (h : dataCells memory l = []) :
    ∀ a ∈ l, (memory a).len = 0 := by
  intro a ha
  rw [dataCells, List.flatMap_eq_nil_iff] at h
  have hlen := congrArg List.length (h a ha)
  simpa [dataSpan] using hlen

/-- The cells of a chain are read off the headers of its blocks. -/
theorem dataCells_congr {l : List Addr} (h : ∀ a ∈ l,
    (memory' a).offset = (memory a).offset ∧ (memory' a).len = (memory a).len) :
    dataCells memory' l = dataCells memory l := by
  refine List.flatMap_congr (fun a ha => ?_)
  rw [dataSpan, dataSpan, (h a ha).1, (h a ha).2]

theorem spaceCells_congr {l : List Addr} (h : ∀ a ∈ l,
    (memory' a).offset = (memory a).offset ∧ (memory' a).len = (memory a).len) :
    spaceCells capacity memory' l = spaceCells capacity memory l := by
  refine List.flatMap_congr (fun a ha => ?_)
  simp only [spaceSpan, Block.spaceLen, (h a ha).1, (h a ha).2]

theorem mem_dataCells {l : List Addr} {c : Cell} : c ∈ dataCells memory l ↔
    c.1 ∈ l ∧ (memory c.1).offset ≤ c.2 ∧ c.2 < (memory c.1).offset + (memory c.1).len := by
  simp only [dataCells, List.mem_flatMap, dataSpan, mem_cells]
  constructor
  · rintro ⟨a, ha, rfl, hrest⟩
    exact ⟨ha, hrest⟩
  · rintro ⟨ha, hrest⟩
    exact ⟨c.1, ha, rfl, hrest⟩

theorem mem_spaceCells {l : List Addr} {c : Cell} : c ∈ spaceCells capacity memory l ↔
    c.1 ∈ l ∧ (memory c.1).offset + (memory c.1).len ≤ c.2 ∧
      c.2 < (memory c.1).offset + (memory c.1).len + (memory c.1).spaceLen capacity := by
  simp only [spaceCells, List.mem_flatMap, spaceSpan, mem_cells]
  constructor
  · rintro ⟨a, ha, rfl, hrest⟩
    exact ⟨ha, hrest⟩
  · rintro ⟨ha, hrest⟩
    exact ⟨c.1, ha, rfl, hrest⟩

/-- No cell holds data and is free at the same time. -/
theorem notMem_dataCells_of_mem_spaceCells {l : List Addr} {c : Cell}
    (h : c ∈ spaceCells capacity memory l) : c ∉ dataCells memory l := by
  intro hdata
  have hspace := (mem_spaceCells.mp h).2.1
  have hlt := (mem_dataCells.mp hdata).2.2
  omega

theorem nodup_spaceCells {l : List Addr} (h : l.Nodup) : (spaceCells capacity memory l).Nodup := by
  rw [spaceCells, List.nodup_flatMap]
  refine ⟨fun a _ => nodup_cells _ _ _, h.imp ?_⟩
  intro a a' hne c hc hc'
  have ha := (mem_cells _ _ _).mp hc
  have ha' := (mem_cells _ _ _).mp hc'
  exact hne (ha.1.symm.trans ha'.1)

end Tape

section Shape

variable {capacity : ℕ} {memory memory' : Memory} {a : Addr} {l r : List Addr}

/-- No block is used up, only the first may have been drained from, and no data lies
behind free space. -/
structure Packed (capacity : ℕ) (memory : Memory) (chain : List Addr) : Prop where
  fits : ∀ a ∈ chain, (memory a).offset < capacity ∧ (memory a).offset + (memory a).len ≤ capacity
  offset_zero : ∀ a ∈ chain.tail, (memory a).offset = 0
  contiguous : chain.Pairwise (fun a a' => (memory a).spaceLen capacity = 0 ∨ (memory a').len = 0)

theorem Packed.congr (h : Packed capacity memory l) (hsame : ∀ a ∈ l,
    (memory' a).offset = (memory a).offset ∧ (memory' a).len = (memory a).len) :
    Packed capacity memory' l := by
  refine ⟨?_, ?_, ?_⟩
  · intro a ha
    rw [(hsame a ha).1, (hsame a ha).2]
    exact h.fits a ha
  · intro a ha
    rw [(hsame a (List.mem_of_mem_tail ha)).1]
    exact h.offset_zero a ha
  · refine h.contiguous.imp_of_mem ?_
    intro a a' ha ha' hor
    rw [Block.spaceLen, (hsame a ha).1, (hsame a ha).2, (hsame a' ha').2]
    exact hor

theorem Packed.tail (h : Packed capacity memory (a :: l)) : Packed capacity memory l where
  fits := fun x hx => h.fits x (List.mem_cons_of_mem a hx)
  offset_zero := fun x hx => h.offset_zero x (List.mem_of_mem_tail hx)
  contiguous := (List.pairwise_cons.mp h.contiguous).2

theorem Packed.suffix (h : Packed capacity memory (l ++ r)) : Packed capacity memory r := by
  induction l with
  | nil => exact h
  | cons a l ih => exact ih h.tail

theorem Packed.spaceLen_pos (h : Packed capacity memory l) (ha : a ∈ l)
    (hlen : (memory a).len = 0) :
    0 < (memory a).spaceLen capacity := by
  have hfits := (h.fits a ha).1
  unfold Block.spaceLen
  omega

theorem Packed.len_eq_zero (h : Packed capacity memory (a :: l))
    (hspace : 0 < (memory a).spaceLen capacity) : ∀ x ∈ l, (memory x).len = 0 := by
  intro x hx
  rcases (List.pairwise_cons.mp h.contiguous).1 x hx with hzero | hlen
  · omega
  · exact hlen

theorem Packed.snoc (h : Packed capacity memory l) (hoffset : (memory a).offset = 0)
    (hlen : (memory a).len = 0) (hcap : 0 < capacity) : Packed capacity memory (l ++ [a]) := by
  refine ⟨?_, ?_, ?_⟩
  · intro x hx
    rcases List.mem_append.mp hx with hx | hx
    · exact h.fits x hx
    · rw [List.mem_singleton.mp hx, hoffset, hlen]
      omega
  · intro x hx
    cases l with
    | nil => simp at hx
    | cons y l =>
      rcases List.mem_append.mp hx with hx | hx
      · exact h.offset_zero x hx
      · rw [List.mem_singleton.mp hx, hoffset]
  · rw [List.pairwise_append]
    refine ⟨h.contiguous, List.pairwise_singleton _ _, ?_⟩
    intro x _ y hy
    rw [List.mem_singleton.mp hy]
    exact .inr hlen

/-- Committing into the first block with space keeps the shape. -/
theorem Packed.commit (h : Packed capacity memory (l ++ a :: r)) (hnodup : (l ++ a :: r).Nodup)
    (hfull : ∀ x ∈ l, (memory x).spaceLen capacity = 0) {block : Block} {k : ℕ}
    (hoffset : block.offset = (memory a).offset) (hlen : block.len = (memory a).len + k)
    (hk : k ≤ (memory a).spaceLen capacity) :
    Packed capacity (Function.update memory a block) (l ++ a :: r) := by
  have hal : ∀ x ∈ l, x ≠ a := by
    rintro x hx rfl
    exact (List.nodup_append.mp hnodup).2.2 x hx x List.mem_cons_self rfl
  have har : ∀ x ∈ r, x ≠ a := by
    rintro x hx rfl
    exact (List.nodup_cons.mp (List.nodup_append.mp hnodup).2.1).1 hx
  have hoff : ∀ x, (Function.update memory a block x).offset = (memory x).offset := by
    intro x
    by_cases hx : x = a
    · rw [hx, Function.update_self, hoffset]
    · rw [Function.update_of_ne hx]
  refine ⟨?_, ?_, ?_⟩
  · intro x hx
    have hfits := h.fits x hx
    by_cases hxa : x = a
    · rw [hxa] at hfits ⊢
      rw [Function.update_self, hoffset, hlen]
      unfold Block.spaceLen at hk
      omega
    · rw [Function.update_of_ne hxa]
      exact hfits
  · intro x hx
    rw [hoff]
    exact h.offset_zero x hx
  · obtain ⟨hl, har', hcross⟩ := List.pairwise_append.mp h.contiguous
    obtain ⟨ha, hr⟩ := List.pairwise_cons.mp har'
    rw [List.pairwise_append, List.pairwise_cons]
    refine ⟨?_, ⟨?_, ?_⟩, ?_⟩
    · refine hl.imp_of_mem ?_
      intro x y hx hy hor
      rw [Function.update_of_ne (hal x hx), Function.update_of_ne (hal y hy)]
      exact hor
    · intro y hy
      rw [Function.update_self, Function.update_of_ne (har y hy)]
      rcases ha y hy with hzero | hy0
      · left
        unfold Block.spaceLen at hzero ⊢
        omega
      · exact .inr hy0
    · refine hr.imp_of_mem ?_
      intro x y hx hy hor
      rw [Function.update_of_ne (har x hx), Function.update_of_ne (har y hy)]
      exact hor
    · intro x hx y hy
      rw [Function.update_of_ne (hal x hx)]
      exact .inl (hfull x hx)

/-- Draining from the first block keeps the shape unless it uses the block up. -/
theorem Packed.drain (h : Packed capacity memory (a :: l)) (ha : a ∉ l) {block : Block} {k : ℕ}
    (hoffset : block.offset = (memory a).offset + k) (hlen : block.len = (memory a).len - k)
    (hk : k ≤ (memory a).len) (hleft : 0 < block.len ∨ 0 < block.spaceLen capacity) :
    Packed capacity (Function.update memory a block) (a :: l) := by
  have hne : ∀ x ∈ l, x ≠ a := by
    rintro x hx rfl
    exact ha hx
  have hfits := h.fits a List.mem_cons_self
  refine ⟨?_, ?_, ?_⟩
  · intro x hx
    rcases List.mem_cons.mp hx with rfl | hx
    · rw [Function.update_self]
      unfold Block.spaceLen at hleft
      omega
    · rw [Function.update_of_ne (hne x hx)]
      exact h.fits x (List.mem_cons_of_mem a hx)
  · intro x hx
    rw [Function.update_of_ne (hne x hx)]
    exact h.offset_zero x hx
  · obtain ⟨hhead, hrest⟩ := List.pairwise_cons.mp h.contiguous
    rw [List.pairwise_cons]
    constructor
    · intro x hx
      rw [Function.update_self, Function.update_of_ne (hne x hx)]
      rcases hhead x hx with hzero | hx0
      · left
        unfold Block.spaceLen at hzero ⊢
        omega
      · exact .inr hx0
    · refine hrest.imp_of_mem ?_
      intro x y hx hy hor
      rw [Function.update_of_ne (hne x hx), Function.update_of_ne (hne y hy)]
      exact hor

end Shape

end PublicEndorsement.Proxy
