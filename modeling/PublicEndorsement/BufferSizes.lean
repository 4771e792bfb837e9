import PublicEndorsement.BasicBuffer

/-!
# How much a buffer holds

What each operation does to `data_size_`, and how far `ReserveAtLeast` goes beyond what
it was asked for. None of this depends on how the blocks are laid out.
-/

namespace PublicEndorsement.Proxy.BasicBuffer

variable {size : BlockSize} {b b' : BasicBuffer size}

theorem dataSize_new (b : BasicBuffer size) : b.new.2.dataSize = b.dataSize := by
  rw [new]
  split <;> rfl

theorem dataSize_appendNewBlock (h : b.appendNewBlock = some b') : b'.dataSize = b.dataSize := by
  rw [appendNewBlock] at h
  split at h
  · cases h
    exact dataSize_new b
  · obtain ⟨t, -, h⟩ := Option.bind_eq_some_iff.mp h
    cases h
    exact dataSize_new b

theorem dataSize_stepperNext {block next : Option Addr} {a : Addr}
    (h : b.stepperNext block = some (a, next, b')) : b'.dataSize = b.dataSize := by
  cases block with
  | some a' =>
    cases h
    rfl
  | none =>
    obtain ⟨b₁, hgrown, hlast⟩ := Option.bind_eq_some_iff.mp h
    obtain ⟨t, -, hlast⟩ := Option.bind_eq_some_iff.mp hlast
    cases hlast
    exact dataSize_appendNewBlock hgrown

/-- The loop stops with the first block that is enough. -/
theorem reserveAtLeastLoop_size {fuel n reservedSize total : ℕ} {block : Option Addr}
    {spans : List Span}
    (h : reserveAtLeastLoop fuel n reservedSize block b = some (spans, total, b')) :
    b'.dataSize = b.dataSize ∧ reservedSize + (spans.map Span.len).sum = total ∧
      (reservedSize < n + size.capacity → total < n + size.capacity) := by
  induction fuel generalizing reservedSize block b spans with
  | zero =>
    rw [reserveAtLeastLoop] at h
    split_ifs at h
    cases h
    exact ⟨rfl, rfl, id⟩
  | succ fuel ih =>
    rw [reserveAtLeastLoop] at h
    split_ifs at h with hdone
    · cases h
      exact ⟨rfl, rfl, id⟩
    · obtain ⟨⟨a, next, b₁⟩, hnext, h⟩ := Option.bind_eq_some_iff.mp h
      obtain ⟨⟨rest, total', b₂⟩, hrest, h⟩ := Option.bind_eq_some_iff.mp h
      cases h
      obtain ⟨hdata, htotal, hlt⟩ := ih hrest
      have hspace : (b₁.memory a).spaceLen size.capacity ≤ size.capacity := by
        rw [Block.spaceLen]
        omega
      refine ⟨hdata.trans (dataSize_stepperNext hnext), ?_, fun _ => hlt (by omega)⟩
      rw [List.map_cons, List.sum_cons, ← Nat.add_assoc]
      exact htotal

theorem reserveAtLeast_size {n total : ℕ} {spans : List Span}
    (h : b.reserveAtLeast n = some (spans, total, b')) :
    b'.dataSize = b.dataSize ∧ (spans.map Span.len).sum < n + size.capacity := by
  rw [reserveAtLeast] at h
  split_ifs at h
  obtain ⟨hdata, htotal, hlt⟩ := reserveAtLeastLoop_size h
  have hpos := size.capacity_pos
  rw [Nat.zero_add] at htotal
  rw [htotal]
  exact ⟨hdata, hlt (by omega)⟩

theorem dataSize_commitLoop {fuel remaining : ℕ} {block : Option Addr}
    (h : commitLoop fuel remaining block b = some b') : b'.dataSize = b.dataSize := by
  induction fuel generalizing remaining block b with
  | zero =>
    rw [commitLoop] at h
    split_ifs at h
    cases h
    rfl
  | succ fuel ih =>
    rw [commitLoop] at h
    split_ifs at h
    · cases h
      rfl
    · obtain ⟨⟨a, next, b₁⟩, hnext, h⟩ := Option.bind_eq_some_iff.mp h
      have hrest := ih h
      rw [← dataSize_stepperNext hnext]
      exact hrest

theorem dataSize_commit {n : ℕ} (h : b.commit n = some b') : b'.dataSize = b.dataSize + n := by
  rw [commit] at h
  split_ifs at h
  obtain ⟨b₁, hloop, h⟩ := Option.bind_eq_some_iff.mp h
  cases h
  exact congrArg (· + n) (dataSize_commitLoop hloop)

theorem dataSize_peek {spans : List Span} (h : b.peek = some (spans, b')) :
    b'.dataSize = b.dataSize := by
  rw [peek] at h
  split_ifs at h
  obtain ⟨_, -, h⟩ := Option.bind_eq_some_iff.mp h
  cases h
  rfl

theorem dataSize_drainLoop {fuel remaining : ℕ} (h : drainLoop fuel remaining b = some b') :
    b'.dataSize = b.dataSize := by
  induction fuel generalizing remaining b with
  | zero =>
    rw [drainLoop] at h
    split_ifs at h
    cases h
    rfl
  | succ fuel ih =>
    rw [drainLoop] at h
    split_ifs at h
    · cases h
      rfl
    · obtain ⟨a, -, h⟩ := Option.bind_eq_some_iff.mp h
      dsimp only at h
      split_ifs at h
      · have hrest := ih h
        exact hrest
      · have hrest := ih h
        exact hrest

theorem dataSize_drain {n : ℕ} (h : b.drain n = some b') : b'.dataSize = b.dataSize - n := by
  rw [drain] at h
  split_ifs at h
  obtain ⟨b₁, hloop, h⟩ := Option.bind_eq_some_iff.mp h
  have hdata : b₁.dataSize - n = b.dataSize - n := by rw [dataSize_drainLoop hloop]
  simp only [apply_ite BasicBuffer.head, ite_self] at h
  split at h
  · split_ifs at h <;> cases h <;> exact hdata
  · split_ifs at h <;> cases h <;> exact hdata

@[simp] theorem dataSize_writeAll (ps : List (Cell × UInt8)) :
    (b.writeAll ps).dataSize = b.dataSize := by
  induction ps generalizing b with
  | nil => rfl
  | cons p ps ih => exact ih

theorem dataSize_copyOut {toNull : Bool} {n copied : ℕ} {bytes : List UInt8}
    (h : b.copyOut toNull n = some (bytes, copied, b')) : b'.dataSize ≤ b.dataSize := by
  obtain ⟨⟨spans, b₁⟩, hpeek, h⟩ := Option.bind_eq_some_iff.mp h
  obtain ⟨b₂, hdrain, h⟩ := Option.bind_eq_some_iff.mp h
  cases h
  rw [dataSize_drain hdrain, dataSize_peek hpeek]
  exact Nat.sub_le _ _

end PublicEndorsement.Proxy.BasicBuffer
