import PublicEndorsement.BufferTape

/-!
# Copying into and out of a buffer

`CopyIn` is a reservation, the writes that fill it and its commit; `CopyOut` is a
peek, the reads and the drain of what was read.
-/

namespace PublicEndorsement.Proxy

open BasicBuffer

variable {size : BlockSize} {b : BasicBuffer size} {data space : List Cell}

theorem writeAll_append (ps qs : List (Cell × UInt8)) :
    b.writeAll (ps ++ qs) = (b.writeAll ps).writeAll qs := List.foldl_append

/-- Copying span by span writes the bytes to the cells in order. -/
theorem writeSpans_eq {spans : List Span} {bytes : List UInt8}
    (h : (spans.flatMap Span.cells).length ≤ bytes.length) :
    writeSpans spans bytes b = writeAll b ((spans.flatMap Span.cells).zip bytes) := by
  induction spans generalizing bytes b with
  | nil => rfl
  | cons s spans ih =>
    rw [List.flatMap_cons, List.length_append, length_cells] at h
    have htake : s.cells.length = (bytes.take s.len).length := by
      rw [length_cells, List.length_take]
      omega
    have hfirst : s.cells.zip bytes = s.cells.zip (bytes.take s.len) := by
      conv_lhs => rw [← List.take_append_drop s.len bytes, ← List.append_nil s.cells,
        List.zip_append htake]
      rw [List.zip_nil_left, List.append_nil]
    have hall : (s.cells ++ spans.flatMap Span.cells).zip bytes =
        s.cells.zip (bytes.take s.len) ++ (spans.flatMap Span.cells).zip (bytes.drop s.len) := by
      rw [← List.zip_append htake, List.take_append_drop]
    rw [writeSpans, ih (by rw [List.length_drop]; omega), List.flatMap_cons, hall, hfirst,
      writeAll_append]

/-- Bytes written to the first free cells can be read back, and no data changes. -/
theorem IsTape.fill (h : IsTape b data space) {cells : List Cell} (hcells : cells <+: space)
    {bytes : List UInt8} (hle : bytes.length ≤ cells.length) :
    IsTape (b.writeAll (cells.zip bytes)) data space ∧
      (b.writeAll (cells.zip bytes)).reserved = b.reserved ∧
      (b.writeAll (cells.zip bytes)).peeked = b.peeked ∧
      (∀ c ∈ data, (b.writeAll (cells.zip bytes)).read c = b.read c) ∧
      (cells.take bytes.length).map (b.writeAll (cells.zip bytes)).read = bytes := by
  obtain ⟨htape, hres, hpeek, hother, hwritten⟩ := writeAll_spec (cells.zip bytes) h
  have hlen : (cells.take bytes.length).length = bytes.length := by
    rw [List.length_take, Nat.min_eq_left hle]
  have hzip : cells.zip bytes = (cells.take bytes.length).zip bytes := by
    conv_lhs => rw [← List.take_append_drop bytes.length cells, ← List.append_nil bytes,
      List.zip_append (by simpa using hlen)]
    rw [List.zip_nil_right, List.append_nil, List.append_nil]
  have hfst : (cells.zip bytes).map Prod.fst = cells.take bytes.length := by
    rw [hzip, List.map_fst_zip hlen.le]
  rw [hfst] at hother hwritten
  refine ⟨htape, hres, hpeek, ?_, ?_⟩
  · intro c hc
    refine hother c (fun hmem => ?_)
    exact h.disjoint c (hcells.subset (List.mem_of_mem_take hmem)) hc
  · have hnodup : (cells.take bytes.length).Nodup :=
      h.space_nodup.sublist ((List.take_sublist _ _).trans hcells.sublist)
    have hbytes := hwritten hnodup
    rw [hzip] at hbytes ⊢
    calc (cells.take bytes.length).map (b.writeAll ((cells.take bytes.length).zip bytes)).read
        = (((cells.take bytes.length).zip bytes).map Prod.fst).map
            (b.writeAll ((cells.take bytes.length).zip bytes)).read := by
          rw [List.map_fst_zip hlen.le]
      _ = ((cells.take bytes.length).zip bytes).map Prod.snd := by
          rw [List.map_map]
          exact List.map_congr_left hbytes
      _ = bytes := List.map_snd_zip hlen.ge

theorem IsTape.copyIn (h : IsTape b data space) (hfree : b.reserved = false) {bytes : List UInt8}
    (hne : bytes ≠ []) :
    ∃ b' added space', b.copyIn bytes = some b' ∧ IsTape b' (data ++ added) space' ∧
      added.map b'.read = bytes ∧ (∀ c ∈ data, b'.read c = b.read c) ∧
      b'.reserved = false ∧ b'.peeked = b.peeked := by
  obtain ⟨spans, b₁, space₁, hreserve, htape₁, hcells, hle, hres₁, hpeek₁, hread₁⟩ :=
    h.reserve hfree bytes.length
  have hlen : (spans.flatMap Span.cells).length = bytes.length := by
    rw [hcells, List.length_take, Nat.min_eq_left hle]
  have hfront : spans.flatMap Span.cells <+: space₁ := hcells ▸ List.take_prefix _ _
  obtain ⟨htape₂, hres₂, hpeek₂, hdata, hbytes⟩ := htape₁.fill hfront hlen.ge
  have hspace₁ : space₁ ≠ [] := by
    intro hnil
    rw [hnil] at hle
    exact hne (List.length_eq_zero_iff.mp (Nat.le_zero.mp hle))
  obtain ⟨b', hcommit, htape', hres', hpeek', hread'⟩ :=
    htape₂.commit (hres₂.trans hres₁) hspace₁ hle
  refine ⟨b', space₁.take bytes.length, space₁.drop bytes.length, ?_, htape', ?_, ?_, hres',
    hpeek'.trans (hpeek₂.trans hpeek₁)⟩
  · rw [BasicBuffer.copyIn, hreserve]
    simp only [Option.bind_eq_bind, Option.bind_some]
    rw [writeSpans_eq hlen.le]
    exact hcommit
  · rw [← hlen, List.take_length] at hbytes
    rw [← hcells, funext hread']
    exact hbytes
  · intro c hc
    rw [hread', hdata c hc, hread₁]

theorem copyOutLoop_eq {n k : ℕ} (toNull : Bool) (spans : List Span) (hk : k ≤ n) :
    b.copyOutLoop n toNull spans k =
      (if toNull then [] else ((spans.flatMap Span.cells).take (n - k)).map b.read,
        k + min (n - k) (spans.flatMap Span.cells).length) := by
  induction spans generalizing k with
  | nil => simp [copyOutLoop]
  | cons s spans ih =>
    by_cases hn : 0 < n
    · have hcopy : (if n - k > s.len then s.len else n - k) = min (n - k) s.len := by
        split_ifs <;> omega
      have htake : s.cells.take (min (n - k) s.len) = s.cells.take (n - k) := by
        rw [← length_cells, List.take_eq_take_iff]
        omega
      have hrest : n - (k + min (n - k) s.len) = n - k - s.len := by omega
      rw [copyOutLoop, if_pos hn]
      simp only [hcopy, htake]
      rw [ih (by omega), hrest, List.flatMap_cons, List.take_append, List.length_append,
        length_cells, Prod.mk.injEq]
      constructor
      · cases toNull <;> simp
      · omega
    · obtain rfl : n = 0 := by omega
      obtain rfl : k = 0 := by omega
      simp [copyOutLoop]

theorem IsTape.copyOut (h : IsTape b data space) (hfree : b.peeked = false) (toNull : Bool)
    (n : ℕ) :
    ∃ b' space', b.copyOut toNull n = some
        (if toNull then [] else (data.take n).map b.read, min n data.length, b') ∧
      IsTape b' (data.drop n) space' ∧ (b.reserved = true → space' = space) ∧
      b'.peeked = false ∧ b'.reserved = b.reserved ∧ ∀ c, b'.read c = b.read c := by
  obtain ⟨spans, hpeek, hcells⟩ := h.peek hfree
  have hflag : IsTape ({ b with peeked := true } : BasicBuffer size) data space :=
    h.withFlags b.reserved true
  obtain ⟨b', space', hdrain, htape, hspace, hpeek', hres', hread'⟩ :=
    hflag.drain rfl (Nat.min_le_right n data.length)
  have hdrop : data.drop (min n data.length) = data.drop n := by
    rcases le_total n data.length with hle | hle
    · rw [Nat.min_eq_left hle]
    · rw [Nat.min_eq_right hle, List.drop_of_length_le hle, List.drop_length]
  refine ⟨b', space', ?_, hdrop ▸ htape, hspace, hpeek', hres', hread'⟩
  rw [BasicBuffer.copyOut, hpeek]
  simp only [Option.bind_eq_bind, Option.bind_some]
  rw [copyOutLoop_eq toNull spans (Nat.zero_le n), hcells, Nat.sub_zero, Nat.zero_add, hdrain]
  rfl

end PublicEndorsement.Proxy
