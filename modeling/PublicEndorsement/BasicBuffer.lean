import PublicEndorsement.LinkedChain

/-!
# The scatter-gather buffer of the proxy

`BasicBuffer` and its free list at the level of pointers: blocks live at addresses,
are chained by their `next` fields, and go back to the free list when they are used
up. A null dereference, a failed assertion or a loop that does not end makes an
operation return nothing.
-/

namespace PublicEndorsement.Proxy

abbrev Addr := ℕ

/-- `sizeof(Block)`: one pointer and two sizes. -/
def sizeofBlock : ℕ := 24

/-- The template parameter, with the static assertion on it. -/
structure BlockSize where
  value : ℕ
  larger : sizeofBlock < value

def BlockSize.capacity (size : BlockSize) : ℕ := size.value - sizeofBlock

theorem BlockSize.capacity_pos (size : BlockSize) : 0 < size.capacity := by
  have h := size.larger
  unfold capacity
  omega

structure Block where
  next : Option Addr
  offset : ℕ
  len : ℕ
  buf : ℕ → UInt8

namespace Block

variable (capacity : ℕ) (block : Block)

/-- The constructor writes the header and leaves the content as it is found. -/
def construct : Block := { next := none, offset := 0, len := 0, buf := block.buf }

def spaceLen : ℕ := capacity - block.offset - block.len

def commit (size : ℕ) : Block × ℕ :=
  let toCommit := if size < block.spaceLen capacity then size else block.spaceLen capacity
  ({ block with len := block.len + toCommit }, size - toCommit)

def drain (size : ℕ) : Block × ℕ :=
  let toDrain := if block.len < size then block.len else size
  ({ block with offset := block.offset + toDrain, len := block.len - toDrain }, size - toDrain)

end Block

/-- What `MakeSysBuf` describes: `len` bytes of a block from `&buf[start]` on. -/
structure Span where
  block : Addr
  start : ℕ
  len : ℕ
  deriving DecidableEq, Repr

abbrev Memory := Addr → Block

/-- A free list with the memory its blocks live in. Addresses from `brk` on have never
been allocated; `blocks` lists the free blocks from the head on. -/
structure Freelist where
  memory : Memory
  brk : Addr
  head : Option Addr
  blocks : List Addr
  linked : Linked (fun a => (memory a).next) head blocks
  nodup : blocks.Nodup
  allocated : ∀ a ∈ blocks, a < brk

def Freelist.empty (memory : Memory) : Freelist where
  memory := memory
  brk := 0
  head := none
  blocks := []
  linked := rfl
  nodup := List.nodup_nil
  allocated := by simp

structure BasicBuffer (size : BlockSize) where
  memory : Memory
  brk : Addr
  freelist : Option Addr
  head : Option Addr
  endBlock : Option Addr
  tail : Option Addr
  blockCnt : ℕ
  dataSize : ℕ
  reserved : Bool
  peeked : Bool

namespace BasicBuffer

variable {size : BlockSize}

def create (size : BlockSize) (freelist : Freelist) : BasicBuffer size where
  memory := freelist.memory
  brk := freelist.brk
  freelist := freelist.head
  head := none
  endBlock := none
  tail := none
  blockCnt := 0
  dataSize := 0
  reserved := false
  peeked := false

variable (b : BasicBuffer size)

def store (a : Addr) (block : Block) : BasicBuffer size :=
  { b with memory := Function.update b.memory a block }

def new : Addr × BasicBuffer size :=
  match b.freelist with
  | none => (b.brk, { b.store b.brk (b.memory b.brk).construct with brk := b.brk + 1 })
  | some a => (a, { b.store a (b.memory a).construct with freelist := (b.memory a).next })

def delete (a : Addr) : BasicBuffer size :=
  { b.store a { b.memory a with next := b.freelist } with freelist := some a }

def spaceSize : ℕ :=
  match b.head with
  | none => 0
  | some h => b.blockCnt * size.capacity - b.dataSize - (b.memory h).offset

/-- Called with its default count of one block only. -/
def appendNewBlock : Option (BasicBuffer size) :=
  match b.head with
  | none =>
    let (a, b) := b.new
    some { b with head := some a, tail := some a, endBlock := some a, blockCnt := b.blockCnt + 1 }
  | some _ => do
    let t ← b.tail
    let (a, b) := b.new
    some { b.store t { b.memory t with next := some a } with
      tail := some a, blockCnt := b.blockCnt + 1 }

def spaceStepper : Option Addr :=
  match b.endBlock with
  | none => none
  | some e => if (b.memory e).spaceLen size.capacity = 0 then (b.memory e).next else some e

def stepperNext (block : Option Addr) : Option (Addr × Option Addr × BasicBuffer size) :=
  match block with
  | some a => some (a, (b.memory a).next, b)
  | none => do
    let b ← b.appendNewBlock
    let a ← b.tail
    some (a, (b.memory a).next, b)

def reserveLoop (fuel remaining : ℕ) (block : Option Addr) (b : BasicBuffer size) :
    Option (List Span × BasicBuffer size) :=
  if remaining = 0 then some ([], b)
  else match fuel with
    | 0 => none
    | fuel + 1 => do
      let (a, block, b) ← b.stepperNext block
      let spaceLen := if remaining ≥ (b.memory a).spaceLen size.capacity
        then (b.memory a).spaceLen size.capacity else remaining
      let (spans, b') ← reserveLoop fuel (remaining - spaceLen) block b
      some (⟨a, (b.memory a).offset + (b.memory a).len, spaceLen⟩ :: spans, b')

/-- Every round reserves something, so `n` rounds are enough. -/
def reserve (n : ℕ) : Option (List Span × BasicBuffer size) :=
  if b.reserved then none
  else reserveLoop n n b.spaceStepper { b with reserved := true }

def reserveAtLeastLoop (fuel n reservedSize : ℕ) (block : Option Addr) (b : BasicBuffer size) :
    Option (List Span × ℕ × BasicBuffer size) :=
  if n ≤ reservedSize then some ([], reservedSize, b)
  else match fuel with
    | 0 => none
    | fuel + 1 => do
      let (a, block, b) ← b.stepperNext block
      let spaceLen := (b.memory a).spaceLen size.capacity
      let (spans, total, b') ← reserveAtLeastLoop fuel n (reservedSize + spaceLen) block b
      some (⟨a, (b.memory a).offset + (b.memory a).len, spaceLen⟩ :: spans, total, b')

/-- The spans, and the size that was reserved in the end. -/
def reserveAtLeast (n : ℕ) : Option (List Span × ℕ × BasicBuffer size) :=
  if b.reserved then none
  else reserveAtLeastLoop n n 0 b.spaceStepper { b with reserved := true }

def commitLoop (fuel remaining : ℕ) (block : Option Addr) (b : BasicBuffer size) :
    Option (BasicBuffer size) :=
  if remaining = 0 then some b
  else match fuel with
    | 0 => none
    | fuel + 1 => do
      let (a, block, b) ← b.stepperNext block
      let (committed, rest) := (b.memory a).commit size.capacity remaining
      commitLoop fuel rest block { b.store a committed with endBlock := some a }

def commit (n : ℕ) : Option (BasicBuffer size) :=
  if b.reserved && b.head.isSome && n ≤ b.spaceSize then do
    let b ← commitLoop n n b.spaceStepper b
    some { b with dataSize := b.dataSize + n, reserved := false }
  else none

def peekLoop (fuel : ℕ) (block : Option Addr) : Option (List Span) :=
  match block with
  | none => some []
  | some a =>
    if 0 < (b.memory a).len then
      match fuel with
      | 0 => none
      | fuel + 1 => do
        let spans ← peekLoop fuel (b.memory a).next
        some (⟨a, (b.memory a).offset, (b.memory a).len⟩ :: spans)
    else some []

def peek : Option (List Span × BasicBuffer size) :=
  if b.peeked then none
  else do
    let spans ← b.peekLoop b.blockCnt b.head
    some (spans, { b with peeked := true })

def drainLoop (fuel remaining : ℕ) (b : BasicBuffer size) : Option (BasicBuffer size) :=
  if remaining = 0 then some b
  else match fuel with
    | 0 => none
    | fuel + 1 => do
      let h ← b.head
      let (drained, rest) := (b.memory h).drain remaining
      let b := b.store h drained
      if drained.len = 0 ∧ drained.spaceLen size.capacity = 0 then
        drainLoop fuel rest
          { b.delete h with blockCnt := b.blockCnt - 1, head := drained.next }
      else drainLoop fuel rest b

/-- Once everything is drained the end block is the head block, and the head block
starts over unless space in it may be reserved. -/
def drain (n : ℕ) : Option (BasicBuffer size) :=
  if b.peeked && n ≤ b.dataSize then do
    let b ← drainLoop n n b
    let b := { b with dataSize := b.dataSize - n, peeked := false }
    let b := if b.dataSize = 0 then { b with endBlock := b.head } else b
    match b.head with
    | some h =>
      if b.dataSize = 0 ∧ b.reserved = false then some (b.store h { b.memory h with offset := 0 })
      else some b
    | none => some b
  else none

abbrev Cell := Addr × ℕ

def write (c : Cell) (x : UInt8) : BasicBuffer size :=
  b.store c.1 { b.memory c.1 with buf := Function.update (b.memory c.1).buf c.2 x }

def read (c : Cell) : UInt8 := (b.memory c.1).buf c.2

end BasicBuffer

def Span.cells (s : Span) : List BasicBuffer.Cell := (List.range' s.start s.len).map (s.block, ·)

namespace BasicBuffer

variable {size : BlockSize} (b : BasicBuffer size)

def readSpans (spans : List Span) : List UInt8 := (spans.flatMap Span.cells).map b.read

def writeAll (ps : List (Cell × UInt8)) : BasicBuffer size :=
  ps.foldl (fun b p => b.write p.1 p.2) b

/-- The `memcpy` calls of `CopyIn`. -/
def writeSpans : List Span → List UInt8 → BasicBuffer size → BasicBuffer size
  | [], _, b => b
  | s :: spans, from_, b => writeSpans spans (from_.drop s.len)
      (b.writeAll (s.cells.zip from_))

def copyIn (from_ : List UInt8) : Option (BasicBuffer size) := do
  let (buffers, b) ← b.reserve from_.length
  (writeSpans buffers from_ b).commit from_.length

def copyOutLoop (n : ℕ) (toNull : Bool) : List Span → ℕ → List UInt8 × ℕ
  | [], sizeCopied => ([], sizeCopied)
  | s :: spans, sizeCopied =>
    if 0 < n then
      let remaining := n - sizeCopied
      let toCopy := if remaining > s.len then s.len else remaining
      let copied := if toNull then [] else (s.cells.take toCopy).map b.read
      let (rest, total) := copyOutLoop n toNull spans (sizeCopied + toCopy)
      (copied ++ rest, total)
    else ([], sizeCopied)

def copyOut (toNull : Bool) (n : ℕ) : Option (List UInt8 × ℕ × BasicBuffer size) := do
  let (buffers, b) ← b.peek
  let (copied, sizeCopied) := b.copyOutLoop n toNull buffers 0
  let b ← b.drain sizeCopied
  some (copied, sizeCopied, b)

end BasicBuffer
end PublicEndorsement.Proxy
