import NeuronWired.Cint

/-!
# TuFifo — the byte FIFO of the USB stack (`tusb_fifo.c`)

The indices run over `0 .. 2 * depth`, so that a full FIFO is told from an empty one.  A write never moves
the read index: a FIFO that was overrun has more than `depth` bytes between its indices, and the next read
puts the read index right.  Items are bytes; they are copied from and to increasing addresses.
-/

namespace NeuronWired

/-- `tu_fifo_t`. -/
structure TuFifo where
  buffer : Bytes
  depth : ℕ
  overwritable : Bool
  wrIdx : ℕ
  rdIdx : ℕ
  deriving DecidableEq, Repr

/-- `tu_fifo_buffer_info_t`.  A pointer is the place in the buffer. -/
structure TuFifoBufferInfo where
  lenLin : ℕ
  lenWrap : ℕ
  ptrLin : Option ℕ
  ptrWrap : Option ℕ
  deriving DecidableEq, Repr

/-! ## Indices -/

/-- `_ff_count`. -/
def ffCount (depth wrIdx rdIdx : ℕ) : ℕ :=
  if wrIdx ≥ rdIdx then u16 ((wrIdx : ℤ) - rdIdx) else u16 (2 * depth - ((rdIdx : ℤ) - wrIdx))

/-- `_ff_remaining`. -/
def ffRemaining (depth wrIdx rdIdx : ℕ) : ℕ :=
  let count := ffCount depth wrIdx rdIdx
  if depth > count then u16 ((depth : ℤ) - count) else 0

/-- `advance_index`. -/
def advanceIndex (depth idx offset : ℕ) : ℕ :=
  let newIdx := u16 ((idx + offset : ℕ) : ℤ)
  if idx > newIdx ∨ newIdx ≥ 2 * depth then
    let nonUsedIndexSpace := u16 (65535 - (2 * (depth : ℤ) - 1))
    u16 ((newIdx + nonUsedIndexSpace : ℕ) : ℤ)
  else newIdx

/-- The loop of `idx2ptr`, for as many passes as there is fuel. -/
def idx2ptrLoop (depth : ℕ) : ℕ → ℕ → ℕ
  | 0, idx => idx
  | fuel + 1, idx => if idx ≥ depth then idx2ptrLoop depth fuel (idx - depth) else idx

/-- `idx2ptr`.  Every pass takes at least one off, unless the depth is 0: then the source does not return. -/
def idx2ptr (depth idx : ℕ) : ℕ := idx2ptrLoop depth idx idx

namespace TuFifo

variable (f : TuFifo)

/-- `_ff_correct_read_index`. -/
def ffCorrectReadIndex (wrIdx : ℕ) : ℕ × TuFifo :=
  let rdIdx := if wrIdx ≥ f.depth then u16 ((wrIdx : ℤ) - f.depth) else u16 ((wrIdx + f.depth : ℕ) : ℤ)
  (rdIdx, { f with rdIdx := rdIdx })

/-! ## Pull and push -/

/-- `_ff_push`. -/
def ffPush (appBuf : UInt8) (rel : ℕ) : TuFifo := { f with buffer := memcpy f.buffer rel [appBuf] }

/-- `_ff_push_n`. -/
def ffPushN (appBuf : Bytes) (n wrPtr : ℕ) : TuFifo :=
  let linCount := u16 ((f.depth : ℤ) - wrPtr)
  let wrapCount := u16 ((n : ℤ) - linCount)
  if n ≤ linCount then { f with buffer := memcpy f.buffer wrPtr (appBuf.take n) }
  else
    let lin := memcpy f.buffer wrPtr (appBuf.take linCount)
    { f with buffer := memcpy lin 0 ((appBuf.drop linCount).take wrapCount) }

/-- `_ff_pull`. -/
def ffPull (rel : ℕ) : UInt8 := f.buffer.getD rel 0

/-- `_ff_pull_n`. -/
def ffPullN (n rdPtr : ℕ) : Bytes :=
  let linCount := u16 ((f.depth : ℤ) - rdPtr)
  let wrapCount := u16 ((n : ℤ) - linCount)
  if n ≤ linCount then (f.buffer.drop rdPtr).take n
  else (f.buffer.drop rdPtr).take linCount ++ f.buffer.take wrapCount

/-! ## Peeks -/

/-- `_tu_fifo_peek`. -/
def peekAt (wrIdx rdIdx : ℕ) : Option UInt8 × TuFifo :=
  let cnt := ffCount f.depth wrIdx rdIdx
  if cnt = 0 then (none, f)
  else
    let (rdIdx, f) := if cnt > f.depth then f.ffCorrectReadIndex wrIdx else (rdIdx, f)
    (some (f.ffPull (idx2ptr f.depth rdIdx)), f)

/-- `_tu_fifo_peek_n`: how many bytes were copied, and which. -/
def peekNAt (n wrIdx rdIdx : ℕ) : (ℕ × Bytes) × TuFifo :=
  let cnt := ffCount f.depth wrIdx rdIdx
  if cnt = 0 then ((0, []), f)
  else
    let (rdIdx, f, cnt) :=
      if cnt > f.depth then
        let (rdIdx, f) := f.ffCorrectReadIndex wrIdx
        (rdIdx, f, f.depth)
      else (rdIdx, f, cnt)
    let n := if cnt < n then cnt else n
    ((n, f.ffPullN n (idx2ptr f.depth rdIdx)), f)

/-! ## The interface -/

/-- `tu_fifo_count`. -/
def count : ℕ := min (ffCount f.depth f.wrIdx f.rdIdx) f.depth

/-- `tu_fifo_empty`. -/
def empty : Bool := f.wrIdx = f.rdIdx

/-- `tu_fifo_full`. -/
def full : Bool := ffCount f.depth f.wrIdx f.rdIdx ≥ f.depth

/-- `tu_fifo_remaining`. -/
def remaining : ℕ := ffRemaining f.depth f.wrIdx f.rdIdx

/-- `tu_fifo_overflowed`. -/
def overflowed : Bool := ffCount f.depth f.wrIdx f.rdIdx > f.depth

/-- `tu_fifo_correct_read_pointer`. -/
def correctReadPointer : TuFifo := (f.ffCorrectReadIndex f.wrIdx).2

/-- `tu_fifo_peek`. -/
def peek : Option UInt8 × TuFifo := f.peekAt f.wrIdx f.rdIdx

/-- `tu_fifo_peek_n`. -/
def peekN (n : ℕ) : (ℕ × Bytes) × TuFifo := f.peekNAt n f.wrIdx f.rdIdx

/-- `tu_fifo_read`. -/
def read : Option UInt8 × TuFifo :=
  let (ret, f) := f.peekAt f.wrIdx f.rdIdx
  (ret, { f with rdIdx := advanceIndex f.depth f.rdIdx ret.isSome.toNat })

/-- `tu_fifo_read_n`. -/
def readN (n : ℕ) : (ℕ × Bytes) × TuFifo :=
  let (ret, f) := f.peekNAt n f.wrIdx f.rdIdx
  (ret, { f with rdIdx := advanceIndex f.depth f.rdIdx ret.1 })

/-- `tu_fifo_write`. -/
def write (data : UInt8) : Bool × TuFifo :=
  if f.full = true ∧ f.overwritable = false then (false, f)
  else
    let f := f.ffPush data (idx2ptr f.depth f.wrIdx)
    (true, { f with wrIdx := advanceIndex f.depth f.wrIdx 1 })

/-- What `tu_fifo_write_n` writes, how much of it, and from which index on. -/
def writeArgs (data : Bytes) (n : ℕ) : Bytes × ℕ × ℕ :=
  if f.overwritable = false then (data, min n (ffRemaining f.depth f.wrIdx f.rdIdx), f.wrIdx)
  else if n ≥ f.depth then
    -- only the last part is copied, to the place of the read index
    (data.drop (n - f.depth), f.depth, f.rdIdx)
  else if ffCount f.depth f.wrIdx f.rdIdx + n ≥ 2 * f.depth then
    -- overrun twice: the write index is put where the FIFO is full afterwards
    (data, n, advanceIndex f.depth f.rdIdx (u16 ((f.depth : ℤ) - n)))
  else (data, n, f.wrIdx)

/-- `tu_fifo_write_n`. -/
def writeN (data : Bytes) (n : ℕ) : ℕ × TuFifo :=
  if n = 0 then (0, f)
  else
    let (buf8, n, wrIdx) := f.writeArgs data n
    if n ≠ 0 then
      let f := f.ffPushN buf8 n (idx2ptr f.depth wrIdx)
      (n, { f with wrIdx := advanceIndex f.depth wrIdx n })
    else (n, f)

/-- `tu_fifo_clear`. -/
def clear : TuFifo := { f with rdIdx := 0, wrIdx := 0 }

/-- `tu_fifo_set_overwritable`. -/
def setOverwritable (overwritable : Bool) : TuFifo := { f with overwritable := overwritable }

/-- `tu_fifo_advance_write_pointer`. -/
def advanceWritePointer (n : ℕ) : TuFifo := { f with wrIdx := advanceIndex f.depth f.wrIdx n }

/-- `tu_fifo_advance_read_pointer`. -/
def advanceReadPointer (n : ℕ) : TuFifo := { f with rdIdx := advanceIndex f.depth f.rdIdx n }

/-- `tu_fifo_get_read_info`. -/
def getReadInfo : TuFifoBufferInfo × TuFifo :=
  let cnt := ffCount f.depth f.wrIdx f.rdIdx
  let (rdIdx, f, cnt) :=
    if cnt > f.depth then
      let (rdIdx, f) := f.ffCorrectReadIndex f.wrIdx
      (rdIdx, f, f.depth)
    else (f.rdIdx, f, cnt)
  if cnt = 0 then (⟨0, 0, none, none⟩, f)
  else
    let wrPtr := idx2ptr f.depth f.wrIdx
    let rdPtr := idx2ptr f.depth rdIdx
    if wrPtr > rdPtr then (⟨cnt, 0, some rdPtr, none⟩, f)
    else
      let lenLin := u16 ((f.depth : ℤ) - rdPtr)
      (⟨lenLin, u16 ((cnt : ℤ) - lenLin), some rdPtr, some 0⟩, f)

/-- `tu_fifo_get_write_info`. -/
def getWriteInfo : TuFifoBufferInfo :=
  let remain := ffRemaining f.depth f.wrIdx f.rdIdx
  if remain = 0 then ⟨0, 0, none, none⟩
  else
    let wrPtr := idx2ptr f.depth f.wrIdx
    let rdPtr := idx2ptr f.depth f.rdIdx
    if wrPtr < rdPtr then ⟨u16 ((rdPtr : ℤ) - wrPtr), 0, some wrPtr, none⟩
    else
      let lenLin := u16 ((f.depth : ℤ) - wrPtr)
      ⟨lenLin, u16 ((remain : ℤ) - lenLin), some wrPtr, some 0⟩

end TuFifo

/-- `tu_fifo_config`, for items of one byte. -/
def tuFifoConfig (f : TuFifo) (buffer : Bytes) (depth : ℕ) (overwritable : Bool) : Bool × TuFifo :=
  if depth > 0x8000 then (false, f)
  else (true, { buffer := buffer, depth := depth, overwritable := overwritable, rdIdx := 0, wrIdx := 0 })

end NeuronWired
