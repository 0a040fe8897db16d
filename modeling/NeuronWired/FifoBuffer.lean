import NeuronWired.Cint

/-!
# FifoBuffer — the byte-shifting packet queue (`Fifo_buffer.cpp`)

`index` counts bytes and `num_items` counts items, both as `int32_t`; the bound checks mix them
with the unsigned `item_size`, so they are made in `uint32_t`.
-/

namespace NeuronWired

/-- `INTERNAL_BUFFER_SIZE`. -/
def internalBufferSize : ℕ := 3000

/-- `Fifo_buffer`. -/
structure FifoBuffer where
  itemSize : ℕ
  internalBuffer : Bytes
  index : ℤ
  numItems : ℤ
  deriving DecidableEq, Repr

namespace FifoBuffer

/-- The constructor. -/
def new (itemSize : ℕ) : FifoBuffer :=
  { itemSize := itemSize, internalBuffer := List.replicate internalBufferSize 0,
    index := 0, numItems := 0 }

/-- `memcpy( internal_buffer + off, src, .. )` for a signed offset; what falls in front of the array
or behind it does not change the array. -/
def memcpyAt (dst : Bytes) (off : ℤ) (src : Bytes) : Bytes :=
  if 0 ≤ off then memcpy dst off.toNat src else memcpy dst 0 (src.drop (-off).toNat)

/-- `put`. -/
def put (f : FifoBuffer) (item : Bytes) : Bool × FifoBuffer :=
  if u32 (f.index + f.itemSize) ≤ internalBufferSize then
    (true, { f with
      internalBuffer := memcpyAt f.internalBuffer f.index (item.take f.itemSize)
      index := i32 (f.index + f.itemSize)
      numItems := i32 (f.numItems + 1) })
  else (false, f)

/-- The inner loop of `forward_fifo`: `n` bytes moved forward by `item_size`, from `count` on. -/
def moveBytes (itemSize : ℕ) : ℕ → ℕ → Bytes → Bytes
  | 0, _, buf => buf
  | n + 1, count, buf =>
    moveBytes itemSize n (count + 1) (buf.set count (buf.getD (itemSize + count) 0))

/-- `forward_fifo`: `num_items - 1` items of `item_size` bytes are moved one item forward, and the
item behind them is cleared. -/
def forwardFifo (f : FifoBuffer) : FifoBuffer :=
  let n := (f.numItems - 1).toNat * f.itemSize
  { f with internalBuffer :=
      memcpy (moveBytes f.itemSize n 0 f.internalBuffer) n (List.replicate f.itemSize 0) }

/-- The counters after one item has gone. -/
def dropCounters (f : FifoBuffer) : FifoBuffer :=
  { f with index := i32 (f.index - f.itemSize), numItems := i32 (f.numItems - 1) }

/-- `get`: the returned size and the bytes of the destination. -/
def get (f : FifoBuffer) : (ℕ × Bytes) × FifoBuffer :=
  if f.index = 0 then ((0, List.replicate f.itemSize 0), f)
  else ((f.itemSize, f.internalBuffer.take f.itemSize), f.forwardFifo.dropCounters)

/-- `removeOne`. -/
def removeOne (f : FifoBuffer) : ℕ × FifoBuffer := (f.itemSize, f.forwardFifo.dropCounters)

/-- `peek`. -/
def peek (f : FifoBuffer) : ℕ × Bytes :=
  if f.index = 0 then (0, List.replicate f.itemSize 0)
  else (f.itemSize, f.internalBuffer.take f.itemSize)

/-- `is_empty`. -/
def isEmpty (f : FifoBuffer) : Bool := decide (f.index ≤ 0)

/-- `is_full`. -/
def isFull (f : FifoBuffer) : Bool := decide (internalBufferSize < u32 (f.index + f.itemSize))

/-- `get_num_items`. -/
def getNumItems (f : FifoBuffer) : ℕ := u32 f.numItems

end FifoBuffer

end NeuronWired
