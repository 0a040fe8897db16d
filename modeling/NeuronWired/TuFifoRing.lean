import NeuronWired.Queue.ByteRing
import NeuronWired.Queue.Circular
import NeuronWired.Run.Basic
import NeuronWired.TuFifo

/-!
# TuFifoRing — the FIFO of the USB stack is a byte ring (`tusb_fifo.c`)

From the write index on, around the end, the buffer holds what was written last, the oldest byte first.
What the FIFO stores is the end of that, as long as the indices are apart.
-/

namespace NeuronWired

open Queue.Circular

/-! ## Index arithmetic -/

section Indices

variable {depth idx n wr rd : ℕ}

theorem idx2ptrLoop_eq (hpos : 0 < depth) {fuel : ℕ} (hfuel : idx ≤ fuel) :
    idx2ptrLoop depth fuel idx = idx % depth := by
  induction fuel generalizing idx with
  | zero =>
    obtain rfl : idx = 0 := by omega
    exact (Nat.zero_mod _).symm
  | succ fuel ih =>
    by_cases h : idx ≥ depth
    · rw [idx2ptrLoop, if_pos h, ih (by omega), Nat.mod_eq_sub_mod h]
    · rw [idx2ptrLoop, if_neg h, Nat.mod_eq_of_lt (by omega)]

/-- The loop of `idx2ptr` ends, and leaves the remainder. -/
theorem idx2ptr_eq (hpos : 0 < depth) : idx2ptr depth idx = idx % depth := idx2ptrLoop_eq hpos le_rfl

theorem ffCount_eq (hdepth : depth ≤ 0x8000) (hwr : wr < 2 * depth) (hrd : rd < 2 * depth) :
    ffCount depth wr rd = if rd ≤ wr then wr - rd else 2 * depth - (rd - wr) := by
  unfold ffCount u16
  split_ifs <;> omega

/-- The jump over the unused indices comes out in `0 .. 2 * depth`. -/
theorem advanceIndex_eq (hdepth : depth ≤ 0x8000) (hidx : idx < 2 * depth) (hn : n ≤ depth) :
    advanceIndex depth idx n =
      if idx + n < 2 * depth then idx + n else idx + n - 2 * depth := by
  unfold advanceIndex u16
  dsimp only
  split_ifs <;> omega

theorem advanceIndex_lt (hdepth : depth ≤ 0x8000) (hidx : idx < 2 * depth) (hn : n ≤ depth) :
    advanceIndex depth idx n < 2 * depth := by
  rw [advanceIndex_eq hdepth hidx hn]
  split_ifs <;> omega

theorem rotate_advanceIndex {cells : Bytes} (hlen : cells.length = depth) (hdepth : depth ≤ 0x8000)
    (hidx : idx < 2 * depth) (hn : n ≤ depth) :
    cells.rotate (advanceIndex depth idx n) = cells.rotate (idx + n) := by
  rw [advanceIndex_eq hdepth hidx hn]
  split_ifs with h
  · rfl
  · rw [← rotate_add_length, ← rotate_add_length, hlen]
    congr 1
    omega

end Indices

/-- A copy to the end of the buffer, and one to its start. -/
theorem memcpy_wrap {cells front back : Bytes} {p : ℕ} (hfront : p + front.length = cells.length)
    (hback : back.length ≤ p) :
    memcpy (memcpy cells p front) 0 back = back ++ (cells.take p).drop back.length ++ front := by
  have hlen : (cells.take p).length = p := List.length_take_of_le (by omega)
  have hlin : memcpy cells p front = cells.take p ++ front := by
    rw [memcpy_of_le (by omega), List.drop_of_length_le (by omega), List.append_nil]
  rw [hlin, memcpy_zero (by rw [List.length_append]; omega), List.drop_append_of_le_length (by omega),
    List.append_assoc]

namespace TuFifo

/-- The indices and the buffer of a FIFO that was configured. -/
structure Sound (f : TuFifo) : Prop where
  pos : 0 < f.depth
  depth : f.depth ≤ 0x8000
  size : f.buffer.length = f.depth
  wr : f.wrIdx < 2 * f.depth
  rd : f.rdIdx < 2 * f.depth

/-- How far the indices are apart. -/
def span (f : TuFifo) : ℕ := ffCount f.depth f.wrIdx f.rdIdx

/-- The last `depth` bytes that were written, the oldest first. -/
def history (f : TuFifo) : Bytes := f.buffer.rotate f.wrIdx

/-- What the FIFO stores, the oldest byte first. -/
def contents (f : TuFifo) : Bytes := f.history.drop (f.depth - min f.span f.depth)

section Contents

variable {f : TuFifo} (h : f.Sound)

include h

theorem Sound.span_eq :
    f.span = if f.rdIdx ≤ f.wrIdx then f.wrIdx - f.rdIdx else 2 * f.depth - (f.rdIdx - f.wrIdx) :=
  ffCount_eq h.depth h.wr h.rd

theorem Sound.span_lt : f.span < 2 * f.depth := by
  have hpos := h.pos
  have hwr := h.wr
  rw [h.span_eq]
  split_ifs <;> omega

theorem Sound.length_history : f.history.length = f.depth := by
  unfold history
  rw [List.length_rotate, h.size]

theorem Sound.length_contents : f.contents.length = min f.span f.depth := by
  unfold contents
  rw [List.length_drop, h.length_history]
  omega

/-- As long as the FIFO was not overrun, what it stores begins at the read index. -/
theorem Sound.contents_eq (hspan : f.span ≤ f.depth) : f.contents = (f.buffer.rotate f.rdIdx).take f.span := by
  have hsize := h.size
  have hrd := h.rd
  have heq := h.span_eq
  have hback := take_rotate_back (l := f.buffer) (p := f.wrIdx) (n := f.span) (by omega)
  unfold contents history
  rw [Nat.min_eq_left hspan, ← hsize, ← hback]
  congr 1
  split_ifs at heq with hle
  · rw [← rotate_add_length f.rdIdx]
    congr 1
    omega
  · rw [← rotate_add_length (f.wrIdx + _)]
    congr 1
    omega

theorem Sound.length_ffPushN (data : Bytes) (n ptr : ℕ) : (f.ffPushN data n ptr).buffer.length = f.depth := by
  have hsize := h.size
  unfold ffPushN
  dsimp only
  split_ifs <;> simp only [length_memcpy, hsize]

/-- What is pulled from a place, around the end. -/
theorem Sound.ffPullN_eq {n : ℕ} (idx : ℕ) (hn : n ≤ f.depth) :
    f.ffPullN n (idx2ptr f.depth idx) = (f.buffer.rotate idx).take n := by
  have hpos := h.pos
  have hdepth := h.depth
  have hsize := h.size
  have hptr : idx % f.depth < f.depth := Nat.mod_lt _ hpos
  have hrotate : f.buffer.rotate idx = f.buffer.rotate (idx % f.depth) := by
    rw [← hsize, List.rotate_mod]
  have hlin : u16 ((f.depth : ℤ) - (idx % f.depth : ℕ)) = f.depth - idx % f.depth := by
    unfold u16
    omega
  rw [idx2ptr_eq hpos, hrotate]
  unfold ffPullN
  rw [hlin]
  by_cases hle : n ≤ f.depth - idx % f.depth
  · rw [if_pos hle, take_rotate_linear (by omega) (by omega)]
  · have hwrap : u16 ((n : ℤ) - (f.depth - idx % f.depth : ℕ)) = n - (f.depth - idx % f.depth) := by
      unfold u16
      omega
    have hall : (f.buffer.drop (idx % f.depth)).take (f.depth - idx % f.depth) =
        f.buffer.drop (idx % f.depth) := List.take_of_length_le (by rw [List.length_drop]; omega)
    rw [if_neg hle, take_rotate_wrap (by omega) (by omega) (by omega)]
    rw [hwrap, hall, hsize]

theorem Sound.ffPull_eq (idx : ℕ) : some (f.ffPull (idx2ptr f.depth idx)) = (f.buffer.rotate idx).head? := by
  have hpos := h.pos
  have hsize := h.size
  have hptr : idx % f.depth < f.depth := Nat.mod_lt _ hpos
  have hrotate : f.buffer.rotate idx = f.buffer.rotate (idx % f.depth) := by
    rw [← hsize, List.rotate_mod]
  rw [idx2ptr_eq hpos, hrotate, List.head?_rotate (by omega)]
  unfold ffPull
  rw [List.getD_eq_getElem?_getD, List.getElem?_eq_getElem (by omega)]
  rfl

/-- What is pushed to a place, around the end, comes behind everything else. -/
theorem Sound.rotate_ffPushN {data : Bytes} {n idx : ℕ} (hn : n ≤ f.depth) (hdata : n ≤ data.length) :
    (f.ffPushN data n (idx2ptr f.depth idx)).buffer.rotate (idx + n) =
      (f.buffer.rotate idx).drop n ++ data.take n := by
  have hpos := h.pos
  have hdepth := h.depth
  have hsize := h.size
  have hptr : idx % f.depth < f.depth := Nat.mod_lt _ hpos
  have hlen : (data.take n).length = n := List.length_take_of_le hdata
  have hlin : u16 ((f.depth : ℤ) - (idx % f.depth : ℕ)) = f.depth - idx % f.depth := by
    unfold u16
    omega
  have hrotate : f.buffer.rotate idx = f.buffer.rotate (idx % f.depth) := by
    rw [← hsize, List.rotate_mod]
  have hrotate' : ∀ cells : Bytes, cells.length = f.depth →
      cells.rotate (idx + n) = cells.rotate (idx % f.depth + n) := by
    intro cells hcells
    rw [← List.rotate_mod, ← List.rotate_mod _ (idx % f.depth + n), hcells, Nat.mod_add_mod]
  rw [hrotate' _ (h.length_ffPushN _ _ _), hrotate, idx2ptr_eq hpos]
  unfold ffPushN
  rw [hlin]
  by_cases hle : n ≤ f.depth - idx % f.depth
  · have hwrite := rotate_write_linear (l := f.buffer) (a := data.take n) (p := idx % f.depth) (by omega)
    rw [hlen] at hwrite
    rw [if_pos hle, memcpy_of_le (by omega), hlen, hwrite]
  · have hwrap : u16 ((n : ℤ) - (f.depth - idx % f.depth : ℕ)) = n - (f.depth - idx % f.depth) := by
      unfold u16
      omega
    have hsum : f.depth - idx % f.depth + (n - (f.depth - idx % f.depth)) = n := by omega
    rw [if_neg hle, hwrap]
    generalize hfront : data.take (f.depth - idx % f.depth) = front
    generalize hback : (data.drop (f.depth - idx % f.depth)).take (n - (f.depth - idx % f.depth)) = back
    have hboth : front ++ back = data.take n := by rw [← hfront, ← hback, ← List.take_add, hsum]
    have hfrontLen : front.length = f.depth - idx % f.depth := by
      rw [← hfront]
      exact List.length_take_of_le (by omega)
    have hbackLen : back.length = n - (f.depth - idx % f.depth) := by
      rw [← hback]
      exact List.length_take_of_le (by rw [List.length_drop]; omega)
    have hwrite := rotate_write_wrap (l := f.buffer) (p := idx % f.depth) (a := front) (b := back)
      (by omega)
    rw [hboth, hfrontLen, hbackLen, hsum] at hwrite
    have hcells : (back ++ (f.buffer.take (idx % f.depth)).drop back.length ++ front).length = f.depth := by
      simp only [List.length_append, List.length_drop, List.length_take]
      omega
    have haround : idx % f.depth + n = n - (f.depth - idx % f.depth) + f.depth := by omega
    have hend := rotate_add_length
      (l := back ++ (f.buffer.take (idx % f.depth)).drop back.length ++ front) (n - (f.depth - idx % f.depth))
    rw [hcells, ← haround, hbackLen] at hend
    dsimp only
    rw [memcpy_wrap (by omega) (by omega), hbackLen, hend, hwrite]

omit h in
/-- Only the buffer changes. -/
theorem ffPushN_eq (data : Bytes) (n ptr : ℕ) :
    f.ffPushN data n ptr = { f with buffer := (f.ffPushN data n ptr).buffer } := by
  unfold ffPushN
  dsimp only
  split_ifs <;> rfl

/-- Pushing to a place, and moving the write index behind it. -/
def pushed (f : TuFifo) (data : Bytes) (n idx : ℕ) : TuFifo :=
  { f with buffer := (f.ffPushN data n (idx2ptr f.depth idx)).buffer, wrIdx := advanceIndex f.depth idx n }

theorem Sound.pushed (data : Bytes) {n idx : ℕ} (hidx : idx < 2 * f.depth) (hn : n ≤ f.depth)
    (hdata : n ≤ data.length) :
    (f.pushed data n idx).Sound ∧
      (f.pushed data n idx).history = (f.buffer.rotate idx).drop n ++ data.take n := by
  have hsize := h.length_ffPushN data n (idx2ptr f.depth idx)
  refine ⟨⟨h.pos, h.depth, hsize, advanceIndex_lt h.depth hidx hn, h.rd⟩, ?_⟩
  rw [← h.rotate_ffPushN hn hdata]
  exact rotate_advanceIndex hsize h.depth hidx hn

omit h in
theorem writeN_eq {data buf8 : Bytes} {n count idx : ℕ} (hn : n ≠ 0) (hcount : count ≠ 0)
    (hargs : f.writeArgs data n = (buf8, count, idx)) : f.writeN data n = (count, f.pushed buf8 count idx) := by
  unfold writeN
  rw [if_neg hn, hargs]
  dsimp only
  rw [if_pos hcount, ffPushN_eq]
  rfl

end Contents

/-! ## Reading -/

section Reading

variable {f : TuFifo}

/-- The state in which every read begins: a FIFO that was overrun gets its read index right. -/
def settle (f : TuFifo) : TuFifo := if f.span > f.depth then f.correctReadPointer else f

theorem depth_settle (f : TuFifo) : f.settle.depth = f.depth := by
  unfold settle
  split_ifs <;> rfl

theorem settle_of_le (hspan : f.span ≤ f.depth) : f.settle = f := if_neg (by omega)

theorem Sound.correctReadPointer (h : f.Sound) :
    f.correctReadPointer.Sound ∧ f.correctReadPointer.span = f.depth := by
  have hpos := h.pos
  have hdepth := h.depth
  have hwr := h.wr
  have hrd : (f.ffCorrectReadIndex f.wrIdx).1 =
      if f.depth ≤ f.wrIdx then f.wrIdx - f.depth else f.wrIdx + f.depth := by
    unfold ffCorrectReadIndex u16
    dsimp only
    split_ifs <;> omega
  have hlt : (f.ffCorrectReadIndex f.wrIdx).1 < 2 * f.depth := by
    rw [hrd]
    split_ifs <;> omega
  have hsound : f.correctReadPointer.Sound := ⟨hpos, hdepth, h.size, hwr, hlt⟩
  refine ⟨hsound, ?_⟩
  rw [hsound.span_eq]
  show (if (f.ffCorrectReadIndex f.wrIdx).1 ≤ f.wrIdx then _ else _) = f.depth
  show (if (f.ffCorrectReadIndex f.wrIdx).1 ≤ f.wrIdx then f.wrIdx - (f.ffCorrectReadIndex f.wrIdx).1
    else 2 * f.depth - ((f.ffCorrectReadIndex f.wrIdx).1 - f.wrIdx)) = f.depth
  rw [hrd]
  split_ifs <;> omega

theorem Sound.settle (h : f.Sound) :
    f.settle.Sound ∧ f.settle.span = min f.span f.depth ∧ f.settle.contents = f.contents := by
  unfold TuFifo.settle
  split_ifs with hover
  · obtain ⟨hsound, hspan⟩ := h.correctReadPointer
    refine ⟨hsound, by omega, ?_⟩
    unfold contents
    rw [hspan, Nat.min_eq_right (by omega : f.depth ≤ f.span)]
    exact congrArg (f.history.drop <| f.depth - ·) (Nat.min_self _)
  · exact ⟨h, by omega, rfl⟩

theorem Sound.count_eq (h : f.Sound) : f.count = f.contents.length := h.length_contents.symm

theorem Sound.remaining_eq (h : f.Sound) : f.remaining = f.depth - f.contents.length := by
  have hdepth := h.depth
  rw [h.length_contents]
  unfold remaining ffRemaining
  show (if f.depth > f.span then u16 ((f.depth : ℤ) - f.span) else 0) = _
  unfold u16
  split_ifs <;> omega

theorem Sound.full_iff (h : f.Sound) : f.full = decide (f.contents.length = f.depth) := by
  unfold full
  rw [h.length_contents]
  refine decide_eq_decide.mpr ?_
  show f.span ≥ f.depth ↔ _
  omega

theorem Sound.empty_iff (h : f.Sound) : f.empty = decide (f.contents = []) := by
  have hpos := h.pos
  have hwr := h.wr
  have hrd := h.rd
  unfold empty
  refine decide_eq_decide.mpr ?_
  rw [← List.length_eq_zero_iff, h.length_contents, h.span_eq]
  split_ifs <;> omega

/-- What is copied to the caller, once the read index is right. -/
theorem Sound.ffPullN_settle (h : f.Sound) {n : ℕ} (hn : n ≤ f.contents.length) :
    f.settle.ffPullN n (idx2ptr f.settle.depth f.settle.rdIdx) = f.contents.take n := by
  obtain ⟨hsound, hspan, hcontents⟩ := h.settle
  have hlen := h.length_contents
  have hdepth := f.depth_settle
  rw [hsound.ffPullN_eq _ (by omega), ← hcontents, hsound.contents_eq (by omega), List.take_take,
    Nat.min_eq_left (by omega)]

/-- A peek leaves the read index right, and copies the oldest bytes. -/
theorem Sound.peekN_eq (h : f.Sound) (n : ℕ) :
    f.peekN n = ((min n f.contents.length, f.contents.take n), f.settle) := by
  have hlen := h.length_contents
  have hpos := h.pos
  have htake : f.contents.take n = f.contents.take (min n f.contents.length) := by
    rw [← List.take_take, List.take_length]
  have hmin : min n f.contents.length = if f.contents.length < n then f.contents.length else n := by
    split_ifs <;> omega
  by_cases hzero : f.span = 0
  · have hnil : f.contents = [] := List.length_eq_zero_iff.mp (by omega)
    have hpeek : f.peekN n = ((0, []), f) := if_pos hzero
    rw [hpeek, hnil, settle_of_le (by omega), List.take_nil, List.length_nil, Nat.min_zero]
  · have hpull := h.ffPullN_settle (n := min n f.contents.length) (by omega)
    rw [htake, ← hpull, hmin, hlen]
    unfold peekN peekNAt
    dsimp only
    rw [show ffCount f.depth f.wrIdx f.rdIdx = f.span from rfl, if_neg hzero]
    unfold TuFifo.settle
    by_cases hover : f.span > f.depth
    · rw [if_pos hover, if_pos hover, Nat.min_eq_right (by omega)]
      rfl
    · rw [if_neg hover, if_neg hover, Nat.min_eq_left (by omega)]

/-- A single peek. -/
theorem Sound.peek_eq (h : f.Sound) : f.peek = (f.contents.head?, f.settle) := by
  have hlen := h.length_contents
  have hpos := h.pos
  have hdepth := f.depth_settle
  obtain ⟨hsound, hspan, hcontents⟩ := h.settle
  by_cases hzero : f.span = 0
  · have hnil : f.contents = [] := List.length_eq_zero_iff.mp (by omega)
    have hpeek : f.peek = (none, f) := if_pos hzero
    rw [hpeek, hnil, settle_of_le (by omega), List.head?_nil]
  · have hpull := hsound.ffPull_eq f.settle.rdIdx
    have hhead : f.contents.head? = (f.settle.buffer.rotate f.settle.rdIdx).head? := by
      rw [← hcontents, hsound.contents_eq (by omega), List.head?_take, if_neg (by omega)]
    rw [hhead, ← hpull]
    unfold peek peekAt
    dsimp only
    rw [show ffCount f.depth f.wrIdx f.rdIdx = f.span from rfl, if_neg hzero]
    unfold TuFifo.settle
    by_cases hover : f.span > f.depth
    · rw [if_pos hover, if_pos hover]
      rfl
    · rw [if_neg hover, if_neg hover]

/-- Moving the read index over bytes that are stored. -/
theorem Sound.advanceReadPointer (h : f.Sound) {n : ℕ} (hspan : f.span ≤ f.depth) (hn : n ≤ f.span) :
    (f.advanceReadPointer n).Sound ∧ (f.advanceReadPointer n).span = f.span - n ∧
      (f.advanceReadPointer n).contents = f.contents.drop n := by
  have hpos := h.pos
  have hwr := h.wr
  have hrd := h.rd
  have hidx := advanceIndex_eq (n := n) h.depth h.rd (by omega)
  have hsound : (f.advanceReadPointer n).Sound :=
    ⟨hpos, h.depth, h.size, hwr, advanceIndex_lt h.depth h.rd (by omega)⟩
  have hspan' : (f.advanceReadPointer n).span = f.span - n := by
    have hold := h.span_eq
    have hnew : (f.advanceReadPointer n).span = if advanceIndex f.depth f.rdIdx n ≤ f.wrIdx
        then f.wrIdx - advanceIndex f.depth f.rdIdx n
        else 2 * f.depth - (advanceIndex f.depth f.rdIdx n - f.wrIdx) := hsound.span_eq
    rw [hnew, hidx]
    split_ifs at hold ⊢ <;> omega
  refine ⟨hsound, hspan', ?_⟩
  unfold contents
  rw [hspan']
  show f.history.drop (f.depth - min (f.span - n) f.depth) = _
  rw [List.drop_drop]
  congr 1
  omega

end Reading

/-! ## Writing -/

section Writing

variable {f f' : TuFifo}

/-- What is stored after bytes came behind everything else. -/
theorem Sound.contents_written (h : f.Sound) {data : Bytes} (hdepth : f'.depth = f.depth)
    (hdata : data.length ≤ f.depth) (hhistory : f'.history = f.history.drop data.length ++ data)
    (hspan : min f'.span f.depth = min (f.span + data.length) f.depth) :
    f'.contents = (f.contents ++ data).drop ((f.contents ++ data).length - f.depth) := by
  have hlen := h.length_contents
  have hall := h.length_history
  have hcontents : f.contents = f.history.drop (f.depth - min f.span f.depth) := rfl
  unfold contents at hlen ⊢
  rw [hdepth, hspan, hhistory, List.length_append,
    List.drop_append_of_le_length (by rw [List.length_drop]; omega),
    List.drop_append_of_le_length (by omega), List.drop_drop, List.drop_drop]
  congr 2
  omega

/-- A write behind the last byte, as long as the indices do not meet. -/
theorem Sound.span_push (h : f.Sound) {n : ℕ} (hn : n ≤ f.depth) (hspan : f.span + n < 2 * f.depth)
    (hf' : f'.Sound) (hdepth : f'.depth = f.depth) (hrd : f'.rdIdx = f.rdIdx)
    (hwr : f'.wrIdx = advanceIndex f.depth f.wrIdx n) : f'.span = f.span + n := by
  have hlt := h.rd
  have hold := h.span_eq
  have hnew := hf'.span_eq
  rw [hdepth, hrd, hwr, advanceIndex_eq h.depth h.wr hn] at hnew
  rw [hnew]
  split_ifs at hold ⊢ <;> omega

/-- A write that ends `depth` behind the read index. -/
theorem Sound.span_replaced (h : f.Sound) {n : ℕ} (hn : n ≤ f.depth) (hf' : f'.Sound)
    (hdepth : f'.depth = f.depth) (hrd : f'.rdIdx = f.rdIdx)
    (hwr : f'.wrIdx = advanceIndex f.depth (advanceIndex f.depth f.rdIdx (f.depth - n)) n) :
    f'.span = f.depth := by
  have hpos := h.pos
  have hlt := h.rd
  have hnew := hf'.span_eq
  have hidx := advanceIndex_lt (n := f.depth - n) h.depth h.rd (by omega)
  rw [hdepth, hrd, hwr, advanceIndex_eq h.depth hidx hn, advanceIndex_eq h.depth h.rd (by omega)] at hnew
  rw [hnew]
  split_ifs <;> omega

/-- The states that a write of `data` may leave: the mode and the read index stay. -/
structure Wrote (f f' : TuFifo) (bytes : Bytes) : Prop where
  sound : f'.Sound
  depth : f'.depth = f.depth
  mode : f'.overwritable = f.overwritable
  rd : f'.rdIdx = f.rdIdx
  contents : f'.contents = bytes

/-- Bytes that are pushed to the place of the write index. -/
theorem Sound.appended (h : f.Sound) (data : Bytes) {n : ℕ} (hn : n ≤ f.depth) (hdata : n ≤ data.length)
    (hspan : f.span + n < 2 * f.depth) :
    f.Wrote (f.pushed data n f.wrIdx)
      ((f.contents ++ data.take n).drop ((f.contents ++ data.take n).length - f.depth)) := by
  have hcount : (data.take n).length = n := List.length_take_of_le hdata
  obtain ⟨hsound, hhistory⟩ := h.pushed data h.wr hn hdata
  have hspan' := h.span_push hn hspan hsound rfl rfl rfl
  exact ⟨hsound, rfl, rfl, rfl, h.contents_written rfl (by omega) (by rw [hcount]; exact hhistory)
    (by rw [hspan', hcount])⟩

/-- As many bytes as there is room for. -/
theorem Sound.appended_limited (h : f.Sound) (data : Bytes) :
    f.Wrote (f.pushed data (min data.length (f.depth - f.contents.length)) f.wrIdx)
      (f.contents ++ data.take (f.depth - f.contents.length)) := by
  have hpos := h.pos
  have hlen := h.length_contents
  have htake : data.take (f.depth - f.contents.length) =
      data.take (min data.length (f.depth - f.contents.length)) := by
    rw [Nat.min_comm, ← List.take_take, List.take_length]
  rw [htake]
  generalize hn : min data.length (f.depth - f.contents.length) = n
  have hroom : (f.contents ++ data.take n).length - f.depth = 0 := by
    rw [List.length_append, List.length_take]
    omega
  have hspan := h.span_lt
  have hpushed := h.appended data (n := n) (by omega) (by omega) (by omega)
  rw [hroom, List.drop_zero] at hpushed
  exact hpushed

theorem Sound.writeN_limited (h : f.Sound) (hmode : f.overwritable = false) (data : Bytes) :
    (f.writeN data data.length).1 = min data.length (f.depth - f.contents.length) ∧
      f.Wrote (f.writeN data data.length).2
        (f.contents ++ data.take (f.depth - f.contents.length)) := by
  have hremain : ffRemaining f.depth f.wrIdx f.rdIdx = f.depth - f.contents.length := h.remaining_eq
  have hpushed := h.appended_limited data
  generalize hn : min data.length (f.depth - f.contents.length) = n at hpushed
  have hargs : f.writeArgs data data.length = (data, n, f.wrIdx) := by
    unfold writeArgs
    rw [if_pos hmode, hremain, hn]
  by_cases hzero : n = 0
  · have htake : data.take (f.depth - f.contents.length) = [] := List.length_eq_zero_iff.mp (by
      rw [List.length_take]
      omega)
    have hnone : f.writeN data data.length = (0, f) := by
      unfold writeN
      rw [hargs]
      dsimp only
      rw [hzero, if_neg (not_not.mpr rfl), ite_self]
    rw [hnone, hzero, htake, List.append_nil]
    exact ⟨rfl, h, rfl, rfl, rfl, rfl⟩
  · rw [writeN_eq (by omega) hzero hargs]
    exact ⟨rfl, hpushed⟩

section Overwritable

variable {data : Bytes}

/-- A write of a whole buffer and more starts at the place of the read index. -/
theorem Sound.writeN_long (h : f.Sound) (hmode : f.overwritable = true) (hlong : data.length ≥ f.depth) :
    (f.writeN data data.length).1 = f.depth ∧
      f.Wrote (f.writeN data data.length).2 (data.drop (data.length - f.depth)) := by
  have hpos := h.pos
  have hargs : f.writeArgs data data.length = (data.drop (data.length - f.depth), f.depth, f.rdIdx) := by
    unfold writeArgs
    rw [hmode, if_neg Bool.noConfusion, if_pos hlong]
  have hcount : (data.drop (data.length - f.depth)).length = f.depth := by
    rw [List.length_drop]
    omega
  have hidx : advanceIndex f.depth f.rdIdx (f.depth - f.depth) = f.rdIdx := by
    have hrd := h.rd
    rw [advanceIndex_eq h.depth hrd (by omega)]
    split_ifs <;> omega
  obtain ⟨hsound, hhistory⟩ := h.pushed (data.drop (data.length - f.depth)) h.rd le_rfl (by omega)
  have hspan := h.span_replaced (n := f.depth) le_rfl hsound rfl rfl (by rw [hidx]; rfl)
  rw [writeN_eq (by omega) (by omega) hargs]
  refine ⟨rfl, hsound, rfl, rfl, rfl, ?_⟩
  unfold contents
  rw [hspan, hhistory]
  show List.drop (f.depth - min f.depth f.depth) _ = _
  rw [Nat.min_self, Nat.sub_self, List.drop_zero,
    List.drop_of_length_le (by rw [List.length_rotate, h.size]), List.nil_append,
    List.take_of_length_le (by omega)]

/-- A write that keeps the indices less than `2 * depth` apart. -/
theorem Sound.writeN_short (h : f.Sound) (hmode : f.overwritable = true) (hzero : data.length ≠ 0)
    (hshort : data.length < f.depth) (hspan : f.span + data.length < 2 * f.depth) :
    (f.writeN data data.length).1 = data.length ∧ f.Wrote (f.writeN data data.length).2
      ((f.contents ++ data).drop ((f.contents ++ data).length - f.depth)) := by
  have hargs : f.writeArgs data data.length = (data, data.length, f.wrIdx) := by
    unfold writeArgs
    rw [hmode, if_neg Bool.noConfusion, if_neg (by omega),
      show ffCount f.depth f.wrIdx f.rdIdx = f.span from rfl, if_neg (by omega)]
  have hpushed := h.appended data (by omega) le_rfl hspan
  rw [List.take_length] at hpushed
  rw [writeN_eq hzero hzero hargs]
  exact ⟨rfl, hpushed⟩

/-- A write that would bring the indices `2 * depth` apart.  The place where the write index is put is then
the one where it was. -/
theorem Sound.writeN_full_circle (h : f.Sound) (hmode : f.overwritable = true) (hzero : data.length ≠ 0)
    (hshort : data.length < f.depth) (hspan : f.span + data.length = 2 * f.depth) :
    (f.writeN data data.length).1 = data.length ∧ f.Wrote (f.writeN data data.length).2
      ((f.contents ++ data).drop ((f.contents ++ data).length - f.depth)) := by
  have hdepth := h.depth
  have hwr := h.wr
  have hrd := h.rd
  have hback : u16 ((f.depth : ℤ) - data.length) = f.depth - data.length := by
    unfold u16
    omega
  have hargs : f.writeArgs data data.length =
      (data, data.length, advanceIndex f.depth f.rdIdx (f.depth - data.length)) := by
    unfold writeArgs
    rw [hmode, if_neg Bool.noConfusion, if_neg (by omega),
      show ffCount f.depth f.wrIdx f.rdIdx = f.span from rfl, if_pos (by omega), hback]
  have hidx := advanceIndex_lt (n := f.depth - data.length) hdepth hrd (by omega)
  have hplace : f.buffer.rotate (advanceIndex f.depth f.rdIdx (f.depth - data.length)) = f.history := by
    have hold := h.span_eq
    unfold history
    rw [rotate_advanceIndex h.size hdepth hrd (by omega)]
    split_ifs at hold
    · rw [← rotate_add_length, h.size]
      congr 1
      omega
    · rw [← rotate_add_length f.wrIdx, h.size]
      congr 1
      omega
  obtain ⟨hsound, hhistory⟩ := h.pushed data hidx (by omega) le_rfl
  have hspan' := h.span_replaced (n := data.length) (by omega) hsound rfl rfl rfl
  rw [List.take_length, hplace] at hhistory
  rw [writeN_eq hzero hzero hargs]
  exact ⟨rfl, hsound, rfl, rfl, rfl, h.contents_written rfl (by omega) hhistory (by rw [hspan']; omega)⟩

end Overwritable

/-- The indices come more than `2 * depth` apart: `tu_fifo_write_n` then puts the bytes where they do not
belong. -/
def Overruns (f : TuFifo) (n : ℕ) : Prop := n < f.depth ∧ 2 * f.depth < f.span + n

instance (n : ℕ) : Decidable (f.Overruns n) := inferInstanceAs (Decidable (_ ∧ _))

/-- The last bytes take the place of the oldest ones. -/
theorem Sound.writeN_overwritable (h : f.Sound) (hmode : f.overwritable = true) {data : Bytes}
    (hover : ¬ f.Overruns data.length) :
    (f.writeN data data.length).1 = min data.length f.depth ∧ f.Wrote (f.writeN data data.length).2
      ((f.contents ++ data).drop ((f.contents ++ data).length - f.depth)) := by
  have hlen := h.length_contents
  unfold Overruns at hover
  by_cases hzero : data.length = 0
  · have hroom : (f.contents ++ data).length - f.depth = 0 := by
      rw [List.length_append]
      omega
    have hnone : f.writeN data data.length = (0, f) := if_pos hzero
    rw [hnone, hroom, List.drop_zero, List.length_eq_zero_iff.mp hzero, List.append_nil]
    exact ⟨by rw [List.length_nil, Nat.zero_min], h, rfl, rfl, rfl, rfl⟩
  · by_cases hlong : data.length ≥ f.depth
    · have hdrop : (f.contents ++ data).drop ((f.contents ++ data).length - f.depth) =
          data.drop (data.length - f.depth) := by
        rw [List.drop_append, List.drop_of_length_le (by rw [List.length_append]; omega), List.nil_append,
          List.length_append]
        congr 1
        omega
      rw [hdrop, Nat.min_eq_right hlong]
      exact h.writeN_long hmode hlong
    · rw [Nat.min_eq_left (by omega)]
      by_cases htwice : f.span + data.length < 2 * f.depth
      · exact h.writeN_short hmode hzero (by omega) htwice
      · exact h.writeN_full_circle hmode hzero (by omega) (by omega)

/-- One byte. -/
theorem Sound.write_pushed (h : f.Sound) (data : UInt8) (hfull : ¬ (f.full = true ∧ f.overwritable = false))
    (hspan : f.span + 1 < 2 * f.depth) :
    (f.write data).1 = true ∧
      f.Wrote (f.write data).2 ((f.contents ++ [data]).drop (f.contents.length + 1 - f.depth)) := by
  have hpos := h.pos
  have hdepth := h.depth
  have hptr : idx2ptr f.depth f.wrIdx < f.depth := by
    rw [idx2ptr_eq hpos]
    exact Nat.mod_lt _ hpos
  have hpush : f.ffPush data (idx2ptr f.depth f.wrIdx) = f.ffPushN [data] 1 (idx2ptr f.depth f.wrIdx) := by
    have hlin : 1 ≤ u16 ((f.depth : ℤ) - idx2ptr f.depth f.wrIdx) := by
      unfold u16
      omega
    exact (if_pos hlin).symm
  have hpushed := h.appended [data] hpos le_rfl hspan
  rw [List.length_append] at hpushed
  unfold write
  rw [if_neg hfull, hpush, ffPushN_eq]
  exact ⟨rfl, hpushed⟩

theorem Sound.write_full (h : f.Sound) (hmode : f.overwritable = false) (hfull : f.contents.length = f.depth)
    (data : UInt8) : f.write data = (false, f) := by
  refine if_pos ⟨?_, hmode⟩
  rw [h.full_iff, hfull]
  exact decide_eq_true rfl

end Writing

/-! ## Transfers beside the copies -/

section Transfers

variable {f : TuFifo}

theorem Sound.ptr_eq (h : f.Sound) {idx : ℕ} (hidx : idx < 2 * f.depth) :
    idx2ptr f.depth idx = if idx < f.depth then idx else idx - f.depth := by
  rw [idx2ptr_eq h.pos]
  split_ifs with hlt
  · exact Nat.mod_eq_of_lt hlt
  · rw [Nat.mod_eq_sub_mod (by omega), Nat.mod_eq_of_lt (by omega)]

end Transfers

end TuFifo

/-- The bytes that a transfer takes from the two regions. -/
def TuFifoBufferInfo.bytes (info : TuFifoBufferInfo) (buffer : Bytes) : Bytes :=
  (info.ptrLin.elim [] fun p => (buffer.drop p).take info.lenLin) ++
    info.ptrWrap.elim [] fun p => (buffer.drop p).take info.lenWrap

namespace TuFifo

/-- A transfer that brings as many bytes as the two regions have room for, and tells the FIFO. -/
def transfer (f : TuFifo) (data : Bytes) : ℕ × TuFifo :=
  let info := f.getWriteInfo
  let n := min data.length (info.lenLin + info.lenWrap)
  let lin := info.ptrLin.elim f.buffer fun p => memcpy f.buffer p (data.take info.lenLin)
  let buffer := info.ptrWrap.elim lin fun p => memcpy lin p ((data.drop info.lenLin).take info.lenWrap)
  (n, { f with buffer := buffer }.advanceWritePointer n)

section Transfers

variable {f : TuFifo}

/-- What `tu_fifo_get_read_info` returns, once the read index is right. -/
def readRegions (f : TuFifo) : TuFifoBufferInfo :=
  let wrPtr := idx2ptr f.depth f.wrIdx
  let rdPtr := idx2ptr f.depth f.rdIdx
  let lenLin := u16 ((f.depth : ℤ) - rdPtr)
  if f.span = 0 then ⟨0, 0, none, none⟩
  else if wrPtr > rdPtr then ⟨f.span, 0, some rdPtr, none⟩
  else ⟨lenLin, u16 ((f.span : ℤ) - lenLin), some rdPtr, some 0⟩

theorem Sound.getReadInfo_eq (h : f.Sound) : f.getReadInfo = (f.settle.readRegions, f.settle) := by
  have hspan : f.settle.span = min f.span f.depth := h.settle.2.1
  unfold getReadInfo readRegions
  dsimp only
  rw [show ffCount f.depth f.wrIdx f.rdIdx = f.span from rfl, hspan]
  have hpos := h.pos
  unfold TuFifo.settle
  by_cases hover : f.span > f.depth
  · have hne : ¬ (f.ffCorrectReadIndex f.wrIdx).2.depth = 0 := hpos.ne'
    rw [if_pos hover, if_pos hover, Nat.min_eq_right (by omega), if_neg hpos.ne']
    dsimp only
    rw [if_neg hne]
    exact (apply_ite (fun info => (info, f.correctReadPointer)) _ _ _).symm
  · rw [if_neg hover, if_neg hover, Nat.min_eq_left (by omega)]
    dsimp only
    split_ifs <;> rfl

/-- The regions to read are what is stored. -/
theorem Sound.bytes_readRegions (h : f.Sound) (hspan : f.span ≤ f.depth) :
    f.readRegions.bytes f.buffer = f.contents := by
  have hpos := h.pos
  have hdepth := h.depth
  have hwr := h.wr
  have hrd := h.rd
  have hsize := h.size
  have heq := h.span_eq
  have hlen := h.length_contents
  have hwrPtr := h.ptr_eq hwr
  have hrdPtr := h.ptr_eq hrd
  have hpull := h.ffPullN_eq f.rdIdx hspan
  rw [h.contents_eq hspan, ← hpull]
  unfold readRegions ffPullN TuFifoBufferInfo.bytes
  generalize idx2ptr f.depth f.wrIdx = wrPtr at hwrPtr ⊢
  generalize idx2ptr f.depth f.rdIdx = rdPtr at hrdPtr ⊢
  have hlin : u16 ((f.depth : ℤ) - rdPtr) = f.depth - rdPtr := by
    unfold u16
    split_ifs at hrdPtr <;> omega
  by_cases hzero : f.span = 0
  · rw [if_pos hzero, hzero]
    rfl
  rw [if_neg hzero]
  by_cases hptr : wrPtr > rdPtr
  · have hle : f.span ≤ f.depth - rdPtr := by
      split_ifs at heq hwrPtr hrdPtr <;> omega
    rw [if_pos hptr, hlin, if_pos hle]
    exact List.append_nil _
  · have hge : f.depth - rdPtr ≤ f.span := by
      split_ifs at heq hwrPtr hrdPtr <;> omega
    have hwrap : u16 ((f.span : ℤ) - (f.depth - rdPtr : ℕ)) = f.span - (f.depth - rdPtr) := by
      unfold u16
      omega
    rw [if_neg hptr, hlin, hwrap]
    show (f.buffer.drop rdPtr).take (f.depth - rdPtr) ++ (f.buffer.drop 0).take _ = _
    by_cases hle : f.span ≤ f.depth - rdPtr
    · rw [if_pos hle, show f.span - (f.depth - rdPtr) = 0 by omega, List.take_zero, List.append_nil,
        show f.depth - rdPtr = f.span by omega]
    · rw [if_neg hle, List.drop_zero, hwrap]

theorem Sound.len_readRegions (h : f.Sound) (hspan : f.span ≤ f.depth) :
    f.readRegions.lenLin + f.readRegions.lenWrap = f.span := by
  have hpos := h.pos
  have hdepth := h.depth
  have hwr := h.wr
  have hrd := h.rd
  have heq := h.span_eq
  have hwrPtr := h.ptr_eq hwr
  have hrdPtr := h.ptr_eq hrd
  unfold readRegions
  dsimp only
  split_ifs
  · dsimp only
    omega
  · rfl
  · unfold u16
    dsimp only
    split_ifs at heq hwrPtr hrdPtr <;> omega

/-- The regions to write are the places behind the write index that are free. -/
theorem Sound.getWriteInfo_eq (h : f.Sound) :
    let wrPtr := idx2ptr f.depth f.wrIdx
    let room := f.depth - f.contents.length
    f.getWriteInfo = ⟨0, 0, none, none⟩ ∧ room = 0 ∨
      f.getWriteInfo = ⟨room, 0, some wrPtr, none⟩ ∧ room ≤ f.depth - wrPtr ∨
      f.getWriteInfo = ⟨f.depth - wrPtr, room - (f.depth - wrPtr), some wrPtr, some 0⟩ ∧
        f.depth - wrPtr ≤ room := by
  have hpos := h.pos
  have hdepth := h.depth
  have hwr := h.wr
  have hrd := h.rd
  have heq := h.span_eq
  have hlen := h.length_contents
  have hremain : ffRemaining f.depth f.wrIdx f.rdIdx = f.depth - f.contents.length := h.remaining_eq
  have hwrPtr := h.ptr_eq hwr
  have hrdPtr := h.ptr_eq hrd
  unfold getWriteInfo
  rw [hremain]
  dsimp only
  generalize hroom : f.depth - f.contents.length = room at hremain ⊢
  generalize idx2ptr f.depth f.wrIdx = wrPtr at hwrPtr ⊢
  generalize idx2ptr f.depth f.rdIdx = rdPtr at hrdPtr ⊢
  by_cases hzero : room = 0
  · exact .inl ⟨if_pos hzero, hzero⟩
  rw [if_neg hzero]
  by_cases hptr : wrPtr < rdPtr
  · have hlin : u16 ((rdPtr : ℤ) - wrPtr) = room := by
      unfold u16
      split_ifs at heq hwrPtr hrdPtr <;> omega
    have hle : room ≤ f.depth - wrPtr := by
      split_ifs at heq hwrPtr hrdPtr <;> omega
    rw [if_pos hptr, hlin]
    exact .inr (.inl ⟨rfl, hle⟩)
  · have hlin : u16 ((f.depth : ℤ) - wrPtr) = f.depth - wrPtr := by
      unfold u16
      split_ifs at hwrPtr <;> omega
    have hge : f.depth - wrPtr ≤ room := by
      split_ifs at heq hwrPtr hrdPtr <;> omega
    have hwrap : u16 ((room : ℤ) - (f.depth - wrPtr : ℕ)) = room - (f.depth - wrPtr) := by
      unfold u16
      omega
    rw [if_neg hptr, hlin, hwrap]
    exact .inr (.inr ⟨rfl, hge⟩)

/-- A transfer is a push. -/
theorem Sound.transfer_pushed (h : f.Sound) (data : Bytes) :
    f.transfer data = (min data.length (f.depth - f.contents.length),
      f.pushed data (min data.length (f.depth - f.contents.length)) f.wrIdx) := by
  have hpos := h.pos
  have hdepth := h.depth
  have hptr : idx2ptr f.depth f.wrIdx < f.depth := by
    rw [idx2ptr_eq hpos]
    exact Nat.mod_lt _ hpos
  have hlin : u16 ((f.depth : ℤ) - idx2ptr f.depth f.wrIdx) = f.depth - idx2ptr f.depth f.wrIdx := by
    unfold u16
    omega
  have hnone : ∀ cells : Bytes, ∀ p, memcpy cells p [] = cells := by
    intro cells p
    simp [memcpy]
  have hinfo := h.getWriteInfo_eq
  dsimp only at hinfo
  unfold transfer TuFifo.pushed ffPushN
  rw [hlin]
  have hmax : f.depth - f.contents.length ≤ f.depth := Nat.sub_le _ _
  generalize f.depth - f.contents.length = room at hinfo hmax ⊢
  generalize idx2ptr f.depth f.wrIdx = wrPtr at hptr hinfo ⊢
  rcases hinfo with ⟨hinfo, hroom⟩ | ⟨hinfo, hroom⟩ | ⟨hinfo, hroom⟩
  · rw [hinfo, hroom, Nat.min_zero, if_pos (Nat.zero_le _), List.take_zero, hnone]
    show (min data.length 0, { f with wrIdx := advanceIndex f.depth f.wrIdx (min data.length 0) }) = _
    rw [Nat.min_zero]
  · have htake : data.take room = data.take (min data.length room) := by
      rw [Nat.min_comm, ← List.take_take, List.take_length]
    rw [hinfo, if_pos (by omega), ← htake]
    rfl
  · rw [hinfo]
    dsimp only
    rw [Nat.add_sub_cancel' hroom]
    show (min data.length room, TuFifo.advanceWritePointer { f with
      buffer := memcpy (memcpy f.buffer wrPtr (data.take (f.depth - wrPtr))) 0
        ((data.drop (f.depth - wrPtr)).take (room - (f.depth - wrPtr))) } (min data.length room)) = _
    by_cases hle : min data.length room ≤ f.depth - wrPtr
    · have hfront : data.take (f.depth - wrPtr) = data.take (min data.length room) := by
        rcases Nat.le_or_le data.length room with hdata | hdata
        · rw [Nat.min_eq_left hdata, List.take_length, List.take_of_length_le (by omega)]
        · rw [show f.depth - wrPtr = min data.length room by omega]
      have hback : (data.drop (f.depth - wrPtr)).take (room - (f.depth - wrPtr)) = [] :=
        List.length_eq_zero_iff.mp (by rw [List.length_take, List.length_drop]; omega)
      rw [if_pos hle, hfront, hback, hnone]
      rfl
    · have hwrap : u16 (((min data.length room : ℕ) : ℤ) - (f.depth - wrPtr : ℕ)) =
          min (room - (f.depth - wrPtr)) (data.drop (f.depth - wrPtr)).length := by
        rw [List.length_drop]
        unfold u16
        omega
      rw [if_neg hle, hwrap, ← List.take_take, List.take_length]
      rfl

/-- A transfer brings as much as there is room for. -/
theorem Sound.transfer_eq (h : f.Sound) (data : Bytes) :
    (f.transfer data).1 = min data.length (f.depth - f.contents.length) ∧
      f.Wrote (f.transfer data).2 (f.contents ++ data.take (f.depth - f.contents.length)) := by
  rw [h.transfer_pushed]
  exact ⟨rfl, h.appended_limited data⟩

end Transfers

end TuFifo

end NeuronWired
