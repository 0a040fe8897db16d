import NeuronWired.TuFifoRing

/-!
# TuFifoQueue — every run of the FIFO answers as the byte ring does (`tusb_fifo.c`)

The calls of a run are those that the USB stack and the firmware make, in any order and in both modes.
-/

namespace NeuronWired

open Queue

/-! ## The calls -/

/-- A call of the interface. -/
inductive TuFifoCall where
  | count
  | empty
  | full
  | remaining
  | peek
  | peekN (n : ℕ)
  | read
  | readN (n : ℕ)
  | write (data : UInt8)
  | writeN (data : Bytes)
  | clear
  | setOverwritable (overwritable : Bool)
  | correctReadPointer
  | advanceReadPointer (n : ℕ)
  /-- The bytes in the regions of `tu_fifo_get_read_info`. -/
  | readInfo
  /-- Bytes are brought to the regions of `tu_fifo_get_write_info`, and `tu_fifo_advance_write_pointer`
  is called. -/
  | transfer (data : Bytes)
  deriving DecidableEq, Repr

/-- What a call returns. -/
inductive TuFifoAnswer where
  | done
  | flag (b : Bool)
  | number (n : ℕ)
  | byte (b : Option UInt8)
  | bytes (n : ℕ) (data : Bytes)
  deriving DecidableEq, Repr

/-- A call. -/
def TuFifo.call (f : TuFifo) : TuFifoCall → TuFifoAnswer × TuFifo
  | .count => (.number f.count, f)
  | .empty => (.flag f.empty, f)
  | .full => (.flag f.full, f)
  | .remaining => (.number f.remaining, f)
  | .peek => f.peek.map .byte id
  | .peekN n => (f.peekN n).map (fun ret => .bytes ret.1 ret.2) id
  | .read => f.read.map .byte id
  | .readN n => (f.readN n).map (fun ret => .bytes ret.1 ret.2) id
  | .write data => (f.write data).map .flag id
  | .writeN data => (f.writeN data data.length).map .number id
  | .clear => (.done, f.clear)
  | .setOverwritable overwritable => (.done, f.setOverwritable overwritable)
  | .correctReadPointer => (.done, f.correctReadPointer)
  | .advanceReadPointer n => (.done, f.advanceReadPointer n)
  | .readInfo => f.getReadInfo.map (fun info => .bytes (info.lenLin + info.lenWrap) (info.bytes f.buffer)) id
  | .transfer data => (f.transfer data).map .number id

/-- What the header asks of the callers.  The read index is only put right after an overflow; it is only
moved by hand over bytes that are there, when it is right.  And no write of an overwritable FIFO brings the
indices more than `2 * depth` apart; a single byte, not even so far. -/
def TuFifo.Permits (f : TuFifo) : TuFifoCall → Prop
  | .write _ => f.overwritable = true → f.span + 1 < 2 * f.depth
  | .writeN data => f.overwritable = true → ¬ f.Overruns data.length
  | .correctReadPointer => f.overflowed = true
  | .advanceReadPointer n => f.span ≤ f.depth ∧ n ≤ f.span
  | _ => True

instance (f : TuFifo) : DecidablePred f.Permits
  | .write _ => inferInstanceAs (Decidable (_ → _))
  | .writeN _ => inferInstanceAs (Decidable (_ → _))
  | .correctReadPointer => inferInstanceAs (Decidable (_ = _))
  | .advanceReadPointer _ => inferInstanceAs (Decidable (_ ∧ _))
  | .count | .empty | .full | .remaining | .peek | .peekN _ | .read | .readN _ | .clear | .setOverwritable _
  | .readInfo | .transfer _ => .isTrue trivial

/-! ## What the calls are for -/

/-- A byte ring with its mode. -/
structure ByteQueue (cap : ℕ) where
  ring : ByteRing cap
  overwritable : Bool
  deriving DecidableEq, Repr

namespace ByteQueue

variable {cap : ℕ}

/-- Bytes come in: all of them, or as many as there is room for. -/
def put (q : ByteQueue cap) (data : Bytes) : ByteQueue cap :=
  { q with ring := if q.overwritable = true then q.ring.write data else q.ring.offer data }

/-- The oldest bytes go. -/
def drop (q : ByteQueue cap) (n : ℕ) : ByteQueue cap := { q with ring := q.ring.advance n }

/-- A call, in these terms. -/
def call (q : ByteQueue cap) : TuFifoCall → TuFifoAnswer × ByteQueue cap
  | .count => (.number q.ring.count, q)
  | .empty => (.flag (decide (q.ring.bytes = [])), q)
  | .full => (.flag (decide (q.ring.count = cap)), q)
  | .remaining => (.number (cap - q.ring.count), q)
  | .peek => (.byte q.ring.bytes.head?, q)
  | .peekN n => (.bytes (min n q.ring.count) (q.ring.peek n), q)
  | .read => (.byte q.ring.bytes.head?, q.drop 1)
  | .readN n => (.bytes (min n q.ring.count) (q.ring.peek n), q.drop n)
  | .write data => (.flag (q.overwritable || decide (q.ring.count < cap)), q.put [data])
  | .writeN data =>
    (.number (min data.length (if q.overwritable = true then cap else cap - q.ring.count)), q.put data)
  | .clear => (.done, { q with ring := .empty })
  | .setOverwritable overwritable => (.done, { q with overwritable := overwritable })
  | .correctReadPointer => (.done, q)
  | .advanceReadPointer n => (.done, q.drop n)
  | .readInfo => (.bytes q.ring.count q.ring.bytes, q)
  | .transfer data => (.number (min data.length (cap - q.ring.count)), { q with ring := q.ring.offer data })

end ByteQueue

/-! ## The simulation -/

section Simulation

variable {cap : ℕ} {f : TuFifo} {q : ByteQueue cap}

/-- The queue that a FIFO stands for. -/
structure TuFifo.Holds (f : TuFifo) (q : ByteQueue cap) : Prop where
  sound : f.Sound
  depth : f.depth = cap
  bytes : q.ring.bytes = f.contents
  mode : q.overwritable = f.overwritable

namespace TuFifo.Holds

theorem count_eq (h : f.Holds q) : q.ring.count = f.contents.length := congrArg List.length h.bytes

/-- Reads begin with the read index put right. -/
theorem settle (h : f.Holds q) : f.settle.Holds q :=
  ⟨h.sound.settle.1, f.depth_settle.trans h.depth, h.bytes.trans h.sound.settle.2.2.symm, by
    rw [h.mode]
    unfold TuFifo.settle
    split_ifs <;> rfl⟩

/-- A read is over: its bytes go. -/
theorem advance (h : f.Holds q) (hspan : f.span ≤ f.depth) (n : ℕ) :
    (f.advanceReadPointer (min n f.contents.length)).Holds (q.drop n) := by
  have hlen := h.sound.length_contents
  have hdrop : f.contents.drop (min n f.contents.length) = f.contents.drop n := by
    rcases Nat.le_or_le n f.contents.length with hn | hn
    · rw [Nat.min_eq_left hn]
    · rw [Nat.min_eq_right hn, List.drop_length, List.drop_of_length_le hn]
  obtain ⟨hsound, -, hcontents⟩ := h.sound.advanceReadPointer (n := min n f.contents.length) hspan (by omega)
  refine ⟨hsound, h.depth, ?_, h.mode⟩
  show q.ring.bytes.drop n = _
  rw [hcontents, hdrop, h.bytes]

/-- A read, whose peek has left the read index right. -/
theorem settle_advance (h : f.Holds q) (n : ℕ) :
    (f.settle.advanceReadPointer (min n f.contents.length)).Holds (q.drop n) := by
  obtain ⟨-, hspan, hcontents⟩ := h.sound.settle
  have hdepth := f.depth_settle
  rw [← hcontents]
  exact h.settle.advance (by omega) n

theorem wrote {f' : TuFifo} {q' : ByteQueue cap} {bytes : Bytes} (h : f.Holds q) (hwrote : f.Wrote f' bytes)
    (hbytes : q'.ring.bytes = bytes) (hmode : q'.overwritable = q.overwritable) : f'.Holds q' :=
  ⟨hwrote.sound, hwrote.depth.trans h.depth, hbytes.trans hwrote.contents.symm,
    (hmode.trans h.mode).trans hwrote.mode.symm⟩

theorem bytes_write (h : f.Holds q) (data : Bytes) : (q.ring.write data).bytes =
    (f.contents ++ data).drop ((f.contents ++ data).length - f.depth) := by
  rw [ByteRing.bytes_write_eq, h.bytes, h.depth]

theorem bytes_offer (h : f.Holds q) (data : Bytes) :
    (q.ring.offer data).bytes = f.contents ++ data.take (f.depth - f.contents.length) := by
  rw [ByteRing.bytes_offer, h.bytes, h.depth, h.count_eq]

/-- A call answers as in the queue, and the queue is followed. -/
def Simulates (f : TuFifo) (q : ByteQueue cap) (c : TuFifoCall) : Prop :=
  (f.call c).1 = (q.call c).1 ∧ (f.call c).2.Holds (q.call c).2

theorem read (h : f.Holds q) : Simulates f q .read := by
  have hpeek : f.peekAt f.wrIdx f.rdIdx = (f.contents.head?, f.settle) := h.sound.peek_eq
  have hone : f.contents.head?.isSome.toNat = min 1 f.contents.length := by
    cases f.contents with
    | nil => rfl
    | cons b bs => exact (Nat.min_eq_left (Nat.le_add_left _ _)).symm
  have hread : f.read = (f.contents.head?, f.settle.advanceReadPointer (min 1 f.contents.length)) := by
    unfold TuFifo.read
    rw [hpeek, ← hone]
    rfl
  refine ⟨?_, ?_⟩
  · show TuFifoAnswer.byte f.read.1 = .byte q.ring.bytes.head?
    rw [hread, h.bytes]
  · show f.read.2.Holds (q.drop 1)
    rw [hread]
    exact h.settle_advance 1

theorem readN (h : f.Holds q) (n : ℕ) : Simulates f q (.readN n) := by
  have hpeek : f.peekNAt n f.wrIdx f.rdIdx = ((min n f.contents.length, f.contents.take n), f.settle) :=
    h.sound.peekN_eq n
  have hread : f.readN n = ((min n f.contents.length, f.contents.take n),
      f.settle.advanceReadPointer (min n f.contents.length)) := by
    unfold TuFifo.readN
    rw [hpeek]
    rfl
  refine ⟨?_, ?_⟩
  · show TuFifoAnswer.bytes (f.readN n).1.1 (f.readN n).1.2 = .bytes (min n q.ring.count) (q.ring.bytes.take n)
    rw [hread, h.count_eq, h.bytes]
  · show (f.readN n).2.Holds (q.drop n)
    rw [hread]
    exact h.settle_advance n

theorem write (h : f.Holds q) {data : UInt8} (hok : f.Permits (.write data)) :
    Simulates f q (.write data) := by
  have hpos := h.sound.pos
  have hlen := h.sound.length_contents
  have hfull := h.sound.full_iff
  have hcount := h.count_eq
  have hdepth := h.depth
  cases hmode : f.overwritable with
  | true =>
    have hmode' : q.overwritable = true := h.mode.trans hmode
    obtain ⟨hflag, hwrote⟩ := h.sound.write_pushed data
      (fun hfull => absurd (hmode.symm.trans hfull.2) Bool.noConfusion) (hok hmode)
    refine ⟨?_, h.wrote hwrote ?_ rfl⟩
    · show TuFifoAnswer.flag (f.write data).1 = .flag _
      rw [hflag, hmode', Bool.true_or]
    · show (if q.overwritable = true then q.ring.write [data] else q.ring.offer [data]).bytes = _
      rw [if_pos hmode', h.bytes_write, List.length_append]
      rfl
  | false =>
    have hmode' : q.overwritable = false := h.mode.trans hmode
    have hput : (q.put [data]).ring.bytes = f.contents ++ [data].take (f.depth - f.contents.length) := by
      show (if q.overwritable = true then q.ring.write [data] else q.ring.offer [data]).bytes = _
      rw [hmode', if_neg Bool.noConfusion, h.bytes_offer]
    by_cases hroom : f.contents.length = f.depth
    · have hsame := h.sound.write_full hmode hroom data
      refine ⟨?_, ?_⟩
      · show TuFifoAnswer.flag (f.write data).1 = .flag _
        rw [hsame, hmode', hcount, ← hdepth, hroom, Bool.false_or, decide_eq_false (Nat.lt_irrefl _)]
      · show (f.write data).2.Holds (q.put [data])
        rw [hsame]
        exact ⟨h.sound, hdepth, by rw [hput, hroom, Nat.sub_self, List.take_zero, List.append_nil], h.mode⟩
    · have hnot : ¬ (f.full = true ∧ f.overwritable = false) := by
        rw [hfull, decide_eq_false hroom]
        exact fun hand => Bool.noConfusion hand.1
      obtain ⟨hflag, hwrote⟩ := h.sound.write_pushed data hnot (by omega)
      refine ⟨?_, h.wrote hwrote ?_ rfl⟩
      · show TuFifoAnswer.flag (f.write data).1 = .flag _
        rw [hflag, hmode', hcount, Bool.false_or, decide_eq_true (by omega)]
      · show (q.put [data]).ring.bytes = _
        rw [hput, List.take_of_length_le (by rw [List.length_singleton]; omega),
          show f.contents.length + 1 - f.depth = 0 by omega, List.drop_zero]

theorem writeN (h : f.Holds q) {data : Bytes} (hok : f.Permits (.writeN data)) :
    Simulates f q (.writeN data) := by
  cases hmode : f.overwritable with
  | true =>
    have hmode' : q.overwritable = true := h.mode.trans hmode
    obtain ⟨hnumber, hwrote⟩ := h.sound.writeN_overwritable hmode (hok hmode)
    refine ⟨?_, h.wrote hwrote ?_ rfl⟩
    · show TuFifoAnswer.number (f.writeN data data.length).1 = .number (min data.length (if _ then _ else _))
      rw [hnumber, if_pos hmode', h.depth]
    · show (if q.overwritable = true then q.ring.write data else q.ring.offer data).bytes = _
      rw [if_pos hmode', h.bytes_write]
  | false =>
    have hmode' : ¬ q.overwritable = true := by rw [h.mode, hmode]; exact Bool.noConfusion
    obtain ⟨hnumber, hwrote⟩ := h.sound.writeN_limited hmode data
    refine ⟨?_, h.wrote hwrote ?_ rfl⟩
    · show TuFifoAnswer.number (f.writeN data data.length).1 = .number (min data.length (if _ then _ else _))
      rw [hnumber, if_neg hmode', h.depth, h.count_eq]
    · show (if q.overwritable = true then q.ring.write data else q.ring.offer data).bytes = _
      rw [if_neg hmode', h.bytes_offer]

theorem readInfo (h : f.Holds q) : Simulates f q .readInfo := by
  have hinfo := h.sound.getReadInfo_eq
  obtain ⟨hsound, hspan, hcontents⟩ := h.sound.settle
  have hlen := h.sound.length_contents
  have hdepth := f.depth_settle
  have hbuffer : f.settle.buffer = f.buffer := by
    unfold TuFifo.settle
    split_ifs <;> rfl
  refine ⟨?_, ?_⟩
  · show TuFifoAnswer.bytes (f.getReadInfo.1.lenLin + f.getReadInfo.1.lenWrap) (f.getReadInfo.1.bytes f.buffer) =
      .bytes q.ring.count q.ring.bytes
    rw [hinfo, ← hbuffer, hsound.len_readRegions (by omega), hsound.bytes_readRegions (by omega), hcontents,
      h.count_eq, h.bytes, hspan, hlen]
  · show f.getReadInfo.2.Holds q
    rw [hinfo]
    exact h.settle

theorem transfer (h : f.Holds q) (data : Bytes) : Simulates f q (.transfer data) := by
  obtain ⟨hnumber, hwrote⟩ := h.sound.transfer_eq data
  refine ⟨?_, h.wrote hwrote (h.bytes_offer data) rfl⟩
  show TuFifoAnswer.number (f.transfer data).1 = .number _
  rw [hnumber, h.depth, h.count_eq]

/-- Every call. -/
theorem call (h : f.Holds q) (c : TuFifoCall) (hok : f.Permits c) : Simulates f q c := by
  cases c with
  | count =>
    refine ⟨congrArg TuFifoAnswer.number ?_, h⟩
    rw [h.sound.count_eq, h.count_eq]
  | empty =>
    refine ⟨congrArg TuFifoAnswer.flag ?_, h⟩
    rw [h.sound.empty_iff, h.bytes]
  | full =>
    refine ⟨congrArg TuFifoAnswer.flag ?_, h⟩
    rw [h.sound.full_iff, h.count_eq, h.depth]
  | remaining =>
    refine ⟨congrArg TuFifoAnswer.number ?_, h⟩
    rw [h.sound.remaining_eq, h.count_eq, h.depth]
  | peek =>
    have hpeek := h.sound.peek_eq
    refine ⟨?_, ?_⟩
    · show TuFifoAnswer.byte f.peek.1 = .byte q.ring.bytes.head?
      rw [hpeek, h.bytes]
    · show f.peek.2.Holds q
      rw [hpeek]
      exact h.settle
  | peekN n =>
    have hpeek := h.sound.peekN_eq n
    refine ⟨?_, ?_⟩
    · show TuFifoAnswer.bytes (f.peekN n).1.1 (f.peekN n).1.2 =
        .bytes (min n q.ring.count) (q.ring.bytes.take n)
      rw [hpeek, h.count_eq, h.bytes]
    · show (f.peekN n).2.Holds q
      rw [hpeek]
      exact h.settle
  | read => exact h.read
  | readN n => exact h.readN n
  | write data => exact h.write hok
  | writeN data => exact h.writeN hok
  | clear =>
    obtain ⟨hpos, hdepth, hsize, -, -⟩ := h.sound
    have hindex : 0 < 2 * f.depth := by omega
    have hsound : f.clear.Sound := ⟨hpos, hdepth, hsize, hindex, hindex⟩
    have hnil : f.clear.contents = [] := List.length_eq_zero_iff.mp (by
      rw [hsound.length_contents]
      exact Nat.zero_min _)
    exact ⟨rfl, hsound, h.depth, hnil.symm, h.mode⟩
  | setOverwritable overwritable =>
    obtain ⟨hpos, hdepth, hsize, hwr, hrd⟩ := h.sound
    exact ⟨rfl, ⟨hpos, hdepth, hsize, hwr, hrd⟩, h.depth, h.bytes, rfl⟩
  | correctReadPointer =>
    have hover : f.span > f.depth := of_decide_eq_true hok
    have hsettle : f.settle = f.correctReadPointer := if_pos hover
    refine ⟨rfl, ?_⟩
    show f.correctReadPointer.Holds q
    rw [← hsettle]
    exact h.settle
  | advanceReadPointer n =>
    obtain ⟨hspan, hn⟩ := hok
    have hlen := h.sound.length_contents
    have hadvance := h.advance hspan n
    rw [Nat.min_eq_left (by omega)] at hadvance
    exact ⟨rfl, hadvance⟩
  | readInfo => exact h.readInfo
  | transfer data => exact h.transfer data

end TuFifo.Holds

/-- A FIFO that was configured is empty. -/
theorem holds_tuFifoConfig {buffer : Bytes} (f : TuFifo) (hpos : 0 < cap) (hcap : cap ≤ 0x8000)
    (hsize : buffer.length = cap) (overwritable : Bool) :
    (tuFifoConfig f buffer cap overwritable).2.Holds (⟨.empty, overwritable⟩ : ByteQueue cap) := by
  have hconfig : tuFifoConfig f buffer cap overwritable = (true, ⟨buffer, cap, overwritable, 0, 0⟩) :=
    if_neg (by omega)
  have hindex : 0 < 2 * cap := by omega
  have hsound : TuFifo.Sound ⟨buffer, cap, overwritable, 0, 0⟩ := ⟨hpos, hcap, hsize, hindex, hindex⟩
  have hnil : TuFifo.contents ⟨buffer, cap, overwritable, 0, 0⟩ = [] := List.length_eq_zero_iff.mp (by
    rw [hsound.length_contents]
    exact Nat.zero_min _)
  rw [hconfig]
  exact ⟨hsound, rfl, hnil.symm, rfl⟩

end Simulation

end NeuronWired
