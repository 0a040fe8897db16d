import NeuronWired.FifoBuffer
import NeuronWired.Queue.Bounded
import NeuronWired.Run.Basic
import Mathlib.Tactic.Ring
import Mathlib.Data.List.GetD

/-!
# FifoQueue — `Fifo_buffer` is a bounded queue

`Holds f items` says how the array, the byte counter and the item counter of a `Fifo_buffer` store a list
of items: the items one after another from the start of the array, zeros behind them.  Every operation
keeps the relation to the queue of capacity `floor( INTERNAL_BUFFER_SIZE / item_size )`.
-/

namespace NeuronWired

/-- An item of `n` bytes. -/
abbrev Item (n : ℕ) := {b : Bytes // b.length = n}

variable {n : ℕ}

/-- The bytes of a list of items. -/
def itemBytes (items : List (Item n)) : Bytes := items.flatMap Subtype.val

@[simp] theorem itemBytes_nil : itemBytes ([] : List (Item n)) = [] := rfl

@[simp] theorem itemBytes_cons (x : Item n) (items : List (Item n)) :
    itemBytes (x :: items) = x.1 ++ itemBytes items := rfl

theorem itemBytes_append (items items' : List (Item n)) :
    itemBytes (items ++ items') = itemBytes items ++ itemBytes items' := List.flatMap_append

theorem length_itemBytes (items : List (Item n)) : (itemBytes items).length = items.length * n := by
  induction items with
  | nil => simp
  | cons x items ih =>
    rw [itemBytes_cons, List.length_append, ih, x.2, List.length_cons]
    ring

namespace FifoBuffer

/-! ## The copy loop -/

/-- The loop of `forward_fifo` moves `k` bytes, from `count` on, forward by one item. -/
theorem getElem?_moveBytes {itemSize : ℕ} (hpos : 0 < itemSize) (k count : ℕ) {buf : Bytes}
    (hlen : itemSize + count + k ≤ buf.length) (i : ℕ) :
    (moveBytes itemSize k count buf)[i]? =
      if count ≤ i ∧ i < count + k then buf[itemSize + i]? else buf[i]? := by
  induction k generalizing count buf with
  | zero => rw [moveBytes, if_neg (by omega)]
  | succ k ih =>
    have hbyte : itemSize + count < buf.length := by omega
    rw [moveBytes, ih (count + 1) (by rw [List.length_set]; omega), List.getD_eq_getElem _ _ hbyte]
    by_cases hi : i = count
    · subst hi
      rw [if_neg (by omega), if_pos (by omega), List.getElem?_set_self (by omega),
        List.getElem?_eq_getElem hbyte]
    · by_cases hin : count ≤ i ∧ i < count + (k + 1)
      · rw [if_pos hin, if_pos (by omega), List.getElem?_set_ne (by omega)]
      · rw [if_neg hin, if_neg (by omega), List.getElem?_set_ne (by omega)]

/-- An array of one item, other bytes and a rest: the other bytes are at its start afterwards. -/
theorem moveBytes_append {x y z : Bytes} (hpos : 0 < x.length) :
    moveBytes x.length y.length 0 (x ++ y ++ z) = y ++ (x ++ y ++ z).drop y.length := by
  apply List.ext_getElem?
  intro i
  rw [getElem?_moveBytes hpos _ _ (by simp only [List.length_append]; omega)]
  by_cases hi : i < y.length
  · rw [if_pos ⟨Nat.zero_le _, by omega⟩, List.append_assoc, List.getElem?_append_right (by omega),
      Nat.add_sub_cancel_left, List.getElem?_append_left hi, List.getElem?_append_left hi]
  · rw [if_neg (by omega)]
    generalize x ++ y ++ z = buf
    rw [List.getElem?_append_right (by omega), List.getElem?_drop, Nat.add_sub_cancel' (by omega)]

/-! ## The relation -/

/-- The items stored in a buffer. -/
structure Holds (f : FifoBuffer) (items : List (Item n)) : Prop where
  itemSize : f.itemSize = n
  fits : items.length * n ≤ internalBufferSize
  buffer : f.internalBuffer =
    itemBytes items ++ List.replicate (internalBufferSize - items.length * n) 0
  index : f.index = (items.length * n : ℕ)
  numItems : f.numItems = items.length

theorem holds_new (n : ℕ) : (new n).Holds ([] : List (Item n)) := by
  refine ⟨rfl, by simp, ?_, by simp [new], rfl⟩
  simp [new]

namespace Holds

variable {f : FifoBuffer} {items : List (Item n)}

theorem index_bound (h : f.Holds items) : 0 ≤ f.index ∧ f.index ≤ internalBufferSize := by
  rw [h.index]
  exact ⟨Int.natCast_nonneg _, Int.ofNat_le.mpr h.fits⟩

/-- There are at most as many items as bytes. -/
theorem length_le (h : f.Holds items) (hpos : 0 < n) : items.length ≤ internalBufferSize :=
  Nat.le_trans (Nat.le_mul_of_pos_right _ hpos) h.fits

theorem index_eq_zero (h : f.Holds items) (hpos : 0 < n) : f.index = 0 ↔ items = [] := by
  rw [h.index, Int.natCast_eq_zero, Nat.mul_eq_zero, List.length_eq_zero_iff]
  constructor
  · rintro (hnil | hzero)
    · exact hnil
    · omega
  · exact .inl

/-- Bytes at or behind `index` are zero. -/
theorem zero_behind (h : f.Holds items) : f.internalBuffer.drop f.index.toNat =
    List.replicate (internalBufferSize - f.index.toNat) 0 := by
  rw [h.index, h.buffer, Int.toNat_natCast, ← length_itemBytes, List.drop_left]

/-- The sum in the bound check does not wrap. -/
theorem u32_index (h : f.Holds items) (hn : n ≤ internalBufferSize) :
    u32 (f.index + f.itemSize) = (items.length + 1) * n := by
  have hfits := h.fits
  unfold internalBufferSize at hn hfits
  rw [h.index, h.itemSize, ← Int.natCast_add, u32_of_lt (by omega)]
  ring

theorem put (h : f.Holds items) (hpos : 0 < n) (x : Item n)
    (hroom : (items.length + 1) * n ≤ internalBufferSize) :
    (f.put x.1).1 = true ∧ (f.put x.1).2.Holds (items ++ [x]) := by
  have hn : n ≤ internalBufferSize := Nat.le_trans (Nat.le_mul_of_pos_left n (by omega)) hroom
  have hcount : items.length + 1 ≤ internalBufferSize :=
    Nat.le_trans (Nat.le_mul_of_pos_right _ hpos) hroom
  have hsum : f.index + f.itemSize = ((items.length + 1) * n : ℕ) := by
    rw [h.index, h.itemSize, ← Int.natCast_add]
    congr 1
    ring
  have hlen : (items ++ [x]).length = items.length + 1 := List.length_append
  have hroom' : (items.length + 1) * n ≤ 3000 := hroom
  unfold FifoBuffer.put
  rw [if_pos (by rw [h.u32_index hn]; exact hroom)]
  refine ⟨rfl, h.itemSize, by rw [hlen]; exact hroom, ?_, ?_, ?_⟩
  · have hmul : (items.length + 1) * n = items.length * n + n := by ring
    have hitem : x.1.take n = x.1 := List.take_of_length_le x.2.le
    have hzeros : internalBufferSize - items.length * n - n =
        internalBufferSize - (items.length + 1) * n := by rw [hmul, Nat.sub_sub]
    show memcpyAt f.internalBuffer f.index (x.1.take f.itemSize) = _
    unfold memcpyAt
    rw [if_pos h.index_bound.1, h.itemSize, hitem, h.index, h.buffer, Int.toNat_natCast, memcpy_of_le,
      ← length_itemBytes, List.take_left, x.2, ← List.drop_drop, List.drop_left, List.drop_replicate,
      length_itemBytes, hzeros, itemBytes_append, itemBytes_cons, itemBytes_nil, List.append_nil, hlen]
    rw [List.length_append, length_itemBytes, List.length_replicate, x.2]
    omega
  · show i32 (f.index + f.itemSize) = _
    rw [hsum, hlen, i32_of_lt (by omega)]
  · show i32 (f.numItems + 1) = _
    unfold internalBufferSize at hcount
    rw [h.numItems, hlen, ← Int.natCast_succ, i32_of_lt (by omega)]

theorem put_full (h : f.Holds items) (hn : n ≤ internalBufferSize) (x : Bytes)
    (hfull : internalBufferSize < (items.length + 1) * n) : f.put x = (false, f) := by
  unfold FifoBuffer.put
  rw [if_neg (by rw [h.u32_index hn]; omega)]

/-- `forward_fifo` and the counters: the oldest item is gone, and zeros are where the last one was. -/
theorem forward {x : Item n} (h : f.Holds (x :: items)) (hpos : 0 < n) :
    f.forwardFifo.dropCounters.Holds items := by
  have hmul : (items.length + 1) * n = items.length * n + n := by ring
  have hfits : items.length * n + n ≤ internalBufferSize := hmul ▸ h.fits
  have hcount := h.length_le hpos
  have hfits' : items.length * n + n ≤ 3000 := hfits
  have hcount' : items.length + 1 ≤ 3000 := hcount
  have hmoved : (f.numItems - 1).toNat * f.itemSize = (itemBytes items).length := by
    rw [h.numItems, h.itemSize, length_itemBytes, List.length_cons]
    congr 1
    omega
  refine ⟨h.itemSize, by omega, ?_, ?_, ?_⟩
  · show memcpy (moveBytes f.itemSize _ 0 f.internalBuffer) _ (List.replicate f.itemSize 0) = _
    have hbuf : f.internalBuffer = x.1 ++ itemBytes items ++
        List.replicate (internalBufferSize - (items.length + 1) * n) 0 := h.buffer
    have hmove := moveBytes_append (x := x.1) (y := itemBytes items)
      (z := List.replicate (internalBufferSize - (items.length + 1) * n) 0) (by rw [x.2]; exact hpos)
    rw [hmoved, h.itemSize, hbuf]
    rw [x.2] at hmove
    have hdrop : ∀ buf : Bytes, ((itemBytes items ++ buf.drop (itemBytes items).length).drop
        ((itemBytes items).length + n)) = buf.drop ((itemBytes items).length + n) := by
      intro buf
      rw [← List.drop_drop, List.drop_left, List.drop_drop]
    have hcells : (x.1 ++ itemBytes items).length = (itemBytes items).length + n := by
      rw [List.length_append, x.2, Nat.add_comm]
    have hzeros : n + (internalBufferSize - (items.length + 1) * n) =
        internalBufferSize - items.length * n := by omega
    rw [hmove, memcpy_of_le, List.take_left, List.length_replicate, hdrop, ← hcells, List.drop_left,
      List.append_assoc, List.replicate_append_replicate, hzeros]
    simp only [List.length_append, List.length_drop, List.length_replicate, length_itemBytes, x.2]
    omega
  · show i32 (f.index - f.itemSize) = _
    have hsub : f.index - f.itemSize = (items.length * n : ℕ) := by
      rw [h.index, h.itemSize, List.length_cons, hmul]
      omega
    rw [hsub, i32_of_lt (by omega)]
  · show i32 (f.numItems - 1) = _
    have hsub : f.numItems - 1 = items.length := by
      rw [h.numItems, List.length_cons]
      omega
    rw [hsub, i32_of_lt (by omega)]

/-- The oldest item is at the start of the array. -/
theorem take_item {x : Item n} (h : f.Holds (x :: items)) : f.internalBuffer.take f.itemSize = x.1 := by
  rw [h.itemSize, h.buffer, itemBytes_cons, List.append_assoc, List.take_append_of_le_length x.2.ge,
    List.take_of_length_le x.2.le]

theorem get_empty (h : f.Holds ([] : List (Item n))) (hpos : 0 < n) :
    f.get = ((0, List.replicate n 0), f) := by
  unfold FifoBuffer.get
  rw [if_pos ((h.index_eq_zero hpos).mpr rfl), h.itemSize]

theorem get {x : Item n} (h : f.Holds (x :: items)) (hpos : 0 < n) :
    f.get.1 = (n, x.1) ∧ f.get.2.Holds items := by
  have hne : ¬ f.index = 0 := fun hzero => by
    have hnil := (h.index_eq_zero hpos).mp hzero
    cases hnil
  unfold FifoBuffer.get
  rw [if_neg hne, h.take_item, h.itemSize]
  exact ⟨rfl, h.forward hpos⟩

theorem peek_empty (h : f.Holds ([] : List (Item n))) (hpos : 0 < n) :
    f.peek = (0, List.replicate n 0) := by
  unfold FifoBuffer.peek
  rw [if_pos ((h.index_eq_zero hpos).mpr rfl), h.itemSize]

theorem peek {x : Item n} (h : f.Holds (x :: items)) (hpos : 0 < n) : f.peek = (n, x.1) := by
  have hne : ¬ f.index = 0 := fun hzero => by
    have hnil := (h.index_eq_zero hpos).mp hzero
    cases hnil
  unfold FifoBuffer.peek
  rw [if_neg hne, h.take_item, h.itemSize]

theorem isEmpty (h : f.Holds items) (hpos : 0 < n) : f.isEmpty = items.isEmpty := by
  have hle : f.index ≤ 0 ↔ f.index = 0 :=
    ⟨fun hle => Int.le_antisymm hle h.index_bound.1, fun hzero => hzero.le⟩
  unfold FifoBuffer.isEmpty
  rw [Bool.eq_iff_iff, decide_eq_true_iff, hle, h.index_eq_zero hpos, List.isEmpty_iff]

theorem getNumItems (h : f.Holds items) (hpos : 0 < n) : f.getNumItems = items.length := by
  have hcount : items.length ≤ 3000 := h.length_le hpos
  unfold FifoBuffer.getNumItems
  rw [h.numItems, u32_of_lt (by omega)]

end Holds

/-! ## The queue it implements -/

/-- What a call gives back: a truth value, or a size with the bytes of the destination, or a number. -/
inductive Result where
  | bool (b : Bool)
  | copied (size : ℕ) (dst : Bytes)
  | num (k : ℕ)
  deriving DecidableEq, Repr

/-- One call. -/
def perform (f : FifoBuffer) : Queue.Op (Item n) → Result × FifoBuffer
  | .put x => (.bool (f.put x.1).1, (f.put x.1).2)
  | .get => (.copied f.get.1.1 f.get.1.2, f.get.2)
  | .peek => (.copied f.peek.1 f.peek.2, f)
  | .removeOne => (.num f.removeOne.1, f.removeOne.2)
  | .isEmpty => (.bool f.isEmpty, f)
  | .isFull => (.bool f.isFull, f)
  | .getNumItems => (.num f.getNumItems, f)

/-- What the calls give back for the answer of a queue. -/
def Result.ofAnswer (n : ℕ) : Queue.Answer (Item n) → Result
  | .test b => .bool b
  | .oldest none => .copied 0 (List.replicate n 0)
  | .oldest (some x) => .copied n x.1
  | .removed => .num n
  | .count k => .num k

/-- `removeOne` is called only when `is_empty` is false. -/
def Admitted (f : FifoBuffer) (op : Queue.Op (Item n)) : Prop := op = .removeOne → f.isEmpty = false

instance (f : FifoBuffer) (op : Queue.Op (Item n)) : Decidable (f.Admitted op) :=
  inferInstanceAs (Decidable (_ → _))

/-- The capacity of the queue. -/
def capacity (n : ℕ) : ℕ := internalBufferSize / n

section Refinement

variable {f : FifoBuffer} {q : Queue.Bounded (Item n) (capacity n)}

theorem full_iff (hpos : 0 < n) : q.Full ↔ internalBufferSize < (q.items.length + 1) * n := by
  have hfits : q.items.length ≤ internalBufferSize / n := q.fits
  unfold Queue.Bounded.Full capacity
  rw [← Nat.div_lt_iff_lt_mul hpos]
  omega

/-- Each call answers as the queue does and keeps the relation. -/
theorem Holds.perform (h : f.Holds q.items) (hpos : 0 < n) (hn : n ≤ internalBufferSize)
    (op : Queue.Op (Item n)) (hok : f.Admitted op) :
    (f.perform op).1 = Result.ofAnswer n (q.perform op).1 ∧
      (f.perform op).2.Holds (q.perform op).2.items := by
  cases op with
  | put x =>
    by_cases hfull : q.Full
    · have hput := h.put_full hn x.1 ((full_iff hpos).mp hfull)
      show Result.bool (f.put x.1).1 = _ ∧ (f.put x.1).2.Holds _
      rw [Queue.Bounded.perform_put_full hfull, hput]
      exact ⟨rfl, h⟩
    · have hroom := h.put hpos x (Nat.le_of_not_lt fun hlt => hfull ((full_iff hpos).mpr hlt))
      show Result.bool (f.put x.1).1 = _ ∧ (f.put x.1).2.Holds _
      rw [Queue.Bounded.perform_put_room hfull, hroom.1]
      exact ⟨rfl, hroom.2⟩
  | get =>
    show Result.copied f.get.1.1 f.get.1.2 = .ofAnswer n (.oldest q.items.head?) ∧ f.get.2.Holds q.items.tail
    cases hq : q.items with
    | nil =>
      rw [hq] at h
      rw [h.get_empty hpos]
      exact ⟨rfl, h⟩
    | cons x items =>
      rw [hq] at h
      obtain ⟨hres, hnext⟩ := h.get hpos
      rw [hres]
      exact ⟨rfl, hnext⟩
  | peek =>
    show Result.copied f.peek.1 f.peek.2 = .ofAnswer n (.oldest q.items.head?) ∧ f.Holds q.items
    cases hq : q.items with
    | nil =>
      rw [hq] at h
      rw [h.peek_empty hpos]
      exact ⟨rfl, h⟩
    | cons x items =>
      rw [hq] at h
      rw [h.peek hpos]
      exact ⟨rfl, h⟩
  | removeOne =>
    have hne : q.items.isEmpty = false := (h.isEmpty hpos).symm.trans (hok rfl)
    refine ⟨congrArg Result.num h.itemSize, ?_⟩
    show f.forwardFifo.dropCounters.Holds q.items.tail
    cases hq : q.items with
    | nil =>
      rw [hq] at hne
      cases hne
    | cons x items =>
      rw [hq] at h
      exact h.forward hpos
  | isEmpty => exact ⟨congrArg Result.bool (h.isEmpty hpos), h⟩
  | isFull =>
    refine ⟨congrArg Result.bool ?_, h⟩
    show decide (internalBufferSize < u32 (f.index + f.itemSize)) = decide q.Full
    rw [h.u32_index hn]
    exact decide_eq_decide.mpr (full_iff hpos).symm
  | getNumItems => exact ⟨congrArg Result.num (h.getNumItems hpos), h⟩

end Refinement

/-- **`Fifo_buffer` refines a bounded queue**: from a fresh object every run of calls gives what the queue
of capacity `floor( INTERNAL_BUFFER_SIZE / item_size )` gives, and the bytes at or behind `index` are
zero. -/
theorem fifo_refines_queue (hpos : 0 < n) (hn : n ≤ internalBufferSize) (ops : List (Queue.Op (Item n)))
    (hops : Run.Along (fun f op => (perform f op).2) Admitted (new n) ops) :
    Run.answers perform (new n) ops =
        (Run.answers Queue.Bounded.perform (.empty : Queue.Bounded (Item n) (capacity n)) ops).map
          (Result.ofAnswer n) ∧
      (Run.final perform (new n) ops).internalBuffer.drop (Run.final perform (new n) ops).index.toNat =
        List.replicate (internalBufferSize - (Run.final perform (new n) ops).index.toNat) 0 := by
  obtain ⟨hans, hholds⟩ := Run.answers_eq
    (R := fun (f : FifoBuffer) (q : Queue.Bounded (Item n) (capacity n)) => f.Holds q.items)
    (t := .empty) (holds_new n) hops fun f q op h hok => h.perform hpos hn op hok
  exact ⟨hans, hholds.zero_behind⟩

/-- An item of a thousand bytes. -/
def sampleItem : Item 1000 := ⟨List.replicate 1000 7, List.length_replicate⟩

/-- Three items of a thousand bytes fill the queue. -/
def sampleCalls : List (Queue.Op (Item 1000)) :=
  [.put sampleItem, .put sampleItem, .put sampleItem, .put sampleItem, .isFull, .removeOne, .getNumItems]

theorem fifo_refines_queue_fill : Run.answers perform (new 1000) sampleCalls =
    [.bool true, .bool true, .bool true, .bool false, .bool true, .num 1000, .num 2] := by
  have hops : Run.Along (fun f op => (perform f op).2) Admitted (new 1000) sampleCalls :=
    ⟨nofun, nofun, nofun, nofun, nofun, fun _ => by decide +kernel, nofun, trivial⟩
  have h := fifo_refines_queue (by decide) (by decide) sampleCalls hops
  rw [h.1]
  rfl

end FifoBuffer

end NeuronWired
