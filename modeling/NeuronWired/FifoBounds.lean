import NeuronWired.FifoQueue

/-!
# FifoBounds — the counters of `Fifo_buffer` and what it touches

`get` and `peek` look whether there is an item; `removeOne` does not.  On an empty buffer it takes `index`
below zero, and the next `put` copies its item in front of the array.  `accesses` lists the bytes of
`internal_buffer` that a call reads and writes, statement by statement.
-/

namespace NeuronWired

variable {n : ℕ}

namespace FifoBuffer

/-! ## The accesses -/

/-- `len` bytes of `internal_buffer`, from `off` on. -/
structure Access where
  off : ℤ
  len : ℕ
  deriving DecidableEq, Repr

/-- The access is one to the array. -/
def Access.Inside (a : Access) : Prop := 0 ≤ a.off ∧ a.off + a.len ≤ internalBufferSize

/-- The loop of `forward_fifo` reads a byte and writes one, `k` times. -/
def moveAccesses (itemSize : ℕ) : ℕ → ℕ → List Access
  | 0, _ => []
  | k + 1, count => ⟨itemSize + count, 1⟩ :: ⟨count, 1⟩ :: moveAccesses itemSize k (count + 1)

/-- `forward_fifo`: the loop, then the `memset` behind the bytes moved. -/
def forwardAccesses (f : FifoBuffer) : List Access :=
  let k := (f.numItems - 1).toNat * f.itemSize
  moveAccesses f.itemSize k 0 ++ [⟨k, f.itemSize⟩]

/-- A call. -/
def accesses (f : FifoBuffer) : Queue.Op (Item n) → List Access
  | .put _ => if u32 (f.index + f.itemSize) ≤ internalBufferSize then [⟨f.index, f.itemSize⟩] else []
  | .get => if f.index = 0 then [] else ⟨0, f.itemSize⟩ :: f.forwardAccesses
  | .peek => if f.index = 0 then [] else [⟨0, f.itemSize⟩]
  | .removeOne => f.forwardAccesses
  | .isEmpty | .isFull | .getNumItems => []

/-! ## What is asked of a call -/

/-- The counters are in their range. -/
structure InRange (f : FifoBuffer) : Prop where
  counts : f.index = f.itemSize * f.numItems
  lower : 0 ≤ f.index
  upper : f.index ≤ internalBufferSize

/-- An item that is put next is taken, and comes out next. -/
def Usable (n : ℕ) (f : FifoBuffer) : Prop :=
  ∀ x : Item n, (f.put x.1).1 = true ∧ (f.put x.1).2.get.1 = (n, x.1)

/-- A call leaves the counters in their range, touches nothing outside the array, and removing from an
empty buffer leaves it empty and usable. -/
structure Proper (f : FifoBuffer) (op : Queue.Op (Item n)) : Prop where
  range : (f.perform op).2.InRange
  inside : ∀ a ∈ f.accesses op, a.Inside
  empty : f.isEmpty = true → op = .get ∨ op = .removeOne →
    (f.perform op).2.isEmpty = true ∧ Usable n (f.perform op).2

/-! ## One call -/

theorem mem_moveAccesses {itemSize k count : ℕ} {a : Access} (h : a ∈ moveAccesses itemSize k count) :
    ∃ i, count ≤ i ∧ i < count + k ∧ (a = ⟨itemSize + i, 1⟩ ∨ a = ⟨i, 1⟩) := by
  induction k generalizing count with
  | zero => cases h
  | succ k ih =>
    unfold moveAccesses at h
    rcases List.mem_cons.mp h with rfl | h
    · exact ⟨count, le_rfl, by omega, .inl rfl⟩
    rcases List.mem_cons.mp h with rfl | h
    · exact ⟨count, le_rfl, by omega, .inr rfl⟩
    obtain ⟨i, h1, h2, ha⟩ := ih h
    exact ⟨i, by omega, by omega, ha⟩

namespace Holds

variable {f : FifoBuffer} {items : List (Item n)}

theorem inRange (h : f.Holds items) : f.InRange := by
  refine ⟨?_, h.index_bound.1, h.index_bound.2⟩
  rw [h.index, h.itemSize, h.numItems, Int.natCast_mul, Int.mul_comm]

/-- The first item lies in the array. -/
theorem first_inside {x : Item n} (h : f.Holds (x :: items)) : (Access.mk 0 f.itemSize).Inside := by
  have hfits := h.fits
  rw [List.length_cons, Nat.add_mul, Nat.one_mul] at hfits
  refine ⟨le_rfl, ?_⟩
  show (0 : ℤ) + f.itemSize ≤ internalBufferSize
  rw [h.itemSize]
  omega

/-- With an item in the buffer `forward_fifo` stays in the array. -/
theorem forward_inside {x : Item n} (h : f.Holds (x :: items)) : ∀ a ∈ f.forwardAccesses, a.Inside := by
  have hfits : items.length * n + n ≤ internalBufferSize := by
    have hfits := h.fits
    rwa [List.length_cons, Nat.add_mul, Nat.one_mul] at hfits
  have hmoved : (f.numItems - 1).toNat * f.itemSize = items.length * n := by
    rw [h.numItems, h.itemSize, List.length_cons]
    congr 1
    omega
  intro a ha
  unfold forwardAccesses at ha
  rw [hmoved, h.itemSize] at ha
  rcases List.mem_append.mp ha with ha | ha
  · obtain ⟨i, -, hi, rfl | rfl⟩ := mem_moveAccesses ha
    · refine ⟨?_, ?_⟩
      · show (0 : ℤ) ≤ n + i
        omega
      · show (n + i : ℤ) + (1 : ℕ) ≤ internalBufferSize
        omega
    · refine ⟨?_, ?_⟩
      · show (0 : ℤ) ≤ i
        omega
      · show (i : ℤ) + (1 : ℕ) ≤ internalBufferSize
        omega
  · rw [List.mem_singleton.mp ha]
    refine ⟨?_, ?_⟩
    · show (0 : ℤ) ≤ (items.length * n : ℕ)
      omega
    · show ((items.length * n : ℕ) : ℤ) + n ≤ internalBufferSize
      omega

/-- An empty buffer is usable. -/
theorem usable (h : f.Holds ([] : List (Item n))) (hpos : 0 < n) (hn : n ≤ internalBufferSize) :
    Usable n f := by
  intro x
  obtain ⟨hput, hnext⟩ := h.put hpos x (by simpa using hn)
  exact ⟨hput, (hnext.get hpos).1⟩

end Holds

/-- Without an item `removeOne` takes `index` below zero. -/
theorem index_removeOne_empty {f : FifoBuffer} (h : f.Holds ([] : List (Item n)))
    (hn : n ≤ internalBufferSize) : f.removeOne.2.index = -n := by
  unfold internalBufferSize at hn
  show i32 (f.index - f.itemSize) = -n
  have hindex : f.index - f.itemSize = -n := by
    rw [h.index, h.itemSize, List.length_nil, Nat.zero_mul]
    omega
  rw [hindex]
  unfold i32 u32
  split_ifs <;> omega

section Calls

variable {f : FifoBuffer} {q : Queue.Bounded (Item n) (capacity n)}

/-- Where `index` is not zero there is an item. -/
theorem Holds.exists_cons {items : List (Item n)} (h : f.Holds items) (hpos : 0 < n) (hne : f.index ≠ 0) :
    ∃ x rest, items = x :: rest :=
  List.exists_cons_of_ne_nil fun hnil => hne ((h.index_eq_zero hpos).mpr hnil)

/-- What is touched while the buffer holds what `removeOne` asks for. -/
theorem Holds.inside (h : f.Holds q.items) (hpos : 0 < n) (hn : n ≤ internalBufferSize)
    (op : Queue.Op (Item n)) (hok : f.Admitted op) : ∀ a ∈ f.accesses op, a.Inside := by
  intro a ha
  cases op with
  | put x =>
    simp only [accesses] at ha
    split_ifs at ha with hroom
    · rw [List.mem_singleton.mp ha]
      rw [h.u32_index hn, Nat.add_mul, Nat.one_mul] at hroom
      refine ⟨h.index_bound.1, ?_⟩
      show f.index + f.itemSize ≤ internalBufferSize
      rw [h.index, h.itemSize]
      omega
    · cases ha
  | get =>
    simp only [accesses] at ha
    split_ifs at ha with hzero
    · cases ha
    · obtain ⟨x, items, hq⟩ := h.exists_cons hpos hzero
      rw [hq] at h
      rcases List.mem_cons.mp ha with rfl | ha
      · exact h.first_inside
      · exact h.forward_inside a ha
  | peek =>
    simp only [accesses] at ha
    split_ifs at ha with hzero
    · cases ha
    · obtain ⟨x, items, hq⟩ := h.exists_cons hpos hzero
      rw [hq] at h
      rw [List.mem_singleton.mp ha]
      exact h.first_inside
  | removeOne =>
    have hne : q.items.isEmpty = false := (h.isEmpty hpos).symm.trans (hok rfl)
    obtain ⟨x, items, hq⟩ := List.exists_cons_of_ne_nil (List.isEmpty_eq_false_iff.mp hne)
    rw [hq] at h
    exact h.forward_inside a ha
  | isEmpty => cases ha
  | isFull => cases ha
  | getNumItems => cases ha

/-- One call is as asked exactly if it is not `removeOne` on an empty buffer. -/
theorem Holds.proper_iff (h : f.Holds q.items) (hpos : 0 < n) (hn : n ≤ internalBufferSize)
    (op : Queue.Op (Item n)) : f.Proper op ↔ f.Admitted op := by
  constructor
  · rintro hproper rfl
    by_contra hempty
    rw [h.isEmpty hpos, Bool.not_eq_false, List.isEmpty_iff] at hempty
    rw [hempty] at h
    have hlower : 0 ≤ f.removeOne.2.index := hproper.range.lower
    rw [index_removeOne_empty h hn] at hlower
    omega
  · intro hok
    have hnext := (h.perform hpos hn op hok).2
    refine ⟨hnext.inRange, h.inside hpos hn op hok, fun hempty hop => ?_⟩
    rcases hop with rfl | rfl
    · -- `get` finds nothing and changes nothing
      have hnil : q.items = [] := by
        rwa [h.isEmpty hpos, List.isEmpty_iff] at hempty
      rw [hnil] at h
      have hsame : (f.perform (.get : Queue.Op (Item n))).2 = f := congrArg Prod.snd (h.get_empty hpos)
      rw [hsame]
      exact ⟨hempty, h.usable hpos hn⟩
    · rw [hok rfl] at hempty
      cases hempty

end Calls

/-! ## Every run -/

/-- The buffer stores a queue of items. -/
def Stores (n : ℕ) (f : FifoBuffer) : Prop := ∃ q : Queue.Bounded (Item n) (capacity n), f.Holds q.items

/-- **The counters of `Fifo_buffer`.**  A new buffer is in its range, and a run of calls leaves the counters
in their range, touches nothing outside the array and leaves what it empties usable exactly if every
`removeOne` of it finds an item. -/
theorem counters_in_range_iff (hpos : 0 < n) (hn : n ≤ internalBufferSize) (ops : List (Queue.Op (Item n))) :
    (new n).InRange ∧
      (Run.Along (fun f op => (perform f op).2) Proper (new n) ops ↔
        Run.Along (fun f op => (perform f op).2) Admitted (new n) ops) := by
  have hstart : (new n).Stores n := ⟨.empty, holds_new n⟩
  have hstep : ∀ (f : FifoBuffer) (op : Queue.Op (Item n)), f.Stores n → f.Admitted op →
      (f.perform op).2.Stores n := by
    rintro f op ⟨q, h⟩ hok
    exact ⟨(q.perform op).2, (h.perform hpos hn op hok).2⟩
  have hiff : ∀ (f : FifoBuffer) (op : Queue.Op (Item n)), f.Stores n → (f.Proper op ↔ f.Admitted op) := by
    rintro f op ⟨q, h⟩
    exact h.proper_iff hpos hn op
  exact ⟨(holds_new n).inRange, (Run.along_true (new n) ops).iff hstart (fun f op h _ => hstep f op h)
    fun f op h _ => hiff f op h⟩

theorem counters_in_range_fill :
    Run.Along (fun f op => (perform f op).2) Proper (new 1000) sampleCalls := by
  refine ((counters_in_range_iff (by decide) (by decide) sampleCalls).2).mpr ?_
  exact ⟨nofun, nofun, nofun, nofun, nofun, fun _ => by decide +kernel, nofun, trivial⟩

/-- A packet of 63 bytes. -/
def samplePacket : Item 63 := ⟨List.replicate 63 7, List.length_replicate⟩

/-- `removeOne` on a new buffer leaves `index` at -63, and the `put` after it copies a packet to the 63 bytes
in front of the array. -/
theorem counters_leave_range :
    (new 63).removeOne.2.index = -63 ∧
      (⟨-63, 63⟩ : Access) ∈ (new 63).removeOne.2.accesses (.put samplePacket) ∧
      ¬(⟨-63, 63⟩ : Access).Inside ∧
      ¬Run.Along (fun f op => (perform f op).2) Proper (new 63) [.removeOne, .put samplePacket] := by
  have hindex : (new 63).removeOne.2.index = -63 := by decide +kernel
  refine ⟨hindex, by decide +kernel, fun h => absurd h.1 (by decide), fun h => ?_⟩
  have hlower : 0 ≤ (new 63).removeOne.2.index := h.1.range.lower
  rw [hindex] at hlower
  exact absurd hlower (by decide)

end FifoBuffer

end NeuronWired
