import NeuronWired.Crc.Serial

/-!
# Crc.Reflected — the register that is shifted the other way

The same checks with the bits of the register in reverse order: it is shifted towards its last place, and a
bit of the message is added there.  It is the register of `Crc.Serial` read backwards (`reverse_run`).  `k`
shifts are the shifts of the last `k` bits and the others moved `k` places (`shifts_eq_low`), so a table with
an entry for each value of the last `k` bits can replace them.
-/

namespace SerialCrc.Reflected

variable {w : ℕ} (poly : BitVec w)

/-- One shift of the register. -/
def shift (r : BitVec w) : BitVec w := if r.getLsbD 0 then (r >>> 1) ^^^ poly else r >>> 1

/-- `n` shifts. -/
def shifts : ℕ → BitVec w → BitVec w
  | 0, r => r
  | n + 1, r => shifts n (shift poly r)

/-- A bit in the last place of a register. -/
def last (b : Bool) : BitVec w := if b then 1#w else 0#w

/-- One bit of the message. -/
def feed (r : BitVec w) (b : Bool) : BitVec w := shift poly (r ^^^ last b)

/-- The register after a message. -/
def run (r : BitVec w) (bits : List Bool) : BitVec w := bits.foldl (feed poly) r

theorem run_append (r : BitVec w) (bits bits' : List Bool) :
    run poly r (bits ++ bits') = run poly (run poly r bits) bits' := List.foldl_append

variable {poly}

/-! ## Read backwards -/

theorem reverse_xor (r r' : BitVec w) : (r ^^^ r').reverse = r.reverse ^^^ r'.reverse := by
  refine BitVec.eq_of_getLsbD_eq fun i hi => ?_
  simp only [BitVec.getLsbD_reverse, BitVec.getMsbD_xor, BitVec.getLsbD_xor]

theorem reverse_shiftLeft (r : BitVec w) : (r <<< 1).reverse = r.reverse >>> 1 := by
  refine BitVec.eq_of_getLsbD_eq fun i hi => ?_
  rw [BitVec.getLsbD_reverse, BitVec.getMsbD_shiftLeft, BitVec.getLsbD_ushiftRight, BitVec.getLsbD_reverse,
    Nat.add_comm]

theorem reverse_first (b : Bool) : (first b : BitVec w).reverse = last b := by
  refine BitVec.eq_of_getLsbD_eq fun i hi => ?_
  rw [BitVec.getLsbD_reverse, getMsbD_first b i hi]
  unfold last
  cases b with
  | false => simp
  | true => simp [hi]

theorem reverse_shift (r : BitVec w) :
    (SerialCrc.shift poly r).reverse = shift poly.reverse r.reverse := by
  unfold SerialCrc.shift shift
  rw [BitVec.getLsbD_reverse, ← BitVec.msb_eq_getMsbD_zero]
  split_ifs
  · rw [reverse_xor, reverse_shiftLeft]
  · exact reverse_shiftLeft r

theorem reverse_shifts (n : ℕ) (r : BitVec w) :
    (SerialCrc.shifts poly n r).reverse = shifts poly.reverse n r.reverse := by
  induction n generalizing r with
  | zero => rfl
  | succ n ih =>
    show (SerialCrc.shifts poly n (SerialCrc.shift poly r)).reverse = _
    rw [ih, reverse_shift]
    rfl

/-- The register is that of `Crc.Serial` with everything in reverse. -/
theorem reverse_run (r : BitVec w) (bits : List Bool) :
    (SerialCrc.run poly r bits).reverse = run poly.reverse r.reverse bits := by
  induction bits generalizing r with
  | nil => rfl
  | cons b bits ih =>
    have hfeed : (SerialCrc.feed poly r b).reverse = feed poly.reverse r.reverse b := by
      unfold SerialCrc.feed feed
      rw [reverse_shift, reverse_xor, reverse_first]
    rw [SerialCrc.run_cons, ih, hfeed]
    rfl

/-! ## Shifts are linear -/

theorem shift_xor (r r' : BitVec w) : shift poly (r ^^^ r') = shift poly r ^^^ shift poly r' := by
  have hback : ∀ q : BitVec w, shift poly q = (SerialCrc.shift poly.reverse q.reverse).reverse := by
    intro q
    rw [reverse_shift, BitVec.reverse_reverse_eq, BitVec.reverse_reverse_eq]
  rw [hback, hback r, hback r', reverse_xor, SerialCrc.shift_xor, reverse_xor]

theorem shifts_xor (n : ℕ) (r r' : BitVec w) :
    shifts poly n (r ^^^ r') = shifts poly n r ^^^ shifts poly n r' := by
  induction n generalizing r r' with
  | zero => rfl
  | succ n ih =>
    show shifts poly n (shift poly (r ^^^ r')) = _
    rw [shift_xor, ih]
    rfl

/-! ## A table for the last bits -/

/-- Without ones in its last `k` places a register only moves. -/
theorem shifts_of_low_zero {k : ℕ} {r : BitVec w} (h : ∀ i < k, r.getLsbD i = false) :
    shifts poly k r = r >>> k := by
  induction k generalizing r with
  | zero => exact (BitVec.ushiftRight_zero r).symm
  | succ k ih =>
    have hstep : shift poly r = r >>> 1 := by
      unfold shift
      rw [h 0 (Nat.succ_pos k), if_neg Bool.false_ne_true]
    have hrest : ∀ i < k, (r >>> 1).getLsbD i = false := by
      intro i hi
      rw [BitVec.getLsbD_ushiftRight, Nat.add_comm]
      exact h (i + 1) (by omega)
    show shifts poly k (shift poly r) = _
    rw [hstep, ih hrest, ← BitVec.shiftRight_add, Nat.add_comm]

/-- The last `k` bits of a register. -/
def low (k : ℕ) (r : BitVec w) : BitVec w := (r.setWidth k).setWidth w

theorem getLsbD_low {k i : ℕ} (r : BitVec w) : (low k r).getLsbD i = (decide (i < k) && r.getLsbD i) := by
  unfold low
  rw [BitVec.getLsbD_setWidth, BitVec.getLsbD_setWidth]
  by_cases hi : i < w
  · rw [decide_eq_true hi, Bool.true_and]
  · rw [decide_eq_false hi, Bool.false_and, BitVec.getLsbD_of_ge r i (by omega), Bool.and_false]

/-- `k` shifts are those of the last `k` bits, and the other bits moved. -/
theorem shifts_eq_low (k : ℕ) (r : BitVec w) : shifts poly k r = shifts poly k (low k r) ^^^ (r >>> k) := by
  have hsplit : r = low k r ^^^ (r ^^^ low k r) := by
    rw [BitVec.xor_comm r, ← BitVec.xor_assoc, BitVec.xor_self, BitVec.zero_xor]
  have hzero : ∀ i < k, (r ^^^ low k r).getLsbD i = false := by
    intro i hi
    rw [BitVec.getLsbD_xor, getLsbD_low, decide_eq_true hi, Bool.true_and, Bool.xor_self]
  have hmoved : (r ^^^ low k r) >>> k = r >>> k := by
    refine BitVec.eq_of_getLsbD_eq fun i hi => ?_
    rw [BitVec.getLsbD_ushiftRight, BitVec.getLsbD_ushiftRight, BitVec.getLsbD_xor, getLsbD_low,
      decide_eq_false (by omega), Bool.false_and, Bool.xor_false]
  calc shifts poly k r = shifts poly k (low k r ^^^ (r ^^^ low k r)) := by rw [← hsplit]
    _ = shifts poly k (low k r) ^^^ (r >>> k) := by rw [shifts_xor, shifts_of_low_zero hzero, hmoved]

/-- Feeding at most as many bits as the register has is adding them in its last places, then shifting. -/
theorem run_eq_shifts (r : BitVec w) {bits : List Bool} (h : bits.length ≤ w) :
    run poly r bits = shifts poly bits.length (r ^^^ (pack bits).reverse) := by
  have hserial : SerialCrc.run poly.reverse r.reverse bits =
      SerialCrc.shifts poly.reverse bits.length (r.reverse ^^^ pack bits) := SerialCrc.run_eq_shifts r.reverse h
  have hback := congrArg BitVec.reverse hserial
  rw [reverse_run, reverse_shifts, reverse_xor, BitVec.reverse_reverse_eq, BitVec.reverse_reverse_eq] at hback
  exact hback

end SerialCrc.Reflected
