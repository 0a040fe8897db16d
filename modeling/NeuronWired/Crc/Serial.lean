import Mathlib.Tactic.Common
import Mathlib.Data.List.GetD

/-!
# Crc.Serial — cyclic redundancy checks, one bit at a time

A register of `w` bits is shifted once for every bit of a message, most significant bit first, and the
polynomial is added whenever a one is shifted out.  Feeding at most `w` bits is adding them to the register
and shifting as often (`run_eq_shifts`); a polynomial with a constant term makes every shift invertible, so
two messages that differ within `w` consecutive bits leave different registers (`run_ne_of_burst`).
-/

namespace SerialCrc

variable {w : ℕ} (poly : BitVec w)

/-- One shift of the register. -/
def shift (r : BitVec w) : BitVec w := if r.msb then (r <<< 1) ^^^ poly else r <<< 1

/-- `n` shifts. -/
def shifts : ℕ → BitVec w → BitVec w
  | 0, r => r
  | n + 1, r => shifts n (shift poly r)

/-- A bit in the first place of a register. -/
def first (b : Bool) : BitVec w := if b then BitVec.intMin w else 0#w

/-- One bit of the message. -/
def feed (r : BitVec w) (b : Bool) : BitVec w := shift poly (r ^^^ first b)

/-- The register after a message. -/
def run (r : BitVec w) (bits : List Bool) : BitVec w := bits.foldl (feed poly) r

/-- The bits in a register, from the first place on. -/
def pack : List Bool → BitVec w
  | [] => 0#w
  | b :: bits => first b ^^^ (pack bits >>> 1)

@[simp] theorem run_nil (r : BitVec w) : run poly r [] = r := rfl

@[simp] theorem run_cons (r : BitVec w) (b : Bool) (bits : List Bool) :
    run poly r (b :: bits) = run poly (feed poly r b) bits := rfl

theorem run_append (r : BitVec w) (bits bits' : List Bool) :
    run poly r (bits ++ bits') = run poly (run poly r bits) bits' := List.foldl_append

/-! ## Shifts are linear -/

variable {poly}

theorem shift_xor (r r' : BitVec w) : shift poly (r ^^^ r') = shift poly r ^^^ shift poly r' := by
  unfold shift
  rw [BitVec.msb_xor, BitVec.shiftLeft_xor_distrib]
  generalize r <<< 1 = a
  generalize r' <<< 1 = b
  have hcancel : a ^^^ poly ^^^ (b ^^^ poly) = a ^^^ b := by
    rw [BitVec.xor_assoc, BitVec.xor_comm b poly, ← BitVec.xor_assoc poly poly, BitVec.xor_self,
      BitVec.zero_xor]
  have hright : a ^^^ (b ^^^ poly) = a ^^^ b ^^^ poly := (BitVec.xor_assoc _ _ _).symm
  have hleft : a ^^^ poly ^^^ b = a ^^^ b ^^^ poly := by
    rw [BitVec.xor_assoc, BitVec.xor_comm poly b, ← BitVec.xor_assoc]
  cases r.msb <;> cases r'.msb
  · rfl
  · exact hright.symm
  · exact hleft.symm
  · exact hcancel.symm

/-- A polynomial with a constant term shifts no register but zero to zero. -/
theorem eq_zero_of_shift (hpoly : poly.getLsbD 0 = true) {r : BitVec w} (h : shift poly r = 0#w) :
    r = 0#w := by
  have hbit : (shift poly r).getLsbD 0 = false := by rw [h]; exact BitVec.getLsbD_zero
  unfold shift at h hbit
  by_cases hmsb : r.msb = true
  · -- the bit that the polynomial leaves behind
    rw [if_pos hmsb, BitVec.getLsbD_xor, hpoly, BitVec.getLsbD_shiftLeft] at hbit
    simp at hbit
  · rw [if_neg hmsb] at h
    refine BitVec.eq_of_getMsbD_eq fun i hi => ?_
    rw [BitVec.getMsbD_zero]
    cases i with
    | zero => rw [← BitVec.msb_eq_getMsbD_zero]; simpa using hmsb
    | succ i =>
      have hi : (r <<< 1).getMsbD i = false := by rw [h]; exact BitVec.getMsbD_zero
      rwa [BitVec.getMsbD_shiftLeft] at hi

theorem shift_injective (hpoly : poly.getLsbD 0 = true) {r r' : BitVec w}
    (h : shift poly r = shift poly r') : r = r' := by
  have hzero : shift poly (r ^^^ r') = 0#w := by rw [shift_xor, h, BitVec.xor_self]
  exact BitVec.xor_eq_zero_iff.mp (eq_zero_of_shift hpoly hzero)

theorem shifts_injective (hpoly : poly.getLsbD 0 = true) (n : ℕ) {r r' : BitVec w}
    (h : shifts poly n r = shifts poly n r') : r = r' := by
  induction n generalizing r r' with
  | zero => exact h
  | succ n ih => exact shift_injective hpoly (ih h)

/-- What follows cannot undo a difference. -/
theorem run_injective (hpoly : poly.getLsbD 0 = true) (bits : List Bool) {r r' : BitVec w}
    (h : run poly r bits = run poly r' bits) : r = r' := by
  induction bits generalizing r r' with
  | nil => exact h
  | cons b bits ih => exact (BitVec.xor_left_inj _).mp (shift_injective hpoly (ih h))

/-! ## At most as many bits as the register has -/

theorem getMsbD_first (b : Bool) (i : ℕ) (hi : i < w) :
    (first b : BitVec w).getMsbD i = (b && decide (i = 0)) := by
  unfold first
  cases b
  · exact BitVec.getMsbD_zero
  · rw [if_pos rfl, BitVec.getMsbD_intMin]
    simp
    omega

theorem getMsbD_pack {bits : List Bool} {i : ℕ} (hi : i < w) :
    (pack bits : BitVec w).getMsbD i = bits.getD i false := by
  induction bits generalizing i with
  | nil => exact BitVec.getMsbD_zero
  | cons b bits ih =>
    unfold pack
    rw [BitVec.getMsbD_xor, getMsbD_first _ _ hi, BitVec.getMsbD_ushiftRight]
    cases i with
    | zero => simp
    | succ i => simp [hi, ih (i := i) (by omega)]

/-- A packed tail moves up by one place. -/
theorem shift_pack {bits : List Bool} (h : bits.length < w) :
    shift poly (pack bits >>> 1) = pack bits := by
  have hmsb : (pack bits >>> 1 : BitVec w).msb = false := by
    rw [BitVec.msb_eq_getMsbD_zero, BitVec.getMsbD_ushiftRight]
    simp
  unfold shift
  rw [hmsb]
  refine BitVec.eq_of_getMsbD_eq fun i hi => ?_
  rw [if_neg Bool.false_ne_true, BitVec.getMsbD_shiftLeft, BitVec.getMsbD_ushiftRight]
  by_cases hlast : i + 1 < w
  · simp [hlast]
  · rw [getMsbD_pack hi, List.getD_eq_default _ _ (by omega)]
    simp [hlast]

/-- Feeding is adding all the bits, then shifting. -/
theorem run_eq_shifts (r : BitVec w) {bits : List Bool} (h : bits.length ≤ w) :
    run poly r bits = shifts poly bits.length (r ^^^ pack bits) := by
  induction bits generalizing r with
  | nil => exact (BitVec.xor_zero).symm
  | cons b bits ih =>
    rw [List.length_cons] at h
    rw [run_cons, ih _ (by omega), List.length_cons, shifts, pack, ← BitVec.xor_assoc, shift_xor,
      shift_pack (by omega)]
    rfl

theorem pack_injective {bits bits' : List Bool} (hlen : bits.length = bits'.length)
    (hw : bits.length ≤ w) (h : (pack bits : BitVec w) = pack bits') : bits = bits' := by
  refine List.ext_getElem hlen fun i hi hi' => ?_
  have hbit : (pack bits : BitVec w).getMsbD i = bits.getD i false := getMsbD_pack (by omega)
  rw [h, getMsbD_pack (by omega), List.getD_eq_getElem _ _ hi, List.getD_eq_getElem _ _ hi'] at hbit
  exact hbit.symm

/-! ## Bursts -/

/-- **Bursts are detected**: two messages of one length that differ, but only within `w` consecutive bits,
leave different registers. -/
theorem run_ne_of_burst (hpoly : poly.getLsbD 0 = true) (r : BitVec w) {bits bits' : List Bool}
    (hlen : bits.length = bits'.length) (hne : bits ≠ bits') {a : ℕ}
    (hburst : ∀ i, bits[i]? ≠ bits'[i]? → a ≤ i ∧ i < a + w) :
    run poly r bits ≠ run poly r bits' := by
  intro heq
  have hsplit : ∀ l : List Bool, l = l.take a ++ ((l.drop a).take w ++ l.drop (a + w)) := by
    intro l
    rw [← List.drop_drop, List.take_append_drop, List.take_append_drop]
  have hfront : bits.take a = bits'.take a := by
    refine List.ext_getElem? fun i => ?_
    rw [List.getElem?_take, List.getElem?_take]
    split_ifs with hi
    · by_contra hdiff
      exact absurd (hburst i hdiff).1 (by omega)
    · rfl
  have hback : bits.drop (a + w) = bits'.drop (a + w) := by
    refine List.ext_getElem? fun i => ?_
    rw [List.getElem?_drop, List.getElem?_drop]
    by_contra hdiff
    exact absurd (hburst _ hdiff).2 (by omega)
  have hmiddle : (bits.drop a).take w ≠ (bits'.drop a).take w := by
    intro hmid
    exact hne (by rw [hsplit bits, hsplit bits', hfront, hmid, hback])
  have hlen' : ((bits.drop a).take w).length = ((bits'.drop a).take w).length := by
    rw [List.length_take, List.length_take, List.length_drop, List.length_drop, hlen]
  have hshort : ((bits.drop a).take w).length ≤ w := List.length_take_le _ _
  rw [hsplit bits, hsplit bits', run_append, run_append, run_append, run_append, hfront, hback] at heq
  have hregs := run_injective hpoly _ heq
  generalize run poly r (bits'.take a) = r' at hregs
  rw [run_eq_shifts r' hshort, run_eq_shifts r' (by rw [← hlen']; exact hshort), hlen'] at hregs
  have hpack := shifts_injective hpoly _ hregs
  exact hmiddle (pack_injective hlen' hshort ((BitVec.xor_right_inj _).mp hpack))

end SerialCrc
