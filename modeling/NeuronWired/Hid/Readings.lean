import NeuronWired.Hid.Descriptor

/-!
# Hid.Readings — the controls that a host finds active in a report

A value is a number, in two's complement where the logical minimum is given above the maximum.  Outside the
logical range it says nothing; a control of a variable field rests at zero, and usage zero is no control.
-/

namespace HidDescriptor

/-- A control that is active: its page and usage, and its number; one for a usage that an array lists. -/
structure Reading where
  page : ℕ
  usage : ℕ
  number : ℤ
  deriving DecidableEq, Repr

namespace Field

/-- The number that a value stands for.  The limits are given in as many bits as the values. -/
def number (f : Field) (v : ℕ) : ℤ :=
  if f.logicalMax < f.logicalMin then (BitVec.ofNat f.size v).toInt else v

/-- The number lies in the logical range. -/
def InRange (f : Field) (z : ℤ) : Prop := f.number f.logicalMin ≤ z ∧ z ≤ f.number f.logicalMax

instance (f : Field) (z : ℤ) : Decidable (f.InRange z) := inferInstanceAs (Decidable (_ ∧ _))

/-- The active control in the value at place `i`, if there is one. -/
def reading (f : Field) (i v : ℕ) : Option Reading :=
  let z := f.number v
  if f.InRange z then
    if f.isVariable = true then if z = 0 then none else some ⟨f.usagePage, f.usage i, z⟩
    else match f.usages[(z - f.number f.logicalMin).toNat]? with
      | some u => if u = 0 then none else some ⟨f.usagePage, u, 1⟩
      | none => none
  else none

/-- The active controls of a field at bit `n`. -/
def readings (f : Field) (report : List UInt8) (n : ℕ) : List Reading :=
  if f.isConstant = true then []
  else (List.range f.count).filterMap fun i => f.reading i (value report f.size (n + i * f.size))

end Field

/-- The active controls of a report, cut into fields from bit `n` on. -/
def readings (report : List UInt8) : List Field → ℕ → List Reading
  | [], _ => []
  | f :: fs, n => f.readings report n ++ readings report fs (n + f.bits)

@[simp] theorem readings_nil (report : List UInt8) (n : ℕ) : readings report [] n = [] := rfl

@[simp] theorem readings_cons (report : List UInt8) (f : Field) (fs : List Field) (n : ℕ) :
    readings report (f :: fs) n = f.readings report n ++ readings report fs (n + f.bits) := rfl

/-! ## Values at the bounds of bytes -/

theorem value_add (report : List UInt8) (a b n : ℕ) :
    value report (a + b) n = value report a n + 2 ^ a * value report b (n + a) := by
  induction a generalizing n with
  | zero =>
    rw [Nat.zero_add, Nat.pow_zero, Nat.one_mul, Nat.add_zero]
    exact (Nat.zero_add _).symm
  | succ a ih =>
    rw [Nat.succ_add]
    show (bit report n).toNat + 2 * value report (a + b) (n + 1) =
      (bit report n).toNat + 2 * value report a (n + 1) + _
    rw [ih (n + 1), Nat.mul_add, Nat.pow_succ, Nat.mul_comm (2 ^ a) 2, Nat.mul_assoc, Nat.add_assoc n 1 a,
      Nat.add_comm 1 a, Nat.add_assoc]

theorem toNat_bit (report : List UInt8) (k : ℕ) {j : ℕ} (hj : j < 8) :
    (bit report (8 * k + j)).toNat = (report.getD k 0).toNat / 2 ^ j % 2 := by
  have hdiv : (8 * k + j) / 8 = k := by omega
  have hmod : (8 * k + j) % 8 = j := by omega
  unfold bit
  rw [hdiv, hmod]
  show ((report.getD k 0).toNat.testBit j).toNat = _
  rw [Nat.toNat_testBit]

/-- Bits of one byte. -/
theorem value_of_byte (report : List UInt8) (k : ℕ) {j s : ℕ} (h : j + s ≤ 8) :
    value report s (8 * k + j) = (report.getD k 0).toNat / 2 ^ j % 2 ^ s := by
  induction s generalizing j with
  | zero => exact (Nat.mod_one _).symm
  | succ s ih =>
    have hrest := ih (j := j + 1) (by omega)
    show (bit report (8 * k + j)).toNat + 2 * value report s (8 * k + j + 1) = _
    rw [toNat_bit report k (by omega), Nat.add_assoc, hrest, Nat.pow_succ 2 s, Nat.mul_comm (2 ^ s) 2, Nat.mod_mul,
      Nat.div_div_eq_div_mul, ← Nat.pow_succ]

theorem value_byte (report : List UInt8) (k : ℕ) : value report 8 (8 * k) = (report.getD k 0).toNat := by
  have hvalue := value_of_byte report k (j := 0) (s := 8) (by omega)
  rw [Nat.pow_zero, Nat.div_one] at hvalue
  exact hvalue.trans (Nat.mod_eq_of_lt (report.getD k 0).toNat_lt)

theorem value_word (report : List UInt8) (k : ℕ) :
    value report 16 (8 * k) = (report.getD k 0).toNat + 256 * (report.getD (k + 1) 0).toNat := by
  rw [value_add report 8 8, value_byte, show 8 * k + 8 = 8 * (k + 1) by omega, value_byte]
  rfl

/-! ## What a field says -/

section Field

variable {f : Field} {report : List UInt8} {n : ℕ} {ρ : Reading}

theorem readings_constant (h : f.isConstant = true) : f.readings report n = [] := by
  unfold Field.readings
  rw [if_pos h]

theorem readings_of_data (h : f.isConstant = false) : f.readings report n =
    (List.range f.count).filterMap fun i => f.reading i (value report f.size (n + i * f.size)) := by
  unfold Field.readings
  rw [if_neg (by rw [h]; exact Bool.false_ne_true)]

/-- A field of one value. -/
theorem readings_one (h : f.isConstant = false) (hcount : f.count = 1) :
    f.readings report n = (f.reading 0 (value report f.size n)).toList := by
  rw [readings_of_data h, hcount, List.range_one, List.filterMap_cons, List.filterMap_nil, Nat.zero_mul,
    Nat.add_zero]
  cases f.reading 0 (value report f.size n) <;> rfl

/-- A control of a variable field. -/
theorem reading_variable (h : f.isVariable = true) (i v : ℕ) : f.reading i v =
    if f.InRange (f.number v) ∧ f.number v ≠ 0 then some ⟨f.usagePage, f.usage i, f.number v⟩ else none := by
  unfold Field.reading
  by_cases hrange : f.InRange (f.number v)
  · by_cases hzero : f.number v = 0
    · simp [h, hzero]
    · simp [h, hrange, hzero]
  · simp [hrange]

theorem number_of_le (h : f.logicalMin ≤ f.logicalMax) (v : ℕ) : f.number v = v := by
  unfold Field.number
  rw [if_neg (Nat.not_lt.mpr h)]

theorem inRange_of_le (h : f.logicalMin ≤ f.logicalMax) (v : ℕ) :
    f.InRange v ↔ f.logicalMin ≤ v ∧ v ≤ f.logicalMax := by
  unfold Field.InRange
  rw [number_of_le h, number_of_le h]
  omega

/-- A flag: its usage if the bit is set. -/
theorem reading_flag (h : f.isVariable = true) (hmin : f.logicalMin = 0) (hmax : f.logicalMax = 1) (i : ℕ)
    (b : Bool) : f.reading i b.toNat = if b = true then some ⟨f.usagePage, f.usage i, 1⟩ else none := by
  have hle : f.logicalMin ≤ f.logicalMax := by omega
  have hrange : f.InRange b.toNat := by
    rw [inRange_of_le hle, hmin, hmax]
    exact ⟨Nat.zero_le _, Bool.toNat_le b⟩
  rw [reading_variable h, number_of_le hle]
  cases b with
  | true => exact if_pos ⟨hrange, Int.one_ne_zero⟩
  | false => exact if_neg fun hf => hf.2 rfl

/-- A usage that an array lists, where the usages follow one another. -/
theorem reading_array {first : ℕ} (h : f.isVariable = false) (hle : f.logicalMin ≤ f.logicalMax)
    (husages : f.usages = List.range' first (f.logicalMax - f.logicalMin + 1)) (i v : ℕ) :
    f.reading i v = if (f.logicalMin ≤ v ∧ v ≤ f.logicalMax) ∧ first + (v - f.logicalMin) ≠ 0 then
      some ⟨f.usagePage, first + (v - f.logicalMin), 1⟩ else none := by
  have hindex : ((v : ℤ) - f.logicalMin).toNat = v - f.logicalMin := by omega
  unfold Field.reading
  simp only [h, number_of_le hle, inRange_of_le hle, husages, hindex, Bool.false_eq_true, if_false]
  by_cases hv : f.logicalMin ≤ v ∧ v ≤ f.logicalMax
  · rw [if_pos hv, List.getElem?_range' (by omega), Nat.one_mul]
    by_cases hzero : first + (v - f.logicalMin) = 0
    · simp [hzero]
    · rw [if_pos ⟨hv, hzero⟩]
      exact if_neg hzero
  · rw [if_neg hv, if_neg fun hf => hv hf.1]

end Field

end HidDescriptor
