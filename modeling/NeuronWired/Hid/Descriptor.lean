import Mathlib.Algebra.Ring.Nat
import Mathlib.Tactic.Common
import Mathlib.Data.Nat.Notation

/-!
# Hid.Descriptor — report descriptors and the reports they describe

A HID report descriptor is a string of short items.  Global items set a state, local items name usages, and
every main item for data makes a field out of both.  The host cuts a report into the fields that follow one
another, least significant bit first, and takes from each the usages that are asserted.
-/

namespace HidDescriptor

/-! ## Items -/

/-- A short item: its prefix without the two bits for the size, and its data. -/
structure Item where
  tag : UInt8
  data : ℕ
  deriving DecidableEq, Repr

/-- The number of data bytes that a prefix announces. -/
def dataSize (p : UInt8) : ℕ := if p &&& 3 = 3 then 4 else (p &&& 3).toNat

/-- A number from its bytes, the least significant first. -/
def littleEndian : List UInt8 → ℕ
  | [] => 0
  | b :: bytes => b.toNat + 256 * littleEndian bytes

/-- The items of a descriptor, at most `n`; there are no long items. -/
def items : ℕ → List UInt8 → Option (List Item)
  | _, [] => some []
  | 0, _ :: _ => none
  | n + 1, p :: rest =>
    if p = 0xFE ∨ rest.length < dataSize p then none
    else (items n (rest.drop (dataSize p))).map
      (⟨p &&& 0xFC, littleEndian (rest.take (dataSize p))⟩ :: ·)

/-! ## Fields -/

/-- The direction of a main item. -/
inductive Direction where
  | input
  | output
  | feature
  deriving DecidableEq, Repr

/-- The field that a main item makes: `count` values of `size` bits. -/
structure Field where
  direction : Direction
  isConstant : Bool
  isVariable : Bool
  reportId : ℕ
  usagePage : ℕ
  usages : List ℕ
  logicalMin : ℕ
  logicalMax : ℕ
  size : ℕ
  count : ℕ
  deriving DecidableEq, Repr

/-- The number of bits. -/
def Field.bits (f : Field) : ℕ := f.size * f.count

/-- The usage of a value; the last usage stands for all that follow. -/
def Field.usage (f : Field) (i : ℕ) : ℕ := f.usages.getD i (f.usages.getLastD 0)

/-- Where a parser is: the global items, and the local items since the last main item. -/
structure Parser where
  usagePage : ℕ
  logicalMin : ℕ
  logicalMax : ℕ
  reportSize : ℕ
  reportId : ℕ
  reportCount : ℕ
  usages : List ℕ
  usageMin : ℕ
  depth : ℕ
  fields : List Field
  deriving DecidableEq, Repr

namespace Parser

/-- In front of a descriptor. -/
def start : Parser := ⟨0, 0, 0, 0, 0, 0, [], 0, 0, []⟩

/-- Local items end with a main item. -/
def endLocals (s : Parser) : Parser := { s with usages := [], usageMin := 0 }

/-- The field of a main item with these flags. -/
def field (s : Parser) (direction : Direction) (flags : ℕ) : Field :=
  { direction := direction, isConstant := flags.testBit 0, isVariable := flags.testBit 1
    reportId := s.reportId, usagePage := s.usagePage, usages := s.usages
    logicalMin := s.logicalMin, logicalMax := s.logicalMax, size := s.reportSize
    count := s.reportCount }

/-- A main item for data. -/
def main (s : Parser) (direction : Direction) (flags : ℕ) : Parser :=
  { s.endLocals with fields := s.fields ++ [s.field direction flags] }

/-- One item; nothing for an item that is not known here. -/
def item (s : Parser) (i : Item) : Option Parser :=
  match i.tag with
  | 0x04 => some { s with usagePage := i.data }
  | 0x14 => some { s with logicalMin := i.data }
  | 0x24 => some { s with logicalMax := i.data }
  | 0x74 => some { s with reportSize := i.data }
  | 0x84 => some { s with reportId := i.data }
  | 0x94 => some { s with reportCount := i.data }
  | 0x08 => some { s with usages := s.usages ++ [i.data] }
  | 0x18 => some { s with usageMin := i.data }
  | 0x28 => some { s with usages := s.usages ++ List.range' s.usageMin (i.data + 1 - s.usageMin) }
  | 0x80 => some (s.main .input i.data)
  | 0x90 => some (s.main .output i.data)
  | 0xB0 => some (s.main .feature i.data)
  | 0xA0 => some { s.endLocals with depth := s.depth + 1 }
  | 0xC0 => if s.depth = 0 then none else some { s.endLocals with depth := s.depth - 1 }
  | _ => none

end Parser

/-- The fields of a descriptor in which every collection is closed. -/
def fields (descriptor : List UInt8) : Option (List Field) := do
  let is ← items descriptor.length descriptor
  let s ← is.foldlM Parser.item .start
  if s.depth = 0 then some s.fields else none

/-- The input fields of one report. -/
def inputs (reportId : ℕ) (fs : List Field) : List Field :=
  fs.filter fun f => f.direction = .input ∧ f.reportId = reportId

/-- The number of bits of consecutive fields. -/
def bits (fs : List Field) : ℕ := (fs.map Field.bits).sum

/-! ## Reports -/

/-- Bit `n` of a report. -/
def bit (report : List UInt8) (n : ℕ) : Bool := (report.getD (n / 8) 0).toBitVec.getLsbD (n % 8)

/-- The value of `size` bits from bit `n` on. -/
def value (report : List UInt8) : ℕ → ℕ → ℕ
  | 0, _ => 0
  | size + 1, n => (bit report n).toNat + 2 * value report size (n + 1)

/-- The usages that a field at bit `n` asserts, with their page.  A constant field asserts nothing, a
variable one a usage for every value that is not zero, and an array the usages it lists. -/
def Field.asserted (f : Field) (report : List UInt8) (n : ℕ) : List (ℕ × ℕ) :=
  if f.isConstant = true then []
  else (List.range f.count).filterMap fun i =>
    let v := value report f.size (n + i * f.size)
    if f.isVariable = true then if v ≠ 0 then some (f.usagePage, f.usage i) else none
    else if f.logicalMin ≤ v ∧ v ≤ f.logicalMax then
      (f.usages[v - f.logicalMin]?).map (f.usagePage, ·)
    else none

/-- The usages that a report asserts, cut into fields from bit `n` on. -/
def decode (report : List UInt8) : List Field → ℕ → List (ℕ × ℕ)
  | [], _ => []
  | f :: fs, n => f.asserted report n ++ decode report fs (n + f.bits)

@[simp] theorem decode_nil (report : List UInt8) (n : ℕ) : decode report [] n = [] := rfl

@[simp] theorem decode_cons (report : List UInt8) (f : Field) (fs : List Field) (n : ℕ) :
    decode report (f :: fs) n = f.asserted report n ++ decode report fs (n + f.bits) := rfl

theorem asserted_constant {f : Field} (h : f.isConstant = true) (report : List UInt8) (n : ℕ) :
    f.asserted report n = [] := by
  unfold Field.asserted
  rw [if_pos h]

/-- A field of flags asserts the usages of the bits that are set. -/
theorem mem_asserted_flags {f : Field} (hconst : f.isConstant = false) (hvar : f.isVariable = true)
    (hsize : f.size = 1) (report : List UInt8) (n : ℕ) (page u : ℕ) :
    (page, u) ∈ f.asserted report n ↔
      page = f.usagePage ∧ ∃ i < f.count, bit report (n + i) = true ∧ f.usage i = u := by
  have hvalue : ∀ i, value report f.size (n + i * f.size) ≠ 0 ↔ bit report (n + i) = true := by
    intro i
    rw [hsize, Nat.mul_one]
    unfold value value
    cases bit report (n + i) <;> simp
  unfold Field.asserted
  rw [if_neg (by rw [hconst]; exact Bool.false_ne_true), List.mem_filterMap]
  simp only [hvar, if_true, hvalue, List.mem_range]
  constructor
  · rintro ⟨i, hi, hsome⟩
    split_ifs at hsome with hbit
    obtain ⟨rfl, rfl⟩ := Prod.mk.inj (Option.some.inj hsome)
    exact ⟨rfl, i, hi, hbit, rfl⟩
  · rintro ⟨rfl, i, hi, hbit, rfl⟩
    exact ⟨i, hi, if_pos hbit⟩

end HidDescriptor
