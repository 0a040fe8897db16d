import Mathlib.Tactic.Common
import Mathlib.Data.Nat.Notation
import Mathlib.Data.List.GetD

/-!
# Nor — flash memory

Erasing sets a range of the memory to `0xFF`, and programming can only clear bits.  An erased region that
is programmed page by page holds the pages.
-/

namespace Nor

/-- The contents of a flash memory. -/
abbrev Mem := ℕ → UInt8

/-- Erase `len` bytes from `off` on. -/
def erase (m : Mem) (off len : ℕ) : Mem := fun a => if off ≤ a ∧ a < off + len then 0xFF else m a

/-- Program the bytes of `data` from `off` on. -/
def program (m : Mem) (off : ℕ) (data : List UInt8) : Mem := fun a =>
  if off ≤ a ∧ a < off + data.length then m a &&& data.getD (a - off) 0xFF else m a

/-- Program `k` pages of `size` bytes, the `i`-th of them from `page i`. -/
def programPages (page : ℕ → List UInt8) (size off : ℕ) : ℕ → Mem → Mem
  | 0, m => m
  | k + 1, m => program (programPages page size off k m) (off + k * size) (page k)

/-- The region from `off` on holds `data`. -/
def Stores (m : Mem) (off : ℕ) (data : List UInt8) : Prop :=
  ∀ a < data.length, m (off + a) = data.getD a 0

/-- The `i`-th page of `size` bytes of an array; bytes behind the array read as zero. -/
def pageOf (data : List UInt8) (size i : ℕ) : List UInt8 :=
  (List.range size).map fun j => data.getD (i * size + j) 0

section Rules

variable {m : Mem} {off len a : ℕ} {data : List UInt8}

theorem erase_inside (h : off ≤ a ∧ a < off + len) : erase m off len a = 0xFF := if_pos h

/-- Two ranges one behind the other. -/
theorem erase_erase (m : Mem) (off len len' : ℕ) :
    erase (erase m off len) (off + len) len' = erase m off (len + len') := by
  funext a
  unfold erase
  split_ifs <;> first | rfl | omega

theorem program_outside (h : ¬(off ≤ a ∧ a < off + data.length)) : program m off data a = m a := if_neg h

/-- An erased byte takes the value that is programmed. -/
theorem program_erased (h : off ≤ a ∧ a < off + data.length) (hm : m a = 0xFF) :
    program m off data a = data.getD (a - off) 0xFF := by
  have hones : ∀ b : UInt8, 0xFF &&& b = b := fun b => UInt8.neg_one_and
  unfold program
  rw [if_pos h, hm, hones]

section Pages

variable {page : ℕ → List UInt8} {size : ℕ} (hpage : ∀ i, (page i).length = size)
include hpage

theorem programPages_outside (k : ℕ) (h : ¬(off ≤ a ∧ a < off + k * size)) :
    programPages page size off k m a = m a := by
  induction k with
  | zero => rfl
  | succ k ih =>
    rw [Nat.succ_mul] at h
    unfold programPages
    rw [program_outside (by rw [hpage]; omega), ih (by omega)]

/-- A byte of an erased region of `k` pages holds its byte of its page. -/
theorem programPages_erased (hsize : 0 < size) (k : ℕ) (hm : ∀ a, off ≤ a → a < off + k * size → m a = 0xFF)
    (h : off ≤ a ∧ a < off + k * size) :
    programPages page size off k m a = (page ((a - off) / size)).getD ((a - off) % size) 0xFF := by
  induction k with
  | zero => omega
  | succ k ih =>
    rw [Nat.succ_mul] at h hm
    unfold programPages
    by_cases hlast : off + k * size ≤ a
    · have hdiv : (a - off) / size = k := by
        refine Nat.div_eq_of_lt_le (by omega) ?_
        rw [Nat.succ_mul]
        omega
      have hmod : (a - off) % size = a - (off + k * size) := by
        have hadd := Nat.div_add_mod (a - off) size
        rw [hdiv, Nat.mul_comm] at hadd
        omega
      rw [program_erased ⟨hlast, by rw [hpage]; omega⟩, hdiv, hmod]
      rw [programPages_outside hpage k (by omega)]
      exact hm a h.1 h.2
    · rw [program_outside (by omega)]
      exact ih (fun b hb hb' => hm b hb (by omega)) ⟨h.1, by omega⟩

end Pages

theorem length_pageOf (data : List UInt8) (size i : ℕ) : (pageOf data size i).length = size := by
  unfold pageOf
  rw [List.length_map, List.length_range]

theorem getD_pageOf (data : List UInt8) {size j : ℕ} (i : ℕ) (h : j < size) :
    (pageOf data size i).getD j 0xFF = data.getD (i * size + j) 0 := by
  unfold pageOf
  rw [List.getD_eq_getElem _ _ (by rw [List.length_map, List.length_range]; exact h), List.getElem_map,
    List.getElem_range]

/-- An array that is programmed page by page over an erased region is stored there. -/
theorem stores_pages {size k : ℕ} (hsize : 0 < size) (hlen : data.length = k * size) (m : Mem) (off : ℕ) :
    Stores (programPages (pageOf data size) size off k (erase m off (k * size))) off data := by
  intro a ha
  have hin : off ≤ off + a ∧ off + a < off + k * size := ⟨Nat.le_add_right _ _, by omega⟩
  have hadd := Nat.div_add_mod a size
  have hjoin : a / size * size + a % size = a := by rw [Nat.mul_comm]; exact hadd
  rw [programPages_erased (length_pageOf data size) hsize k (fun b hb hb' => erase_inside ⟨hb, hb'⟩) hin,
    Nat.add_sub_cancel_left, getD_pageOf data _ (Nat.mod_lt a hsize), hjoin]

end Rules

end Nor
