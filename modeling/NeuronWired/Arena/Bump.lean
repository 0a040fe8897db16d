import Mathlib.Tactic.Common
import Mathlib.Data.Nat.Notation

/-!
# Bump — an arena whose blocks are never given back

Blocks are handed out one behind the other, each from a multiple of the alignment on.  A `Bump` carries what
such an arena keeps: every block is aligned and ends inside what is used, and no two of them share a cell.
-/

namespace Arena

/-- `size` cells, from `start` on. -/
structure Block where
  start : ℕ
  size : ℕ
  deriving DecidableEq, Repr

namespace Block

/-- A cell of the block. -/
def Has (b : Block) (i : ℕ) : Prop := b.start ≤ i ∧ i < b.start + b.size

/-- No cell is in both. -/
def Disjoint (b c : Block) : Prop := ∀ i, ¬(b.Has i ∧ c.Has i)

theorem disjoint_of_le {b c : Block} (h : b.start + b.size ≤ c.start) : b.Disjoint c := by
  rintro i ⟨hb, hc⟩
  have h1 := hb.2
  have h2 := hc.1
  omega

end Block

/-- The least multiple of `align` that is not below `n`. -/
def roundUp (align n : ℕ) : ℕ := if n % align = 0 then n else (n / align + 1) * align

section RoundUp

variable {align n m : ℕ}

theorem dvd_roundUp (align n : ℕ) : align ∣ roundUp align n := by
  unfold roundUp
  split_ifs with h
  · exact Nat.dvd_of_mod_eq_zero h
  · exact Nat.dvd_mul_left _ _

theorem le_roundUp (hpos : 0 < align) (n : ℕ) : n ≤ roundUp align n := by
  unfold roundUp
  split_ifs
  · exact Nat.le_refl n
  · rw [Nat.mul_comm]
    exact Nat.le_of_lt (Nat.lt_mul_div_succ n hpos)

theorem roundUp_le (hdvd : align ∣ m) (hle : n ≤ m) : roundUp align n ≤ m := by
  unfold roundUp
  split_ifs with h
  · exact hle
  · have hne : n ≠ m := by
      rintro rfl
      exact h (Nat.mod_eq_zero_of_dvd hdvd)
    obtain ⟨k, rfl⟩ := hdvd
    have hlt : n / align < k := Nat.div_lt_of_lt_mul (Nat.lt_of_le_of_ne hle hne)
    rw [Nat.mul_comm align]
    exact Nat.mul_le_mul_right _ hlt

end RoundUp

/-- An arena of `cap` cells. -/
structure Bump (cap align : ℕ) where
  used : ℕ
  blocks : List Block
  aligned : align ∣ used
  fits : used ≤ cap
  starts : ∀ b ∈ blocks, align ∣ b.start
  below : ∀ b ∈ blocks, b.start + b.size ≤ used
  disjoint : blocks.Pairwise Block.Disjoint

namespace Bump

variable {cap align : ℕ}

/-- Nothing has been handed out. -/
def empty : Bump cap align :=
  ⟨0, [], Nat.dvd_zero _, Nat.zero_le _, fun _ h => absurd h List.not_mem_nil,
    fun _ h => absurd h List.not_mem_nil, .nil⟩

/-- A block of `size` cells is handed out, and the size rounded up is used. -/
def alloc (a : Bump cap align) (size : ℕ) (hpos : 0 < align) (hcap : align ∣ cap)
    (hfit : a.used + size ≤ cap) : Bump cap align where
  used := a.used + roundUp align size
  blocks := a.blocks ++ [⟨a.used, size⟩]
  aligned := Nat.dvd_add a.aligned (dvd_roundUp align size)
  fits := by
    have hrest : align ∣ cap - a.used := Nat.dvd_sub hcap a.aligned
    have hle := roundUp_le (n := size) hrest (by omega)
    have := a.fits
    omega
  starts := by
    intro b hb
    rcases List.mem_append.mp hb with hb | hb
    · exact a.starts b hb
    · rw [List.mem_singleton.mp hb]
      exact a.aligned
  below := by
    intro b hb
    rcases List.mem_append.mp hb with hb | hb
    · exact Nat.le_trans (a.below b hb) (Nat.le_add_right _ _)
    · rw [List.mem_singleton.mp hb]
      exact Nat.add_le_add_left (le_roundUp hpos size) _
  disjoint := by
    refine List.pairwise_append.mpr ⟨a.disjoint, List.pairwise_singleton _ _, fun b hb c hc => ?_⟩
    rw [List.mem_singleton.mp hc]
    exact Block.disjoint_of_le (a.below b hb)

end Bump

end Arena
