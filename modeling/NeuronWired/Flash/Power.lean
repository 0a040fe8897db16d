import NeuronWired.Flash.Nor

/-!
# Flash.Power — flash memory that loses its power

A rewrite is a list of operations, each on a range of its own.  When the power fails, the operations in front
of the running one are done, and the range of the running one holds anything.
-/

namespace Nor

/-- An operation. -/
inductive Op where
  | erase (off len : ℕ)
  | program (off : ℕ) (data : List UInt8)

/-- What it does. -/
def Op.apply (m : Mem) : Op → Mem
  | .erase off len => Nor.erase m off len
  | .program off data => Nor.program m off data

/-- The bytes of its range. -/
def Op.Covers (a : ℕ) : Op → Prop
  | .erase off len => off ≤ a ∧ a < off + len
  | .program off data => off ≤ a ∧ a < off + data.length

/-- Operations one after another. -/
def run (m : Mem) (ops : List Op) : Mem := ops.foldl Op.apply m

/-- The power fails during the operations: all of them are done, or those in front of `op`, which has touched
nothing but its own range. -/
def CutDuring (ops : List Op) (m m' : Mem) : Prop :=
  m' = run m ops ∨ ∃ (k : ℕ) (op : Op), ops[k]? = some op ∧ ∀ a, ¬ op.Covers a → m' a = run m (ops.take k) a

/-- A region is erased in `n` blocks and programmed in `k` pages. -/
def rewriteOps (off n len k size : ℕ) (page : ℕ → List UInt8) : List Op :=
  ((List.range n).map fun i => .erase (off + i * len) len) ++
    (List.range k).map fun i => .program (off + i * size) (page i)

section Rewrite

variable {m m' : Mem} {off n len k size : ℕ} {page : ℕ → List UInt8}

@[simp] theorem run_nil (m : Mem) : run m [] = m := rfl

theorem run_append (m : Mem) (ops ops' : List Op) : run m (ops ++ ops') = run (run m ops) ops' := List.foldl_append

theorem run_erases (m : Mem) (off len j : ℕ) :
    run m ((List.range j).map fun i => .erase (off + i * len) len) = erase m off (j * len) := by
  induction j with
  | zero =>
    funext a
    show m a = erase m off (0 * len) a
    unfold erase
    rw [if_neg (by omega)]
  | succ j ih =>
    rw [List.range_succ, List.map_append, run_append, ih, Nat.succ_mul, ← erase_erase]
    rfl

theorem run_programs (m : Mem) (off size j : ℕ) (page : ℕ → List UInt8) :
    run m ((List.range j).map fun i => .program (off + i * size) (page i)) = programPages page size off j m := by
  induction j with
  | zero => rfl
  | succ j ih =>
    rw [List.range_succ, List.map_append, run_append, ih]
    rfl

theorem take_range_map {α : Type} (f : ℕ → α) {i j : ℕ} (h : i ≤ j) :
    ((List.range j).map f).take i = (List.range i).map f := by
  rw [← List.map_take, List.take_range, Nat.min_eq_left h]

/-- All of it. -/
theorem run_rewriteOps (m : Mem) (off n len k size : ℕ) (page : ℕ → List UInt8) :
    run m (rewriteOps off n len k size page) = programPages page size off k (erase m off (n * len)) := by
  unfold rewriteOps
  rw [run_append, run_erases, run_programs]

/-- **A cut rewrite**: it is done; or it was erasing a block, with the blocks in front of it erased and those
behind it as they were; or it was programming a page, with the pages in front of it written and those behind it
erased. -/
theorem CutDuring.cases (h : CutDuring (rewriteOps off n len k size page) m m')
    (hpage : ∀ i, (page i).length = size) :
    m' = run m (rewriteOps off n len k size page) ∨
      (∃ j < n, ∀ a, ¬ (off + j * len ≤ a ∧ a < off + (j + 1) * len) → m' a = erase m off (j * len) a) ∨
      ∃ i < k, ∀ a, ¬ (off + i * size ≤ a ∧ a < off + (i + 1) * size) →
        m' a = programPages page size off i (erase m off (n * len)) a := by
  rcases h with hdone | ⟨i, op, hop, htorn⟩
  · exact .inl hdone
  have hlen : ((List.range n).map fun i => Op.erase (off + i * len) len).length = n := by simp
  unfold rewriteOps at hop htorn
  by_cases hn : i < n
  · -- a block
    rw [List.getElem?_append_left (by rw [hlen]; exact hn), List.getElem?_map, List.getElem?_range hn] at hop
    obtain rfl : Op.erase (off + i * len) len = op := Option.some.inj hop
    refine .inr (.inl ⟨i, hn, fun a ha => ?_⟩)
    rw [Nat.succ_mul, ← Nat.add_assoc] at ha
    rw [htorn a ha, List.take_append_of_le_length (by rw [hlen]; exact Nat.le_of_lt hn),
      take_range_map _ (Nat.le_of_lt hn), run_erases]
  · -- a page
    obtain ⟨j, rfl⟩ := Nat.exists_eq_add_of_le (Nat.le_of_not_lt hn)
    rw [List.getElem?_append_right (by rw [hlen]; omega), hlen, Nat.add_sub_cancel_left, List.getElem?_map] at hop
    have hj : j < k := by
      by_contra hge
      rw [List.getElem?_eq_none (by rw [List.length_range]; omega)] at hop
      cases hop
    rw [List.getElem?_range hj] at hop
    obtain rfl : Op.program (off + j * size) (page j) = op := Option.some.inj hop
    refine .inr (.inr ⟨j, hj, fun a ha => ?_⟩)
    rw [Nat.succ_mul, ← Nat.add_assoc, ← hpage j] at ha
    rw [htorn a (by rwa [← hpage j]), List.take_append, hlen, List.take_of_length_le (by rw [hlen]; omega),
      Nat.add_sub_cancel_left, take_range_map _ (Nat.le_of_lt hj), run_append, run_erases, run_programs]

end Rewrite

end Nor
