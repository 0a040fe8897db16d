import Mathlib.Tactic.Common
import Mathlib.Data.Nat.Notation

/-!
# ByteRing — overwritable byte rings

A ring of depth `cap` keeps the last `cap` bytes written to it.  Reading starts at the oldest byte that is
still stored.
-/

namespace Queue

/-- What an overwritable ring stores, the oldest byte first. -/
structure ByteRing (cap : ℕ) where
  bytes : List UInt8
  fits : bytes.length ≤ cap
  deriving DecidableEq, Repr

namespace ByteRing

variable {cap : ℕ}

/-- The empty ring. -/
def empty : ByteRing cap := ⟨[], Nat.zero_le _⟩

/-- The number of bytes stored. -/
def count (r : ByteRing cap) : ℕ := r.bytes.length

/-- Writing is never refused: the last `cap` bytes stay, and the oldest ones make room. -/
def write (r : ByteRing cap) (data : List UInt8) : ByteRing cap :=
  ⟨((r.bytes ++ data).reverse.take cap).reverse, by
    rw [List.length_reverse]
    exact List.length_take_le _ _⟩

/-- As many of the bytes as there is room for. -/
def offer (r : ByteRing cap) (data : List UInt8) : ByteRing cap :=
  ⟨r.bytes ++ data.take (cap - r.count), by
    have hle := r.fits
    rw [List.length_append, List.length_take]
    unfold count
    omega⟩

/-- The oldest `n` bytes, or as many as there are. -/
def peek (r : ByteRing cap) (n : ℕ) : List UInt8 := r.bytes.take n

/-- Without the oldest `n` bytes. -/
def advance (r : ByteRing cap) (n : ℕ) : ByteRing cap :=
  ⟨r.bytes.drop n, by
    have hle := r.fits
    rw [List.length_drop]
    omega⟩

@[simp] theorem bytes_empty : (empty : ByteRing cap).bytes = [] := rfl

@[simp] theorem bytes_advance (r : ByteRing cap) (n : ℕ) : (r.advance n).bytes = r.bytes.drop n := rfl

@[simp] theorem bytes_offer (r : ByteRing cap) (data : List UInt8) :
    (r.offer data).bytes = r.bytes ++ data.take (cap - r.count) := rfl

theorem bytes_write_eq (r : ByteRing cap) (data : List UInt8) :
    (r.write data).bytes = (r.bytes ++ data).drop ((r.bytes ++ data).length - cap) := by
  show ((r.bytes ++ data).reverse.take cap).reverse = _
  rw [List.take_reverse, List.reverse_reverse]

/-- What fits is stored behind everything else. -/
theorem bytes_write (r : ByteRing cap) {data : List UInt8} (h : r.count + data.length ≤ cap) :
    (r.write data).bytes = r.bytes ++ data := by
  have hlen : (r.bytes ++ data).length - cap = 0 := by
    unfold count at h
    rw [List.length_append]
    omega
  rw [bytes_write_eq, hlen, List.drop_zero]

theorem count_write (r : ByteRing cap) {data : List UInt8} (h : r.count + data.length ≤ cap) :
    (r.write data).count = r.count + data.length := by
  unfold count
  rw [bytes_write r h, List.length_append]

/-- Two writes store what one write of both stores. -/
theorem bytes_write_write (r : ByteRing cap) (a b : List UInt8) :
    ((r.write a).write b).bytes = (r.write (a ++ b)).bytes := by
  generalize hx : r.bytes ++ a = x
  have hboth : r.bytes ++ (a ++ b) = x ++ b := by rw [← hx, List.append_assoc]
  have hdrop : x.drop (x.length - cap) ++ b = (x ++ b).drop (x.length - cap) :=
    (List.drop_append_of_le_length (Nat.sub_le _ _)).symm
  rw [bytes_write_eq, bytes_write_eq, bytes_write_eq, hboth, hx, hdrop, List.drop_drop, List.length_drop,
    List.length_append]
  congr 1
  omega

end ByteRing

end Queue
