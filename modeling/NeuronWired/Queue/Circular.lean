import Mathlib.Data.List.Rotate
import Mathlib.Tactic.Common
import Mathlib.Data.Nat.Notation

/-!
# Circular — cells that are written around the end

`l.rotate p` are the cells from `p` on, around the end.  When `p` is where the next item goes, they are
what was written last, the oldest first: writing drops as many from the front as it adds behind.
-/

namespace Queue.Circular

variable {α : Type} {l a b : List α} {n p : ℕ}

theorem rotate_add_length (n : ℕ) : l.rotate (n + l.length) = l.rotate n := by
  rw [← List.rotate_mod, Nat.add_mod_right, List.rotate_mod]

/-- A write that stays in front of the end. -/
theorem rotate_write_linear (h : p + a.length ≤ l.length) :
    (l.take p ++ a ++ l.drop (p + a.length)).rotate (p + a.length) =
      (l.rotate p).drop a.length ++ a := by
  have hfront : (l.take p ++ a).length = p + a.length := by
    rw [List.length_append, List.length_take, Nat.min_eq_left (by omega)]
  have hrotate : (l.take p ++ a ++ l.drop (p + a.length)).rotate (p + a.length) =
      l.drop (p + a.length) ++ (l.take p ++ a) := by
    rw [← hfront, List.rotate_append_length_eq]
  rw [hrotate, List.rotate_eq_drop_append_take (by omega),
    List.drop_append_of_le_length (by rw [List.length_drop]; omega), List.drop_drop, List.append_assoc]

/-- A write that goes on at the start. -/
theorem rotate_write_wrap (hfront : p + a.length = l.length) :
    (b ++ (l.take p).drop b.length ++ a).rotate b.length =
      (l.rotate p).drop (a.length + b.length) ++ (a ++ b) := by
  have hlen : (l.drop p).length = a.length := by rw [List.length_drop]; omega
  rw [List.append_assoc, List.rotate_append_length_eq, List.rotate_eq_drop_append_take (by omega),
    ← hlen, List.drop_length_add_append, List.append_assoc]

/-- Reading in front of the end. -/
theorem take_rotate_linear (hp : p ≤ l.length) (h : n ≤ l.length - p) :
    (l.rotate p).take n = (l.drop p).take n := by
  rw [List.rotate_eq_drop_append_take hp, List.take_append_of_le_length (by rw [List.length_drop]; omega)]

/-- Reading around the end. -/
theorem take_rotate_wrap (hp : p ≤ l.length) (h : l.length - p ≤ n) (hn : n ≤ l.length) :
    (l.rotate p).take n = l.drop p ++ l.take (n - (l.length - p)) := by
  have hlen : (l.drop p).length = l.length - p := List.length_drop
  rw [List.rotate_eq_drop_append_take hp, List.take_append, List.take_of_length_le (by omega), hlen,
    List.take_take, Nat.min_eq_left (by omega)]

/-- The last `n` of the cells that end at `p` are the first `n` that begin `n` in front of `p`. -/
theorem take_rotate_back (h : n ≤ l.length) :
    (l.rotate (p + (l.length - n))).take n = (l.rotate p).drop (l.length - n) := by
  have hlen : (l.rotate p).length = l.length := List.length_rotate _ _
  rw [← List.rotate_rotate, List.rotate_eq_drop_append_take (by omega),
    List.take_append_of_le_length (by rw [List.length_drop]; omega),
    List.take_of_length_le (by rw [List.length_drop]; omega)]

end Queue.Circular
