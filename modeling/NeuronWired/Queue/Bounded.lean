import Mathlib.Tactic.Common

/-!
# Bounded — first-in first-out queues with a capacity

The abstract queue: a list that never grows past its capacity.  Putting is refused when the queue is full
and changes nothing then; the oldest item is the head of the list.
-/

namespace Queue

/-- A queue with room for `cap` items. -/
structure Bounded (α : Type) (cap : ℕ) where
  items : List α
  fits : items.length ≤ cap

/-- What can be asked of a queue. -/
inductive Op (α : Type) where
  | put (x : α)
  | get
  | peek
  | removeOne
  | isEmpty
  | isFull
  | getNumItems
  deriving DecidableEq, Repr

/-- What a queue answers. -/
inductive Answer (α : Type) where
  | test (b : Bool)
  | oldest (x : Option α)
  | removed
  | count (n : ℕ)
  deriving DecidableEq, Repr

namespace Bounded

variable {α : Type} {cap : ℕ}

@[ext] theorem ext {q q' : Bounded α cap} (h : q.items = q'.items) : q = q' := by
  cases q
  cases q'
  subst h
  rfl

/-- The empty queue. -/
def empty : Bounded α cap := ⟨[], Nat.zero_le _⟩

/-- There is no room for one more item. -/
def Full (q : Bounded α cap) : Prop := q.items.length = cap

instance (q : Bounded α cap) : Decidable q.Full := inferInstanceAs (Decidable (_ = _))

/-- One more item at the end. -/
def push (q : Bounded α cap) (x : α) (h : ¬ q.Full) : Bounded α cap :=
  ⟨q.items ++ [x], by
    have hlt : q.items.length < cap := Nat.lt_of_le_of_ne q.fits h
    rw [List.length_append]
    exact hlt⟩

/-- Without the oldest item. -/
def pop (q : Bounded α cap) : Bounded α cap :=
  ⟨q.items.tail, by
    rw [List.length_tail]
    exact Nat.le_trans (Nat.sub_le _ _) q.fits⟩

/-- The step of a queue. -/
def perform (q : Bounded α cap) : Op α → Answer α × Bounded α cap
  | .put x => if h : q.Full then (.test false, q) else (.test true, q.push x h)
  | .get => (.oldest q.items.head?, q.pop)
  | .peek => (.oldest q.items.head?, q)
  | .removeOne => (.removed, q.pop)
  | .isEmpty => (.test q.items.isEmpty, q)
  | .isFull => (.test (decide q.Full), q)
  | .getNumItems => (.count q.items.length, q)

theorem perform_put_full {q : Bounded α cap} (h : q.Full) (x : α) :
    q.perform (.put x) = (.test false, q) := dif_pos h

theorem perform_put_room {q : Bounded α cap} (h : ¬ q.Full) (x : α) :
    q.perform (.put x) = (.test true, q.push x h) := dif_neg h

end Bounded

end Queue
