import Mathlib.Logic.Relation

/-!
# Interrupt.Prog — programs made of atomic steps

A program over a state `σ` is a tree of atomic steps.  A step updates the state and chooses the
rest of the program from the state it started in, so one step can read and write but nothing can
happen in between.  `Prog.run` executes a program without interruption; the semantics in which an
interrupt handler may run before any step is in `Interrupt.Machine`.
-/

namespace Interrupt

/-- A program over `σ` with result in `α`: done, or one atomic step and then the rest. -/
inductive Prog (σ α : Type) : Type where
  | ret (a : α) : Prog σ α
  | step (upd : σ → σ) (next : σ → Prog σ α) : Prog σ α

namespace Prog

variable {σ α β γ : Type}

/-- Sequencing. -/
def bind : Prog σ α → (α → Prog σ β) → Prog σ β
  | ret a, k => k a
  | step u n, k => step u (fun s => bind (n s) k)

instance : Monad (Prog σ) where
  pure := ret
  bind := bind

@[simp] theorem ret_bind (a : α) (k : α → Prog σ β) : (ret a).bind k = k a := rfl

@[simp] theorem step_bind (u : σ → σ) (n : σ → Prog σ α) (k : α → Prog σ β) :
    (step u n).bind k = step u (fun s => (n s).bind k) := rfl

theorem bind_ret (p : Prog σ α) : p.bind ret = p := by
  induction p with
  | ret a => rfl
  | step u n ih => simp only [step_bind, ih]

theorem bind_assoc (p : Prog σ α) (k : α → Prog σ β) (l : β → Prog σ γ) :
    (p.bind k).bind l = p.bind (fun a => (k a).bind l) := by
  induction p with
  | ret a => rfl
  | step u n ih => simp only [step_bind, ih]

instance : LawfulMonad (Prog σ) :=
  LawfulMonad.mk' (Prog σ) (fun p => bind_ret p) (fun _ _ => rfl) (fun p k l => bind_assoc p k l)

/-! ## Atomic actions -/

/-- Read a value of the state in one step. -/
def read (g : σ → α) : Prog σ α := step id (fun s => ret (g s))

/-- Update the state in one step. -/
def write (f : σ → σ) : Prog σ Unit := step f (fun _ => ret ())

/-- Read and update in one step. -/
def atomic (f : σ → α × σ) : Prog σ α := step (fun s => (f s).2) (fun s => ret (f s).1)

/-! ## Uninterrupted execution -/

/-- The result and the final state of a program that nothing interrupts. -/
def run : Prog σ α → σ → α × σ
  | ret a, s => (a, s)
  | step u n, s => run (n s) (u s)

@[simp] theorem run_pure (a : α) (s : σ) : (pure a : Prog σ α).run s = (a, s) := rfl

theorem run_bind' (p : Prog σ α) (k : α → Prog σ β) (s : σ) :
    (p.bind k).run s = (k (p.run s).1).run (p.run s).2 := by
  induction p generalizing s with
  | ret a => rfl
  | step u n ih => simp only [step_bind, run, ih]

@[simp] theorem run_bind (p : Prog σ α) (k : α → Prog σ β) (s : σ) :
    (p >>= k).run s = (k (p.run s).1).run (p.run s).2 := run_bind' p k s

/-- One statement at a time. -/
theorem run_bind_of {p : Prog σ α} {k : α → Prog σ β} {s s' : σ} {a : α} (h : p.run s = (a, s')) :
    (p >>= k).run s = (k a).run s' := by rw [run_bind, h]

@[simp] theorem run_map (f : α → β) (p : Prog σ α) (s : σ) :
    (f <$> p).run s = (f (p.run s).1, (p.run s).2) := by
  rw [← bind_pure_comp, run_bind, run_pure]

@[simp] theorem run_read (g : σ → α) (s : σ) : (read g).run s = (g s, s) := rfl

@[simp] theorem run_write (f : σ → σ) (s : σ) : (write f).run s = ((), f s) := rfl

@[simp] theorem run_atomic (f : σ → α × σ) (s : σ) : (atomic f).run s = f s := rfl

@[simp] theorem run_ite (c : Prop) [Decidable c] (p q : Prog σ α) (s : σ) :
    (if c then p else q).run s = if c then p.run s else q.run s := by
  split <;> rfl

end Prog

end Interrupt
