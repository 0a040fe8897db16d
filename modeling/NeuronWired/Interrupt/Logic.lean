import NeuronWired.Interrupt.Prog

/-!
# Interrupt.Logic — weakest preconditions under interference

`wp R A p Q s`: the program `p`, started in `s`, is run while an environment may change the state
by `R` (one complete interrupt) any number of times before each step and after the last one; at
every point where the environment can look, `A` holds, and in the end `Q` holds of the result and
the state.  The rules are those of an Owicki–Gries outline: the assertion in front of a step has to
be `Stable` under `R`.  With `R` empty this is the ordinary logic of uninterrupted programs.
-/

namespace Interrupt

open Relation

variable {σ α β : Type}

/-- `P` survives one interrupt. -/
def Stable (R : σ → σ → Prop) (P : σ → Prop) : Prop := ∀ s s', R s s' → P s → P s'

/-- Nothing interferes. -/
def Quiet (σ : Type) : σ → σ → Prop := fun _ _ => False

section Stable

variable {R R' : σ → σ → Prop} {P Q : σ → Prop}

theorem Stable.star (h : Stable R P) {s s' : σ} (hR : ReflTransGen R s s') (hP : P s) : P s' := by
  induction hR with
  | refl => exact hP
  | tail _ hstep ih => exact h _ _ hstep ih

theorem Stable.and (hP : Stable R P) (hQ : Stable R Q) : Stable R (fun s => P s ∧ Q s) :=
  fun s s' hR h => ⟨hP s s' hR h.1, hQ s s' hR h.2⟩

theorem Stable.anti (h : Stable R P) (hR : ∀ s s', R' s s' → R s s') : Stable R' P :=
  fun s s' h' => h s s' (hR s s' h')

theorem Stable.exists {ι : Type} {P : ι → σ → Prop} (h : ∀ i, Stable R (P i)) :
    Stable R (fun s => ∃ i, P i s) := by
  rintro s s' hR ⟨i, hi⟩
  exact ⟨i, h i s s' hR hi⟩

/-- What does not depend on the state is stable. -/
theorem Stable.const_and (c : Prop) (hP : Stable R P) : Stable R (fun s => c ∧ P s) :=
  fun s s' hR h => ⟨h.1, hP s s' hR h.2⟩

theorem stable_quiet : Stable (Quiet σ) P := fun _ _ h => h.elim

end Stable

/-- Weakest precondition of `p` for `Q` under interference `R`, with `A` at every point. -/
def wp (R : σ → σ → Prop) (A : σ → Prop) : Prog σ α → (α → σ → Prop) → σ → Prop
  | .ret a, Q => fun s => ∀ s', ReflTransGen R s s' → A s' ∧ Q a s'
  | .step u n, Q => fun s => ∀ s', ReflTransGen R s s' → A s' ∧ wp R A (n s') Q (u s')

section Rules

variable {R : σ → σ → Prop} {A P : σ → Prop} {Q Q' : α → σ → Prop}

theorem wp_now {p : Prog σ α} {s : σ} (h : wp R A p Q s) : A s := by
  cases p with
  | ret a => exact (h s .refl).1
  | step u n => exact (h s .refl).1

/-- An interrupt in front of a program is already accounted for. -/
theorem wp_interfere {p : Prog σ α} {s s' : σ} (h : wp R A p Q s) (hR : ReflTransGen R s s') :
    wp R A p Q s' := by
  cases p with
  | ret a => exact fun t ht => h t (hR.trans ht)
  | step u n => exact fun t ht => h t (hR.trans ht)

/-- What an outline says of a run that nothing interrupts. -/
theorem wp_post {p : Prog σ α} {s : σ} (h : wp R A p Q s) : Q (p.run s).1 (p.run s).2 := by
  induction p generalizing s with
  | ret a => exact (h s .refl).2
  | step u n ih => exact ih s (h s .refl).2

theorem wp_mono {p : Prog σ α} {s : σ} (h : wp R A p Q s) (hQ : ∀ a s, Q a s → Q' a s) :
    wp R A p Q' s := by
  induction p generalizing s with
  | ret a => exact fun s' hs' => ⟨(h s' hs').1, hQ _ _ (h s' hs').2⟩
  | step u n ih => exact fun s' hs' => ⟨(h s' hs').1, ih s' (h s' hs').2⟩

theorem wp_always_mono {A' : σ → Prop} {p : Prog σ α} {s : σ} (h : wp R A p Q s)
    (hA : ∀ s, A s → A' s) : wp R A' p Q s := by
  induction p generalizing s with
  | ret a => exact fun s' hs' => ⟨hA _ (h s' hs').1, (h s' hs').2⟩
  | step u n ih => exact fun s' hs' => ⟨hA _ (h s' hs').1, ih s' (h s' hs').2⟩

/-- Fewer interrupts are easier to live with. -/
theorem wp_anti {R' : σ → σ → Prop} {p : Prog σ α} {s : σ} (h : wp R A p Q s)
    (hR : ∀ s s', R' s s' → R s s') : wp R' A p Q s := by
  induction p generalizing s with
  | ret a => exact fun s' hs' => h s' (ReflTransGen.mono hR _ _ hs')
  | step u n ih =>
    intro s' hs'
    obtain ⟨hA, hn⟩ := h s' (ReflTransGen.mono hR _ _ hs')
    exact ⟨hA, ih s' hn⟩

/-- Interrupts that enter where an outline holds. -/
theorem star_join {H : σ → σ → Prop} {p : Prog σ α} {s s' : σ} (hH : ∀ s s', A s → R s s' → H s s')
    (h : wp R A p Q s) (hR : ReflTransGen R s s') : ReflTransGen H s s' := by
  induction hR with
  | refl => exact .refl
  | tail hpre hstep ih => exact ih.tail (hH _ _ (wp_now (wp_interfere h hpre)) hstep)

/-- A second outline of a program, made with what the first one says of the interrupts. -/
theorem wp_join {H : σ → σ → Prop} {A' : σ → Prop} {p : Prog σ α} {s : σ}
    (hH : ∀ s s', A s → R s s' → H s s') (h : wp R A p Q s) (h' : wp H A' p Q' s) :
    wp R (fun s => A s ∧ A' s) p (fun a s => Q a s ∧ Q' a s) s := by
  induction p generalizing s with
  | ret a =>
    intro s' hs'
    have hjoin := h' s' (star_join hH h hs')
    exact ⟨⟨(h s' hs').1, hjoin.1⟩, (h s' hs').2, hjoin.2⟩
  | step u n ih =>
    intro s' hs'
    have hjoin := h' s' (star_join hH h hs')
    exact ⟨⟨(h s' hs').1, hjoin.1⟩, ih s' (h s' hs').2 hjoin.2⟩

/-- Two outlines of one program combine. -/
theorem wp_and {A' : σ → Prop} {p : Prog σ α} {s : σ} (h : wp R A p Q s) (h' : wp R A' p Q' s) :
    wp R (fun s => A s ∧ A' s) p (fun a s => Q a s ∧ Q' a s) s := wp_join (fun _ _ _ hR => hR) h h'

/-- The result of `p` in front of the rest of the program. -/
theorem wp_bind {p : Prog σ α} {k : α → Prog σ β} {Q : β → σ → Prop} {s : σ}
    (h : wp R A p (fun a => wp R A (k a) Q) s) : wp R A (p >>= k) Q s := by
  induction p generalizing s with
  | ret a => exact (h s .refl).2
  | step u n ih => exact fun s' hs' => ⟨(h s' hs').1, ih s' (h s' hs').2⟩

theorem wp_pure {a : α} {s : σ} (hst : Stable R (Q a)) (hA : ∀ s, Q a s → A s) (hQ : Q a s) :
    wp R A (pure a) Q s :=
  fun _ hs' => ⟨hA _ (hst.star hs' hQ), hst.star hs' hQ⟩

/-- A step behind a stable assertion `P`. -/
theorem wp_step {u : σ → σ} {n : σ → Prog σ α} {s : σ} (hst : Stable R P) (hA : ∀ s, P s → A s)
    (hP : P s) (h : ∀ s, P s → wp R A (n s) Q (u s)) : wp R A (.step u n) Q s :=
  fun s' hs' => ⟨hA _ (hst.star hs' hP), h s' (hst.star hs' hP)⟩

theorem wp_read {g : σ → β} {k : β → Prog σ α} {s : σ} (hst : Stable R P) (hA : ∀ s, P s → A s)
    (hP : P s) (h : ∀ s, P s → wp R A (k (g s)) Q s) : wp R A (Prog.read g >>= k) Q s :=
  wp_step (u := id) hst hA hP h

/-- A read whose value the assertion fixes. -/
theorem wp_read_of {g : σ → β} {k : β → Prog σ α} {s : σ} (b : β) (hst : Stable R P)
    (hA : ∀ s, P s → A s) (hP : P s) (hb : ∀ s, P s → g s = b)
    (h : ∀ s, P s → wp R A (k b) Q s) : wp R A (Prog.read g >>= k) Q s :=
  wp_read hst hA hP fun t ht => by rw [hb t ht]; exact h t ht

theorem wp_write {f : σ → σ} {k : Unit → Prog σ α} {s : σ} (hst : Stable R P)
    (hA : ∀ s, P s → A s) (hP : P s) (h : ∀ s, P s → wp R A (k ()) Q (f s)) :
    wp R A (Prog.write f >>= k) Q s :=
  wp_step (u := f) hst hA hP h

/-- A write that ends the program. -/
theorem wp_write_last {f : σ → σ} {Q : Unit → σ → Prop} {s : σ} (hst : Stable R P)
    (hA : ∀ s, P s → A s) (hP : P s) (hst' : Stable R (Q ())) (hA' : ∀ s, Q () s → A s)
    (h : ∀ s, P s → Q () (f s)) : wp R A (Prog.write f) Q s :=
  wp_step hst hA hP fun t ht => wp_pure hst' hA' (h t ht)

theorem wp_atomic {f : σ → β × σ} {k : β → Prog σ α} {s : σ} (hst : Stable R P)
    (hA : ∀ s, P s → A s) (hP : P s) (h : ∀ s, P s → ∃ b s', f s = (b, s') ∧ wp R A (k b) Q s') :
    wp R A (Prog.atomic f >>= k) Q s := by
  refine wp_step (u := fun s => (f s).2) hst hA hP fun t ht => ?_
  obtain ⟨b, t', hf, hk⟩ := h t ht
  show wp R A (k (f t).1) Q (f t).2
  rw [hf]
  exact hk

end Rules

/-! ## Results -/

/-- On every path, also on those that interrupts divert, the result meets `V`. -/
def Yields (V : α → Prop) : Prog σ α → Prop
  | .ret a => V a
  | .step _ n => ∀ s, Yields V (n s)

section Yields

variable {R : σ → σ → Prop} {A : σ → Prop} {Q : α → σ → Prop} {V : α → Prop}

theorem yields_pure {a : α} (h : V a) : Yields V (pure a : Prog σ α) := h

theorem Yields.bind {p : Prog σ β} {k : β → Prog σ α} (hk : ∀ b, Yields V (k b)) : Yields V (p >>= k) := by
  induction p with
  | ret b => exact hk b
  | step u n ih => exact fun s => ih s

/-- What is known of every result is known of the result. -/
theorem wp_yields {p : Prog σ α} {s : σ} (hp : Yields V p) (h : wp R A p Q s) :
    wp R A p (fun a s => Q a s ∧ V a) s := by
  induction p generalizing s with
  | ret a => exact fun s' hs' => ⟨(h s' hs').1, (h s' hs').2, hp⟩
  | step u n ih => exact fun s' hs' => ⟨(h s' hs').1, ih s' (hp s') (h s' hs').2⟩

end Yields

/-! ## Frames: programs none of whose steps touches an assertion -/

/-- Every step of `p` keeps `P`, on every path that states with `P` can take. -/
def Keeps (P : σ → Prop) : Prog σ α → Prop
  | .ret _ => True
  | .step u n => ∀ s, P s → P (u s) ∧ Keeps P (n s)

section Keeps

variable {R : σ → σ → Prop} {A B P : σ → Prop} {Q : α → σ → Prop}

@[simp] theorem keeps_pure (a : α) : Keeps P (pure a : Prog σ α) := trivial

@[simp] theorem keeps_read (g : σ → α) : Keeps P (Prog.read g) := fun _ h => ⟨h, trivial⟩

theorem keeps_write {f : σ → σ} (h : ∀ s, P s → P (f s)) : Keeps P (Prog.write f) :=
  fun s hs => ⟨h s hs, trivial⟩

theorem keeps_atomic {f : σ → α × σ} (h : ∀ s, P s → P (f s).2) : Keeps P (Prog.atomic f) :=
  fun s hs => ⟨h s hs, trivial⟩

theorem Keeps.bind {p : Prog σ α} {k : α → Prog σ β} (hp : Keeps P p) (hk : ∀ a, Keeps P (k a)) :
    Keeps P (p >>= k) := by
  induction p with
  | ret a => exact hk a
  | step u n ih => exact fun s hs => ⟨(hp s hs).1, ih s (hp s hs).2⟩

/-- A value read from a state with `P` may be used to keep `P`. -/
theorem Keeps.read_bind {g : σ → α} {k : α → Prog σ β} (hk : ∀ s, P s → Keeps P (k (g s))) :
    Keeps P (Prog.read g >>= k) := fun s hs => ⟨hs, hk s hs⟩

theorem Keeps.ite {c : Prop} [Decidable c] {p q : Prog σ α} (hp : Keeps P p) (hq : Keeps P q) :
    Keeps P (if c then p else q) := by
  split
  · exact hp
  · exact hq

theorem Keeps.run {p : Prog σ α} (h : Keeps P p) {s : σ} (hP : P s) : P (p.run s).2 := by
  induction p generalizing s with
  | ret a => exact hP
  | step u n ih => exact ih s (h s hP).2 (h s hP).1

/-- The frame rule. -/
theorem wp_frame {p : Prog σ α} {s : σ} (hst : Stable R P) (hk : Keeps P p) (hP : P s) :
    wp R P p (fun _ => P) s := by
  induction p generalizing s with
  | ret a => exact fun s' hs' => ⟨hst.star hs' hP, hst.star hs' hP⟩
  | step u n ih =>
    intro s' hs'
    have h := hst.star hs' hP
    exact ⟨h, ih s' (hk s' h).2 (hk s' h).1⟩

/-- The frame rule without interference, where the end of the program is known exactly. -/
theorem wp_run {p : Prog σ α} {s : σ} (hk : Keeps P p) (hP : P s) :
    wp (Quiet σ) P p (fun a t => p.run s = (a, t) ∧ P t) s := by
  induction p generalizing s with
  | ret a =>
    intro s' hs'
    obtain rfl : s = s' := hs'.cases_head.elim id fun ⟨_, h, _⟩ => h.elim
    exact ⟨hP, rfl, hP⟩
  | step u n ih =>
    intro s' hs'
    obtain rfl : s = s' := hs'.cases_head.elim id fun ⟨_, h, _⟩ => h.elim
    exact ⟨hP, ih s (hk s hP).2 (hk s hP).1⟩

/-- The interference `R` restricted to states with `B`. -/
def Within (B : σ → Prop) (R : σ → σ → Prop) : σ → σ → Prop := fun s s' => B s ∧ R s s'

theorem star_within {s s' : σ} (hst : Stable R B) (hB : B s) (h : ReflTransGen R s s') :
    ReflTransGen (Within B R) s s' ∧ B s' := by
  induction h with
  | refl => exact ⟨.refl, hB⟩
  | tail _ hstep ih => exact ⟨ih.1.tail ⟨ih.2, hstep⟩, hst _ _ hstep ih.2⟩

/-- What the interference and the program keep may be assumed of the interference. -/
theorem wp_within {p : Prog σ α} {s : σ} (hst : Stable R B) (hk : Keeps B p) (hB : B s)
    (h : wp (Within B R) A p Q s) : wp R (fun s => A s ∧ B s) p (fun a s => Q a s ∧ B s) s := by
  induction p generalizing s with
  | ret a =>
    intro s' hs'
    obtain ⟨hw, hB'⟩ := star_within hst hB hs'
    obtain ⟨hA, hQ⟩ := h s' hw
    exact ⟨⟨hA, hB'⟩, hQ, hB'⟩
  | step u n ih =>
    intro s' hs'
    obtain ⟨hw, hB'⟩ := star_within hst hB hs'
    obtain ⟨hA, hn⟩ := h s' hw
    obtain ⟨hu, hkn⟩ := hk s' hB'
    exact ⟨⟨hA, hB'⟩, ih s' hkn hu hn⟩

theorem star_extend {p : Prog σ α} {s s' : σ} (h : wp R A p Q s) (hA : ∀ s, A s → B s)
    (hP : ∀ s s', B s → R s s' → P s → P s') (hs : P s) (hR : ReflTransGen R s s') : P s' := by
  induction hR with
  | refl => exact hs
  | tail hpre hstep ih => exact hP _ _ (hA _ (wp_now (wp_interfere h hpre))) hstep ih

/-- An outline of `p` extended by an assertion that `p` keeps, and that the interference keeps where
the outline holds. -/
theorem wp_extend {p : Prog σ α} {s : σ} (hA : ∀ s, A s → B s) (hk : Keeps P p)
    (hP : ∀ s s', B s → R s s' → P s → P s') (hs : P s) (h : wp R A p Q s) :
    wp R (fun s => A s ∧ P s) p (fun a s => Q a s ∧ P s) s := by
  induction p generalizing s with
  | ret a =>
    intro s' hs'
    have hP' := star_extend h hA hP hs hs'
    exact ⟨⟨(h s' hs').1, hP'⟩, (h s' hs').2, hP'⟩
  | step u n ih =>
    intro s' hs'
    have hP' := star_extend h hA hP hs hs'
    obtain ⟨hu, hkn⟩ := hk s' hP'
    exact ⟨⟨(h s' hs').1, hP'⟩, ih s' hkn hu (h s' hs').2⟩

end Keeps

end Interrupt
