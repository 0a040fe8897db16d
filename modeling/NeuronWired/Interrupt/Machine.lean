import Mathlib.Data.Nat.Notation
import NeuronWired.Interrupt.Logic

/-!
# Interrupt.Machine — one main loop and the interrupts that preempt it

A `Machine` has programs that the main loop may call and programs that an interrupt runs.  A
configuration is the state together with what is left of the running call and of the running
interrupt.  An interrupt enters between any two steps of the main loop, runs to its end, and only
then does the main loop go on.  `Machine.Reach` is reachability; `Machine.Outline.sound` turns one
outline for each call into invariants of every reachable configuration.
-/

namespace Interrupt

open Relation

/-- Main-loop calls `κ` and interrupts `ι` over a state `σ`.  `callOk` and `irqOk` say which of them
the environment may start in which state. -/
structure Machine (σ κ ι : Type) where
  call : κ → Prog σ Unit
  irq : ι → Prog σ Unit
  callOk : κ → σ → Prop
  irqOk : ι → σ → Prop

/-- State, running call, running interrupt. -/
structure Cfg (σ κ : Type) where
  st : σ
  main : Option (κ × Prog σ Unit)
  irq : Option (Prog σ Unit)

namespace Machine

variable {σ κ ι : Type} (M : Machine σ κ ι)

/-- One step of a configuration. -/
inductive Step : Cfg σ κ → Cfg σ κ → Prop where
  | start {s : σ} (k : κ) (h : M.callOk k s) : Step ⟨s, none, none⟩ ⟨s, some (k, M.call k), none⟩
  | main {s : σ} {k : κ} {u : σ → σ} {n : σ → Prog σ Unit} :
      Step ⟨s, some (k, .step u n), none⟩ ⟨u s, some (k, n s), none⟩
  | finish {s : σ} {k : κ} : Step ⟨s, some (k, .ret ()), none⟩ ⟨s, none, none⟩
  | enter {s : σ} {m : Option (κ × Prog σ Unit)} (i : ι) (h : M.irqOk i s) :
      Step ⟨s, m, none⟩ ⟨s, m, some (M.irq i)⟩
  | irq {s : σ} {m : Option (κ × Prog σ Unit)} {u : σ → σ} {n : σ → Prog σ Unit} :
      Step ⟨s, m, some (.step u n)⟩ ⟨u s, m, some (n s)⟩
  | leave {s : σ} {m : Option (κ × Prog σ Unit)} : Step ⟨s, m, some (.ret ())⟩ ⟨s, m, none⟩

/-- Configurations reachable from `s₀` with nothing running. -/
inductive Reach (s₀ : σ) : Cfg σ κ → Prop where
  | init : Reach s₀ ⟨s₀, none, none⟩
  | step {c c' : Cfg σ κ} : Reach s₀ c → M.Step c c' → Reach s₀ c'

/-- The effect of one complete interrupt. -/
def Rely (s s' : σ) : Prop := ∃ i, M.irqOk i s ∧ s' = ((M.irq i).run s).2

/-- An outline of the machine: `Inv` holds between calls, `A k` all through the call `k`. -/
structure Outline (Inv : σ → Prop) (A : κ → σ → Prop) : Prop where
  stable : Stable M.Rely Inv
  call : ∀ k s, Inv s → M.callOk k s → wp M.Rely (A k) (M.call k) (fun _ => Inv) s

/-- Two outlines of one machine combine. -/
theorem Outline.and {M : Machine σ κ ι} {Inv Inv' : σ → Prop} {A A' : κ → σ → Prop}
    (O : M.Outline Inv A) (O' : M.Outline Inv' A') :
    M.Outline (fun s => Inv s ∧ Inv' s) (fun k s => A k s ∧ A' k s) where
  stable := O.stable.and O'.stable
  call := fun k s hs hok => wp_and (O.call k s hs.1 hok) (O'.call k s hs.2 hok)

/-- What is known of the state and of the rest of the main loop while no interrupt runs. -/
def Good (Inv : σ → Prop) (A : κ → σ → Prop) (s : σ) : Option (κ × Prog σ Unit) → Prop
  | none => Inv s
  | some (k, p) => wp M.Rely (A k) p (fun _ => Inv) s

/-- `q` in state `s` is what remains of an interrupt program started in `s₀`. -/
inductive Remains : Prog σ Unit → σ → Prog σ Unit → σ → Prop where
  | refl {p : Prog σ Unit} {s : σ} : Remains p s p s
  | step {p : Prog σ Unit} {s₀ s : σ} {u : σ → σ} {n : σ → Prog σ Unit} :
      Remains p s₀ (.step u n) s → Remains p s₀ (n s) (u s)

variable {M}

theorem Remains.run_eq {p q : Prog σ Unit} {s₀ s : σ} (h : Remains p s₀ q s) :
    q.run s = p.run s₀ := by
  induction h with
  | refl => rfl
  | step _ ih => rw [← ih]; rfl

/-- What an uninterrupted outline says of the points inside a program. -/
theorem Remains.always {B : σ → Prop} {Q : Unit → σ → Prop} {p q : Prog σ Unit} {s₀ s : σ}
    (h : Remains p s₀ q s) (hw : wp (Quiet σ) B p Q s₀) : wp (Quiet σ) B q Q s := by
  induction h with
  | refl => exact hw
  | step _ ih => exact (ih _ .refl).2

variable {Inv : σ → Prop} {A : κ → σ → Prop} {s₀ : σ}

theorem Outline.good_rely (O : M.Outline Inv A) {s s' : σ} {m : Option (κ × Prog σ Unit)}
    (h : M.Good Inv A s m) (hR : M.Rely s s') : M.Good Inv A s' m := by
  cases m with
  | none => exact O.stable _ _ hR h
  | some kp => exact wp_interfere h (.single hR)

/-- An outline made with a coarser description `R` of the interrupts, which may assume an invariant
`B` that calls and interrupts keep. -/
theorem Outline.within {B : σ → Prop} {R : σ → σ → Prop} (hst : Stable M.Rely B)
    (hk : ∀ k, Keeps B (M.call k)) (hR : ∀ s s', B s → M.Rely s s' → R s s')
    (hInv : Stable R Inv)
    (hcall : ∀ k s, Inv s → M.callOk k s → wp R (A k) (M.call k) (fun _ => Inv) s) :
    M.Outline (fun s => Inv s ∧ B s) (fun k s => A k s ∧ B s) where
  stable := fun s s' h hs => ⟨hInv s s' (hR s s' hs.2 h) hs.1, hst s s' h hs.2⟩
  call := fun k s hs hok =>
    wp_within hst (hk k) hs.2 (wp_anti (hcall k s hs.1 hok) fun _ _ h => hR _ _ h.1 h.2)

/-- An outline extended by what every call and, under the outline, every interrupt keeps. -/
theorem Outline.extend {P B : σ → Prop} (O : M.Outline Inv A) (hI : ∀ s, Inv s → B s)
    (hA : ∀ k s, A k s → B s) (hk : ∀ k, Keeps P (M.call k))
    (hP : ∀ s s', B s → M.Rely s s' → P s → P s') :
    M.Outline (fun s => Inv s ∧ P s) (fun k s => A k s ∧ P s) where
  stable := fun s s' h hs => ⟨O.stable s s' h hs.1, hP s s' (hI s hs.1) h hs.2⟩
  call := fun k s hs hok => wp_extend (hA k) (hk k) hP hs.2 (O.call k s hs.1 hok)

/-- An outline extended by an assertion with an outline of its own, made with what the first one says of
the interrupts. -/
theorem Outline.join {P : σ → Prop} {A' : κ → σ → Prop} {H : σ → σ → Prop} (O : M.Outline Inv A)
    (hI : ∀ s s', Inv s → M.Rely s s' → H s s') (hA : ∀ k s s', A k s → M.Rely s s' → H s s')
    (hP : Stable H P) (hk : ∀ k s, Inv s → P s → wp H (A' k) (M.call k) (fun _ => P) s) :
    M.Outline (fun s => Inv s ∧ P s) (fun k s => A k s ∧ A' k s) where
  stable := fun s s' h hs => ⟨O.stable s s' h hs.1, hP s s' (hI s s' hs.1 h) hs.2⟩
  call := fun k s hs hok => wp_join (hA k) (O.call k s hs.1 hok) (hk k s hs.1 hs.2)

/-- **Soundness**: outside interrupts the outline holds, and inside an interrupt the state is on the
way of that interrupt from a state where the outline held. -/
theorem Outline.sound (O : M.Outline Inv A) (h₀ : Inv s₀) {c : Cfg σ κ} (hc : M.Reach s₀ c) :
    match c.irq with
    | none => M.Good Inv A c.st c.main
    | some q => ∃ s i, M.Good Inv A s c.main ∧ M.irqOk i s ∧ Remains (M.irq i) s q c.st := by
  induction hc with
  | init => exact h₀
  | step _ hstep ih =>
    cases hstep with
    | start k hk => exact O.call k _ ih hk
    | main => exact (ih _ .refl).2
    | finish => exact (ih _ .refl).2
    | enter i hi => exact ⟨_, i, ih, hi, .refl⟩
    | irq =>
      obtain ⟨s, i, hg, hi, hr⟩ := ih
      exact ⟨s, i, hg, hi, .step hr⟩
    | leave =>
      obtain ⟨s, i, hg, hi, hr⟩ := ih
      exact O.good_rely hg ⟨i, hi, by rw [← hr.run_eq]; rfl⟩

/-- Between calls the invariant holds. -/
theorem Outline.idle (O : M.Outline Inv A) (h₀ : Inv s₀) {s : σ} (hc : M.Reach s₀ ⟨s, none, none⟩) :
    Inv s := O.sound h₀ hc

/-- During the call `k` its assertion holds. -/
theorem Outline.during (O : M.Outline Inv A) (h₀ : Inv s₀) {s : σ} {k : κ} {p : Prog σ Unit}
    (hc : M.Reach s₀ ⟨s, some (k, p), none⟩) : A k s := wp_now (O.sound h₀ hc)

/-- A property of the invariant and of every call's assertion holds whenever no interrupt runs. -/
theorem Outline.always (O : M.Outline Inv A) (h₀ : Inv s₀) {P : σ → Prop} (hI : ∀ s, Inv s → P s)
    (hA : ∀ k s, A k s → P s) {c : Cfg σ κ} (hc : M.Reach s₀ c) (hq : c.irq = none) : P c.st := by
  obtain ⟨s, m, q⟩ := c
  subst hq
  cases m with
  | none => exact hI s (O.idle h₀ hc)
  | some kp => exact hA kp.1 s (O.during h₀ hc)

/-- A property that every interrupt keeps at each of its points, from the states where one may
enter, holds in every reachable configuration. -/
theorem Outline.everywhere (O : M.Outline Inv A) (h₀ : Inv s₀) {P B : σ → Prop}
    (hI : ∀ s, Inv s → P s) (hA : ∀ k s, A k s → P s) (hB : ∀ s, P s → B s)
    (hirq : ∀ i s, P s → M.irqOk i s → wp (Quiet σ) B (M.irq i) (fun _ _ => True) s)
    {c : Cfg σ κ} (hc : M.Reach s₀ c) : B c.st := by
  have hP : ∀ s m, M.Good Inv A s m → P s := by
    intro s m hg
    cases m with
    | none => exact hI s hg
    | some kp => exact hA kp.1 s (wp_now hg)
  have h := O.sound h₀ hc
  obtain ⟨s, m, q⟩ := c
  cases q with
  | none => exact hB _ (hP s m h)
  | some q =>
    obtain ⟨s', i, hg, hi, hr⟩ := h
    exact wp_now (hr.always (hirq i s' (hP s' m hg) hi))

end Machine

/-! ## Playing a schedule -/

/-- One move of a schedule: start a call, take some steps of the main loop, or run an interrupt. -/
inductive Act (κ ι : Type) where
  | call (k : κ)
  | go (steps : ℕ)
  | irq (i : ι)

namespace Machine

variable {σ κ ι : Type}

/-- Steps of the main loop, as many as there are. -/
def advance : ℕ → σ → Option (κ × Prog σ Unit) → σ × Option (κ × Prog σ Unit)
  | 0, s, m => (s, m)
  | _ + 1, s, none => (s, none)
  | _ + 1, s, some (_, .ret _) => (s, none)
  | n + 1, s, some (k, .step u p) => advance n (u s) (some (k, p s))

variable (M : Machine σ κ ι)

/-- A schedule, from the state and what is left of the running call. -/
def play : List (Act κ ι) → σ × Option (κ × Prog σ Unit) → σ × Option (κ × Prog σ Unit)
  | [], c => c
  | .call k :: acts, (s, none) => play acts (s, some (k, M.call k))
  | .call _ :: acts, (s, some m) => play acts (s, some m)
  | .go n :: acts, (s, m) => play acts (advance n s m)
  | .irq i :: acts, (s, m) => play acts (((M.irq i).run s).2, m)

/-- The environment may do what the schedule says. -/
def Allowed : List (Act κ ι) → σ × Option (κ × Prog σ Unit) → Prop
  | [], _ => True
  | .call k :: acts, (s, none) => M.callOk k s ∧ Allowed acts (s, some (k, M.call k))
  | .call _ :: acts, (s, some m) => Allowed acts (s, some m)
  | .go n :: acts, (s, m) => Allowed acts (advance n s m)
  | .irq i :: acts, (s, m) => M.irqOk i s ∧ Allowed acts (((M.irq i).run s).2, m)

instance Allowed.decide [∀ k s, Decidable (M.callOk k s)] [∀ i s, Decidable (M.irqOk i s)] :
    ∀ acts c, Decidable (M.Allowed acts c)
  | [], _ => .isTrue trivial
  | .call k :: acts, (s, none) =>
    have := Allowed.decide acts (s, some (k, M.call k))
    inferInstanceAs (Decidable (_ ∧ _))
  | .call _ :: acts, (s, some m) => Allowed.decide acts (s, some m)
  | .go n :: acts, (s, m) => Allowed.decide acts (Machine.advance n s m)
  | .irq i :: acts, (s, m) =>
    have := Allowed.decide acts (((M.irq i).run s).2, m)
    inferInstanceAs (Decidable (_ ∧ _))

variable {M} {s₀ : σ}

theorem Reach.advance (n : ℕ) {s : σ} {m : Option (κ × Prog σ Unit)} (h : M.Reach s₀ ⟨s, m, none⟩) :
    M.Reach s₀ ⟨(Machine.advance n s m).1, (Machine.advance n s m).2, none⟩ := by
  induction n generalizing s m with
  | zero => exact h
  | succ n ih =>
    match m with
    | none => exact h
    | some (k, .ret ()) => exact h.step .finish
    | some (k, .step u p) => exact ih (h.step .main)

theorem Remains.reach {p q : Prog σ Unit} {s t : σ} {m : Option (κ × Prog σ Unit)}
    (hr : Remains p s q t) (h : M.Reach s₀ ⟨s, m, some p⟩) : M.Reach s₀ ⟨t, m, some q⟩ := by
  induction hr with
  | refl => exact h
  | step _ ih => exact ih.step .irq

theorem remains_run (p : Prog σ Unit) (s : σ) : Remains p s (.ret ()) (p.run s).2 := by
  have h : ∀ (q : Prog σ Unit) (t : σ), Remains p s q t → Remains p s (.ret ()) (q.run t).2 := by
    intro q
    induction q with
    | ret a => exact fun t hr => hr
    | step u n ih => exact fun t hr => ih t (u t) hr.step
  exact h p s .refl

/-- An interrupt, run to its end. -/
theorem Reach.interrupt {s : σ} {m : Option (κ × Prog σ Unit)} (h : M.Reach s₀ ⟨s, m, none⟩) (i : ι)
    (hi : M.irqOk i s) : M.Reach s₀ ⟨((M.irq i).run s).2, m, none⟩ :=
  ((remains_run (M.irq i) s).reach (h.step (.enter i hi))).step .leave

/-- A schedule leads to a reachable configuration. -/
theorem Reach.play (acts : List (Act κ ι)) {c : σ × Option (κ × Prog σ Unit)}
    (h : M.Reach s₀ ⟨c.1, c.2, none⟩) (hok : M.Allowed acts c) :
    M.Reach s₀ ⟨(M.play acts c).1, (M.play acts c).2, none⟩ := by
  induction acts generalizing c with
  | nil => exact h
  | cons a acts ih =>
    obtain ⟨s, m⟩ := c
    cases a with
    | call k =>
      cases m with
      | none => exact ih (h.step (.start k hok.1)) hok.2
      | some m => exact ih h hok
    | go n => exact ih (h.advance n) hok
    | irq i => exact ih (h.interrupt i hok.1) hok.2

/-- Without conditions on the environment every schedule is allowed. -/
theorem allowed_of_free (hc : ∀ k s, M.callOk k s) (hi : ∀ i s, M.irqOk i s)
    (acts : List (Act κ ι)) (c : σ × Option (κ × Prog σ Unit)) : M.Allowed acts c := by
  induction acts generalizing c with
  | nil => trivial
  | cons a acts ih =>
    obtain ⟨s, m⟩ := c
    cases a with
    | call k =>
      cases m with
      | none => exact ⟨hc k s, ih _⟩
      | some m => exact ih _
    | go n => exact ih _
    | irq i => exact ⟨hi i s, ih _⟩

end Machine

end Interrupt
