import Mathlib.Data.Option.Basic
import NeuronWired.Interrupt.Machine

/-!
# Interrupt.History — a history kept beside a machine

A `Recorder` says how a history changes when a call or an interrupt takes its first step, and at every
step of the main loop.  `Machine.recorded` is the machine with the history beside its state: it has the
runs of the machine, each with its history (`Machine.reach_recorded`, `Machine.reach_beside`), and it is a
machine, so all rules for machines hold of it.
-/

namespace Interrupt

open Relation

namespace Prog

variable {σ η α β : Type}

/-- A program beside a history: `first` before its first step, and `upd` of the two states at every step. -/
def recorded (upd : σ → σ → η → η) (first : σ → η → η) : Prog σ α → Prog (σ × η) α
  | ret a => ret a
  | step u n => step (fun x => (u x.1, upd x.1 (u x.1) (first x.1 x.2)))
      fun x => (n x.1).recorded upd fun _ h => h

/-- The rest of a program. -/
abbrev beside (upd : σ → σ → η → η) (p : Prog σ α) : Prog (σ × η) α := p.recorded upd fun _ h => h

variable {upd : σ → σ → η → η} {first : σ → η → η}

theorem beside_bind (p : Prog σ α) (k : α → Prog σ β) :
    (p >>= k).beside upd = p.beside upd >>= fun a => (k a).beside upd := by
  show (p.bind k).beside upd = (p.beside upd).bind fun a => (k a).beside upd
  induction p with
  | ret a => rfl
  | step u n ih =>
    show step _ _ = step _ _
    congr 1
    funext x
    exact ih x.1

/-- A program that has a first step. -/
theorem recorded_bind {p : Prog σ α} (hp : ∀ a, p ≠ ret a) (k : α → Prog σ β) :
    (p >>= k).recorded upd first = p.recorded upd first >>= fun a => (k a).beside upd := by
  cases p with
  | ret a => exact absurd rfl (hp a)
  | step u n =>
    show step _ _ = step _ _
    congr 1
    funext x
    exact beside_bind (n x.1) k

theorem run_recorded_fst (p : Prog σ α) (x : σ × η) :
    ((p.recorded upd first).run x).2.1 = (p.run x.1).2 := by
  induction p generalizing x first with
  | ret a => rfl
  | step u n ih => exact ih x.1 _

/-- A history that is only touched by the first step. -/
theorem run_recorded_snd (p : Prog σ α) (x : σ × η) :
    ((p.recorded (fun _ _ h => h) first).run x).2.2 = x.2 ∨
      ((p.recorded (fun _ _ h => h) first).run x).2.2 = first x.1 x.2 := by
  have hrest : ∀ (q : Prog σ α) (y : σ × η), ((q.beside fun _ _ h => h).run y).2.2 = y.2 := by
    intro q
    induction q with
    | ret a => exact fun _ => rfl
    | step u n ih => exact fun y => ih y.1 _
  cases p with
  | ret a => exact Or.inl rfl
  | step u n => exact Or.inr (hrest (n x.1) _)

/-- `q` is `p` beside a history. -/
def Beside (q : Prog (σ × η) α) (p : Prog σ α) : Prop := ∃ upd first, q = p.recorded upd first

theorem beside_recorded (p : Prog σ α) (upd : σ → σ → η → η) (first : σ → η → η) :
    (p.recorded upd first).Beside p := ⟨upd, first, rfl⟩

theorem beside_ret_iff {q : Prog (σ × η) α} {a : α} : q.Beside (ret a) ↔ q = ret a :=
  ⟨fun ⟨_, _, h⟩ => h, fun h => ⟨fun _ _ e => e, fun _ e => e, h⟩⟩

theorem ret_beside_iff {p : Prog σ α} {a : α} : (ret a : Prog (σ × η) α).Beside p ↔ p = ret a := by
  refine ⟨fun ⟨upd, first, h⟩ => ?_, fun h => h ▸ ⟨fun _ _ e => e, fun _ e => e, rfl⟩⟩
  cases p with
  | ret b =>
    cases h
    rfl
  | step u n => cases h

/-- A step beside a history does what the step does. -/
theorem Beside.of_step {u' : σ × η → σ × η} {n' : σ × η → Prog (σ × η) α} {p : Prog σ α}
    (h : (step u' n').Beside p) : ∃ u n, p = step u n ∧
      ∀ x, (u' x).1 = u x.1 ∧ (n' x).Beside (n x.1) := by
  obtain ⟨upd, first, h⟩ := h
  cases p with
  | ret a => cases h
  | step u n =>
    obtain ⟨rfl, rfl⟩ := step.inj h
    exact ⟨u, n, rfl, fun x => ⟨rfl, beside_recorded _ _ _⟩⟩

theorem Beside.to_step {q : Prog (σ × η) α} {u : σ → σ} {n : σ → Prog σ α} (h : q.Beside (step u n)) :
    ∃ u' n', q = step u' n' ∧ ∀ x, (u' x).1 = u x.1 ∧ (n' x).Beside (n x.1) := by
  obtain ⟨upd, first, rfl⟩ := h
  exact ⟨_, _, rfl, fun x => ⟨rfl, beside_recorded _ _ _⟩⟩

/-- No step changes what `view` shows. -/
def Fixes {γ : Type} (view : σ → γ) : Prog σ α → Prop
  | ret _ => True
  | step u n => ∀ s, view (u s) = view s ∧ Fixes view (n s)

section Fixes

variable {γ : Type} {view : σ → γ}

@[simp] theorem fixes_pure (a : α) : Fixes view (pure a : Prog σ α) := trivial

@[simp] theorem fixes_read (g : σ → α) : Fixes view (read g) := fun _ => ⟨rfl, trivial⟩

theorem fixes_write {f : σ → σ} (h : ∀ s, view (f s) = view s) : Fixes view (write f) :=
  fun s => ⟨h s, trivial⟩

theorem fixes_atomic {f : σ → α × σ} (h : ∀ s, view (f s).2 = view s) : Fixes view (atomic f) :=
  fun s => ⟨h s, trivial⟩

theorem Fixes.bind {p : Prog σ α} {k : α → Prog σ β} (hp : Fixes view p) (hk : ∀ a, Fixes view (k a)) :
    Fixes view (p >>= k) := by
  induction p with
  | ret a => exact hk a
  | step u n ih => exact fun s => ⟨(hp s).1, ih s (hp s).2⟩

theorem Fixes.ite {c : Prop} [Decidable c] {p q : Prog σ α} (hp : Fixes view p) (hq : Fixes view q) :
    Fixes view (if c then p else q) := by
  split
  · exact hp
  · exact hq

end Fixes

/-- No step is recorded. -/
def Unseen (upd : σ → σ → η → η) : Prog σ α → Prop
  | ret _ => True
  | step u n => ∀ s, (∀ e, upd s (u s) e = e) ∧ Unseen upd (n s)

section Unseen

@[simp] theorem unseen_pure (a : α) : Unseen upd (pure a : Prog σ α) := trivial

theorem unseen_write {f : σ → σ} (h : ∀ s e, upd s (f s) e = e) : Unseen upd (write f) :=
  fun s => ⟨h s, trivial⟩

theorem Unseen.bind {p : Prog σ α} {k : α → Prog σ β} (hp : Unseen upd p) (hk : ∀ a, Unseen upd (k a)) :
    Unseen upd (p >>= k) := by
  induction p with
  | ret a => exact hk a
  | step u n ih => exact fun s => ⟨(hp s).1, ih s (hp s).2⟩

theorem Unseen.ite {c : Prop} [Decidable c] {p q : Prog σ α} (hp : Unseen upd p) (hq : Unseen upd q) :
    Unseen upd (if c then p else q) := by
  split
  · exact hp
  · exact hq

/-- What is recorded depends on a view that the program fixes. -/
theorem Fixes.unseen {γ : Type} {view : σ → γ} {p : Prog σ α} (hp : Fixes view p)
    (h : ∀ s s' e, view s' = view s → upd s s' e = e) : Unseen upd p := by
  induction p with
  | ret a => trivial
  | step u n ih => exact fun s => ⟨fun e => h _ _ e (hp s).1, ih s (hp s).2⟩

theorem run_unseen {p : Prog σ α} (hp : Unseen upd p) (s : σ) (e : η) :
    (p.beside upd).run (s, e) = ((p.run s).1, (p.run s).2, e) := by
  induction p generalizing s with
  | ret a => rfl
  | step u n ih =>
    show ((n s).beside upd).run (u s, upd s (u s) e) = _
    rw [(hp s).1 e]
    exact ih s (hp s).2 (u s)

/-- One statement that is not recorded. -/
theorem run_unseen_bind {p : Prog σ α} {k : α → Prog σ β} {s s' : σ} {a : α} {e : η} (hp : Unseen upd p)
    (h : p.run s = (a, s')) : ((p >>= k).beside upd).run (s, e) = ((k a).beside upd).run (s', e) := by
  rw [beside_bind]
  refine run_bind_of ?_
  rw [run_unseen hp, h]

/-- One write. -/
theorem run_beside_write {f : σ → σ} {k : Unit → Prog σ α} (s : σ) (e : η) :
    ((write f >>= k).beside upd).run (s, e) = ((k ()).beside upd).run (f s, upd s (f s) e) := rfl

end Unseen

end Prog

/-! ## Outlines of programs beside a history -/

section Rules

variable {σ η α β γ : Type} {R : σ × η → σ × η → Prop} {A P : σ × η → Prop} {Q : α → σ × η → Prop}
  {upd : σ → σ → η → η} {first : σ → η → η} {x : σ × η}

theorem wp_recorded_read {g : σ → β} {k : β → Prog σ α} (hst : Stable R P) (hA : ∀ x, P x → A x)
    (hP : P x) (h : ∀ s e, P (s, e) →
      wp R A ((k (g s)).beside upd) Q (s, upd s s (first s e))) :
    wp R A ((Prog.read g >>= k).recorded upd first) Q x :=
  wp_step hst hA hP fun y hy => h y.1 y.2 hy

theorem wp_recorded_atomic {f : σ → β × σ} {k : β → Prog σ α} (hst : Stable R P) (hA : ∀ x, P x → A x)
    (hP : P x) (h : ∀ s e, P (s, e) →
      wp R A ((k (f s).1).beside upd) Q ((f s).2, upd s (f s).2 (first s e))) :
    wp R A ((Prog.atomic f >>= k).recorded upd first) Q x :=
  wp_step hst hA hP fun y hy => h y.1 y.2 hy

theorem wp_recorded_write {f : σ → σ} {k : Unit → Prog σ α} (hst : Stable R P) (hA : ∀ x, P x → A x)
    (hP : P x) (h : ∀ s e, P (s, e) →
      wp R A ((k ()).beside upd) Q (f s, upd s (f s) (first s e))) :
    wp R A ((Prog.write f >>= k).recorded upd first) Q x :=
  wp_step hst hA hP fun y hy => h y.1 y.2 hy

theorem wp_recorded_write_last {f : σ → σ} {Q : Unit → σ × η → Prop} (hst : Stable R P)
    (hA : ∀ x, P x → A x) (hP : P x) (hst' : Stable R (Q ())) (hA' : ∀ x, Q () x → A x)
    (h : ∀ s e, P (s, e) → Q () (f s, upd s (f s) (first s e))) :
    wp R A ((Prog.write f).recorded upd first) Q x :=
  wp_step hst hA hP fun y hy => wp_pure hst' hA' (h y.1 y.2 hy)

/-- The frame rule: a program that fixes what the history and the assertion are about. -/
theorem wp_recorded_fixes {view : σ → γ} {p : Prog σ α} (hp : p.Fixes view) (hst : Stable R P)
    (hfirst : ∀ s e, P (s, e) → P (s, first s e))
    (hstep : ∀ s s' e, view s' = view s → P (s, e) → P (s', upd s s' e)) (hP : P x) :
    wp R P (p.recorded upd first) (fun _ => P) x := by
  induction p generalizing x first with
  | ret a => exact fun x' hx' => ⟨hst.star hx' hP, hst.star hx' hP⟩
  | step u n ih =>
    intro x' hx'
    have hP' := hst.star hx' hP
    obtain ⟨hu, hn⟩ := hp x'.1
    exact ⟨hP', ih x'.1 hn (fun _ _ h => h) (hstep _ _ _ hu (hfirst _ _ hP'))⟩

/-- A program that is not recorded, beside a history that the interference leaves alone. -/
theorem wp_beside {R₀ : σ → σ → Prop} {A₀ : σ → Prop} {Q₀ : α → σ → Prop}
    (hR : ∀ x x', R x x' → R₀ x.1 x'.1 ∧ x'.2 = x.2) {p : Prog σ α} {s : σ} (e : η)
    (h : wp R₀ A₀ p Q₀ s) :
    wp R (fun x => A₀ x.1 ∧ x.2 = e) (p.beside fun _ _ e => e) (fun a x => Q₀ a x.1 ∧ x.2 = e) (s, e) := by
  have hstar : ∀ s x, ReflTransGen R (s, e) x → ReflTransGen R₀ s x.1 ∧ x.2 = e := by
    intro s x hx
    induction hx with
    | refl => exact ⟨.refl, rfl⟩
    | tail _ hstep ih =>
      obtain ⟨hs, he⟩ := hR _ _ hstep
      exact ⟨ih.1.tail hs, he.trans ih.2⟩
  induction p generalizing s with
  | ret a =>
    intro x hx
    obtain ⟨hs, he⟩ := hstar s x hx
    exact ⟨⟨(h _ hs).1, he⟩, (h _ hs).2, he⟩
  | step u n ih =>
    intro x hx
    obtain ⟨t, e'⟩ := x
    obtain ⟨hs, rfl⟩ := hstar s _ hx
    obtain ⟨hA, hn⟩ := h t hs
    exact ⟨⟨hA, rfl⟩, ih t hn⟩

/-- What a program keeps it keeps beside a history. -/
theorem Keeps.recorded {P : σ → Prop} {p : Prog σ α} (hp : Keeps P p) :
    Keeps (fun x => P x.1) (p.recorded upd first) := by
  induction p generalizing first with
  | ret a => trivial
  | step u n ih => exact fun x hx => ⟨(hp x.1 hx).1, ih x.1 (hp x.1 hx).2⟩

/-- And a history stays as it is under steps that are not recorded. -/
theorem Keeps.beside {P : σ → Prop} {K : η → Prop} {p : Prog σ α} (hp : Keeps P p)
    (hupd : ∀ s s' e, P s → P s' → K e → K (upd s s' e)) :
    Keeps (fun x => P x.1 ∧ K x.2) (p.beside upd) := by
  induction p with
  | ret a => trivial
  | step u n ih =>
    intro x hx
    obtain ⟨hu, hn⟩ := hp x.1 hx.1
    exact ⟨⟨hu, hupd _ _ _ hx.1 hu hx.2⟩, ih x.1 hn⟩

end Rules

/-! ## Machines -/

/-- How a history changes: at the first step of a call, at every step of the main loop (from the states
before and after it), and at the first step of an interrupt. -/
structure Recorder (σ κ ι η : Type) where
  call : κ → σ → η → η
  step : σ → σ → η → η
  irq : ι → σ → η → η

/-- A configuration with a history, and the configuration. -/
structure Cfg.Beside {σ κ η : Type} (c' : Cfg (σ × η) κ) (c : Cfg σ κ) : Prop where
  st : c'.st.1 = c.st
  main : Option.Rel (fun a b => a.1 = b.1 ∧ a.2.Beside b.2) c'.main c.main
  irq : Option.Rel Prog.Beside c'.irq c.irq

namespace Machine

variable {σ κ ι η : Type} (M : Machine σ κ ι) (r : Recorder σ κ ι η)

/-- The machine beside its history. -/
def recorded : Machine (σ × η) κ ι where
  call k := (M.call k).recorded r.step (r.call k)
  irq i := (M.irq i).recorded (fun _ _ h => h) (r.irq i)
  callOk k x := M.callOk k x.1
  irqOk i x := M.irqOk i x.1

variable {M r}

/-- One complete interrupt. -/
theorem rely_recorded {x x' : σ × η} (h : (M.recorded r).Rely x x') :
    ∃ i, M.irqOk i x.1 ∧ x'.1 = ((M.irq i).run x.1).2 ∧ (x'.2 = x.2 ∨ x'.2 = r.irq i x.1 x.2) := by
  obtain ⟨i, hi, rfl⟩ := h
  exact ⟨i, hi, Prog.run_recorded_fst _ _, Prog.run_recorded_snd _ _⟩

/-- A step with the history is a step. -/
theorem step_of_recorded {c' d' : Cfg (σ × η) κ} {c : Cfg σ κ} (hc : c'.Beside c)
    (h : (M.recorded r).Step c' d') : ∃ d, M.Step c d ∧ d'.Beside d := by
  obtain ⟨s, m, q⟩ := c
  obtain ⟨hst, hmain, hirq⟩ := hc
  dsimp only at hst hmain hirq
  subst hst
  cases h with
  | start k hk =>
    cases hmain
    cases hirq
    exact ⟨_, .start k hk, rfl, .some ⟨rfl, Prog.beside_recorded _ _ _⟩, .none⟩
  | main =>
    cases hirq
    cases hmain with
    | @some _ kp h =>
      obtain ⟨k, p⟩ := kp
      obtain ⟨rfl, hp⟩ := h
      obtain ⟨u, n, rfl, hun⟩ := hp.of_step
      exact ⟨_, .main, (hun _).1, .some ⟨rfl, (hun _).2⟩, .none⟩
  | finish =>
    cases hirq
    cases hmain with
    | @some _ kp h =>
      obtain ⟨k, p⟩ := kp
      obtain ⟨rfl, hp⟩ := h
      obtain rfl := Prog.ret_beside_iff.mp hp
      exact ⟨_, .finish, rfl, .none, .none⟩
  | enter i hi =>
    cases hirq
    exact ⟨_, .enter i hi, rfl, hmain, .some (Prog.beside_recorded _ _ _)⟩
  | irq =>
    cases hirq with
    | some hp =>
      obtain ⟨u, n, rfl, hun⟩ := hp.of_step
      exact ⟨_, .irq, (hun _).1, hmain, .some (hun _).2⟩
  | leave =>
    cases hirq with
    | some hp =>
      obtain rfl := Prog.ret_beside_iff.mp hp
      exact ⟨_, .leave, rfl, hmain, .none⟩

/-- A step is a step with the history. -/
theorem step_recorded {c d : Cfg σ κ} {c' : Cfg (σ × η) κ} (hc : c'.Beside c) (h : M.Step c d) :
    ∃ d', (M.recorded r).Step c' d' ∧ d'.Beside d := by
  obtain ⟨x, m', q'⟩ := c'
  obtain ⟨s, m, q⟩ := c
  obtain ⟨hst, hmain, hirq⟩ := hc
  dsimp only at hst hmain hirq
  subst hst
  cases h with
  | start k hk =>
    cases hmain
    cases hirq
    exact ⟨_, .start k hk, rfl, .some ⟨rfl, Prog.beside_recorded _ _ _⟩, .none⟩
  | main =>
    cases hirq
    cases hmain with
    | @some kp _ h =>
      obtain ⟨k, p⟩ := kp
      obtain ⟨rfl, hp⟩ := h
      obtain ⟨u, n, rfl, hun⟩ := hp.to_step
      exact ⟨_, .main, (hun x).1, .some ⟨rfl, (hun x).2⟩, .none⟩
  | finish =>
    cases hirq
    cases hmain with
    | @some kp _ h =>
      obtain ⟨k, p⟩ := kp
      obtain ⟨rfl, hp⟩ := h
      obtain rfl := Prog.beside_ret_iff.mp hp
      exact ⟨_, .finish, rfl, .none, .none⟩
  | enter i hi =>
    cases hirq
    exact ⟨_, .enter i hi, rfl, hmain, .some (Prog.beside_recorded _ _ _)⟩
  | irq =>
    cases hirq with
    | some hp =>
      obtain ⟨u, n, rfl, hun⟩ := hp.to_step
      exact ⟨_, .irq, (hun x).1, hmain, .some (hun x).2⟩
  | leave =>
    cases hirq with
    | some hp =>
      obtain rfl := Prog.beside_ret_iff.mp hp
      exact ⟨_, .leave, rfl, hmain, .none⟩

variable {s₀ : σ} {h₀ : η}

/-- A run with the history is a run. -/
theorem reach_recorded {c' : Cfg (σ × η) κ} (h : (M.recorded r).Reach (s₀, h₀) c') :
    ∃ c, M.Reach s₀ c ∧ c'.Beside c := by
  induction h with
  | init => exact ⟨⟨s₀, none, none⟩, .init, rfl, .none, .none⟩
  | step _ hstep ih =>
    obtain ⟨c, hc, hb⟩ := ih
    obtain ⟨d, hd, hb'⟩ := step_of_recorded hb hstep
    exact ⟨d, hc.step hd, hb'⟩

/-- Every run has a history. -/
theorem reach_beside {c : Cfg σ κ} (h : M.Reach s₀ c) :
    ∃ c', (M.recorded r).Reach (s₀, h₀) c' ∧ c'.Beside c := by
  induction h with
  | init => exact ⟨⟨(s₀, h₀), none, none⟩, .init, rfl, .none, .none⟩
  | step _ hstep ih =>
    obtain ⟨c', hc, hb⟩ := ih
    obtain ⟨d', hd, hb'⟩ := step_recorded hb hstep
    exact ⟨d', hc.step hd, hb'⟩

end Machine

end Interrupt
