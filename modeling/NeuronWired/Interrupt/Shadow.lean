import NeuronWired.Interrupt.Zoom

/-!
# Interrupt.Shadow — a component among others under one main loop

Several components share one main loop and one level of interrupts.  Seen from one component, a program of
the whole is a program of the component with steps in between that it does not notice (`Prog.Shows`).  If
that holds of every call and every interrupt, then every run of the whole is a run of the component
(`Machine.Reach.shadow`), so what holds of all runs of the component alone holds of it among the others.
-/

namespace Interrupt

open Relation

/-! ## Programs -/

namespace Prog

variable {τ σ : Type}

/-- Through `f`, the program `p` of the whole looks like the program `q` of the component. -/
inductive Shows (f : τ → σ) : Prog τ Unit → Prog σ Unit → Prop where
  | ret : Shows f (.ret ()) (.ret ())
  | step {u : τ → τ} {n : τ → Prog τ Unit} {u' : σ → σ} {n' : σ → Prog σ Unit}
      (hu : ∀ t, f (u t) = u' (f t)) (hn : ∀ t, Shows f (n t) (n' (f t))) :
      Shows f (.step u n) (.step u' n')
  | skip {u : τ → τ} {n : τ → Prog τ Unit} {q : Prog σ Unit} (hu : ∀ t, f (u t) = f t)
      (hn : ∀ t, Shows f (n t) q) : Shows f (.step u n) q

variable {f : τ → σ}

theorem shows_zoom (L : Lens τ σ) (p : Prog σ Unit) : (p.zoom L).Shows L.get p := by
  induction p with
  | ret a => exact .ret
  | step u n ih => exact .step (fun t => L.get_set _ t) fun t => ih (L.get t)

/-- A program of another component. -/
theorem shows_zoom_other {ρ : Type} {L : Lens τ ρ} (hL : ∀ r t, f (L.set r t) = f t) (p : Prog ρ Unit) :
    (p.zoom L).Shows f (pure ()) := by
  induction p with
  | ret a => exact .ret
  | step u n ih => exact .skip (fun t => hL _ t) fun t => ih (L.get t)

/-- One write that every component sees. -/
theorem shows_write {u : τ → τ} {u' : σ → σ} (hu : ∀ t, f (u t) = u' (f t)) :
    (write u).Shows f (write u') := .step hu fun _ => .ret

end Prog

/-! ## Machines -/

/-- The calls and interrupts of the component behind those of the whole; `none` where it takes no part. -/
structure Machine.Shadowing {τ σ κ κ' ι ι' : Type} (M : Machine τ κ ι) (N : Machine σ κ' ι') (f : τ → σ)
    (callOf : κ → Option κ') (irqOf : ι → Option ι') : Prop where
  call : ∀ k, (M.call k).Shows f (((callOf k).map N.call).getD (pure ()))
  irq : ∀ i, (M.irq i).Shows f (((irqOf i).map N.irq).getD (pure ()))
  callOk : ∀ k k' t, callOf k = some k' → M.callOk k t → N.callOk k' (f t)
  irqOk : ∀ i i' t, irqOf i = some i' → M.irqOk i t → N.irqOk i' (f t)

/-- What the component sees of a program that runs, and whether it runs for the component. -/
inductive Sees {τ σ : Type} (f : τ → σ) : Prog τ Unit → Option (Prog σ Unit) → Prop where
  | other {p : Prog τ Unit} (h : p.Shows f (pure ())) : Sees f p none
  | own {p : Prog τ Unit} {q : Prog σ Unit} (h : p.Shows f q) : Sees f p (some q)

theorem Sees.step {τ σ : Type} {f : τ → σ} {u : τ → τ} {n : τ → Prog τ Unit} {q : Option (Prog σ Unit)}
    (h : Sees f (.step u n) q) (t : τ) :
    (f (u t) = f t ∧ Sees f (n t) q) ∨
      ∃ u' n', q = some (.step u' n') ∧ f (u t) = u' (f t) ∧ Sees f (n t) (some (n' (f t))) := by
  cases h with
  | other h =>
    cases h with
    | skip hu hn => exact .inl ⟨hu t, .other (hn t)⟩
  | own h =>
    cases h with
    | step hu hn => exact .inr ⟨_, _, rfl, hu t, .own (hn t)⟩
    | skip hu hn => exact .inl ⟨hu t, .own (hn t)⟩

theorem Sees.ret {τ σ : Type} {f : τ → σ} {q : Option (Prog σ Unit)} (h : Sees f (.ret ()) q) :
    q = none ∨ q = some (.ret ()) := by
  cases h with
  | other h => exact .inl rfl
  | own h =>
    cases h with
    | ret => exact .inr rfl

/-- A configuration of the whole, as the component sees it. -/
structure Cfg.Shadow {τ σ κ κ' : Type} (f : τ → σ) (callOf : κ → Option κ') (c : Cfg τ κ)
    (d : Cfg σ κ') : Prop where
  st : d.st = f c.st
  idle : c.main = none → d.main = none
  main : ∀ k p, c.main = some (k, p) → d.main.map Prod.fst = callOf k ∧ Sees f p (d.main.map Prod.snd)
  noIrq : c.irq = none → d.irq = none
  irq : ∀ p, c.irq = some p → Sees f p d.irq

theorem Cfg.Shadow.running {τ σ κ κ' : Type} {f : τ → σ} {callOf : κ → Option κ'} {t : τ} {s : σ} {k : κ}
    {p : Prog τ Unit} {m : Option (κ' × Prog σ Unit)} (hs : s = f t) (hk : m.map Prod.fst = callOf k)
    (h : Sees f p (m.map Prod.snd)) :
    (⟨t, some (k, p), none⟩ : Cfg τ κ).Shadow f callOf ⟨s, m, none⟩ := by
  refine ⟨hs, nofun, fun _ _ heq => ?_, fun _ => rfl, nofun⟩
  obtain ⟨rfl, rfl⟩ := Prod.mk.inj (Option.some.inj heq)
  exact ⟨hk, h⟩

namespace Machine

variable {τ σ κ κ' ι ι' : Type} {M : Machine τ κ ι} {N : Machine σ κ' ι'} {f : τ → σ}
  {callOf : κ → Option κ'} {irqOf : ι → Option ι'}

/-- One step of the whole is any number of steps of the component. -/
theorem Shadowing.step (S : M.Shadowing N f callOf irqOf) {c c' : Cfg τ κ} {d : Cfg σ κ'}
    (h : c.Shadow f callOf d) (hstep : M.Step c c') :
    ∃ d', ReflTransGen N.Step d d' ∧ c'.Shadow f callOf d' := by
  obtain ⟨s, m, q⟩ := d
  obtain ⟨hst, hidle, hmain, hnone, hirq⟩ := h
  dsimp only at hst hidle hmain hnone hirq
  subst hst
  cases hstep with
  | start k hk =>
    obtain rfl := hidle rfl
    obtain rfl := hnone rfl
    have hcall := S.call k
    cases hof : callOf k with
    | none =>
      rw [hof] at hcall
      exact ⟨_, .refl, .running rfl hof.symm (.other hcall)⟩
    | some k' =>
      rw [hof] at hcall
      exact ⟨_, .single (.start k' (S.callOk k k' _ hof hk)), .running rfl hof.symm (.own hcall)⟩
  | @main s k u n =>
    obtain rfl := hnone rfl
    obtain ⟨hk, hsees⟩ := hmain k _ rfl
    rcases hsees.step s with ⟨hu, hn⟩ | ⟨u', n', hq, hu, hn⟩
    · exact ⟨_, .refl, .running hu.symm hk hn⟩
    · obtain ⟨⟨k', q⟩, rfl, rfl⟩ := Option.map_eq_some_iff.mp hq
      exact ⟨_, .single .main, .running hu.symm hk hn⟩
  | finish =>
    obtain rfl := hnone rfl
    rcases (hmain _ _ rfl).2.ret with hq | hq
    · obtain rfl := Option.map_eq_none_iff.mp hq
      exact ⟨_, .refl, rfl, fun _ => rfl, nofun, fun _ => rfl, nofun⟩
    · obtain ⟨⟨k', q⟩, rfl, rfl⟩ := Option.map_eq_some_iff.mp hq
      exact ⟨_, .single .finish, rfl, fun _ => rfl, nofun, fun _ => rfl, nofun⟩
  | @enter s m' i hi =>
    obtain rfl := hnone rfl
    have hprog := S.irq i
    cases hof : irqOf i with
    | none =>
      rw [hof] at hprog
      exact ⟨_, .refl, rfl, hidle, hmain, nofun, fun _ h => Option.some.inj h ▸ .other hprog⟩
    | some i' =>
      rw [hof] at hprog
      exact ⟨_, .single (.enter i' (S.irqOk i i' _ hof hi)), rfl, hidle, hmain, nofun,
        fun _ h => Option.some.inj h ▸ .own hprog⟩
  | @irq s m' u n =>
    rcases (hirq _ rfl).step s with ⟨hu, hn⟩ | ⟨u', n', rfl, hu, hn⟩
    · exact ⟨_, .refl, hu.symm, hidle, hmain, nofun, fun _ h => Option.some.inj h ▸ hn⟩
    · exact ⟨_, .single .irq, hu.symm, hidle, hmain, nofun, fun _ h => Option.some.inj h ▸ hn⟩
  | leave =>
    rcases (hirq _ rfl).ret with rfl | rfl
    · exact ⟨_, .refl, rfl, hidle, hmain, fun _ => rfl, nofun⟩
    · exact ⟨_, .single .leave, rfl, hidle, hmain, fun _ => rfl, nofun⟩

theorem Reach.steps {s₀ : σ} {d d' : Cfg σ κ'} (h : N.Reach s₀ d) (hs : ReflTransGen N.Step d d') :
    N.Reach s₀ d' := by
  induction hs with
  | refl => exact h
  | tail _ hstep ih => exact ih.step hstep

/-- A run of the whole is a run of the component. -/
theorem Reach.shadow (S : M.Shadowing N f callOf irqOf) {t₀ : τ} {c : Cfg τ κ} (h : M.Reach t₀ c) :
    ∃ d, N.Reach (f t₀) d ∧ c.Shadow f callOf d := by
  induction h with
  | init => exact ⟨_, .init, rfl, fun _ => rfl, nofun, fun _ => rfl, nofun⟩
  | step _ hstep ih =>
    obtain ⟨d, hd, hs⟩ := ih
    obtain ⟨d', hsteps, hs'⟩ := S.step hs hstep
    exact ⟨d', hd.steps hsteps, hs'⟩

end Machine

end Interrupt
