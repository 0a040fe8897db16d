import NeuronWired.Interrupt.Machine

/-!
# Interrupt.Zoom — programs of a component inside a larger state

A `Lens` says where the state of a component lies in a larger state.  A program of the component, zoomed,
does there what it does on its own, and nothing anywhere else.
-/

namespace Interrupt

/-- A component `σ` of a larger state `τ`. -/
structure Lens (τ σ : Type) where
  get : τ → σ
  set : σ → τ → τ
  get_set : ∀ s t, get (set s t) = s
  set_get : ∀ t, set (get t) t = t
  set_set : ∀ s s' t, set s (set s' t) = set s t

attribute [simp] Lens.get_set Lens.set_get Lens.set_set

namespace Prog

variable {τ σ α β : Type}

/-- A program of the component. -/
def zoom (L : Lens τ σ) : Prog σ α → Prog τ α
  | ret a => ret a
  | step u n => step (fun t => L.set (u (L.get t)) t) fun t => (n (L.get t)).zoom L

variable (L : Lens τ σ)

@[simp] theorem zoom_pure (a : α) : (pure a : Prog σ α).zoom L = pure a := rfl

@[simp] theorem zoom_bind (p : Prog σ α) (k : α → Prog σ β) :
    (p >>= k).zoom L = p.zoom L >>= fun a => (k a).zoom L := by
  show (p.bind k).zoom L = (p.zoom L).bind fun a => (k a).zoom L
  induction p with
  | ret a => rfl
  | step u n ih =>
    show step _ _ = step _ _
    congr 1
    funext t
    exact ih (L.get t)

@[simp] theorem zoom_read (g : σ → α) : (read g).zoom L = read fun t => g (L.get t) := by
  show step _ _ = step _ _
  congr 1
  funext t
  exact L.set_get t

@[simp] theorem zoom_write (f : σ → σ) : (write f).zoom L = write fun t => L.set (f (L.get t)) t := rfl

@[simp] theorem zoom_atomic (f : σ → α × σ) :
    (atomic f).zoom L = atomic fun t => ((f (L.get t)).1, L.set (f (L.get t)).2 t) := rfl

@[simp] theorem zoom_ite (c : Prop) [Decidable c] (p q : Prog σ α) :
    (if c then p else q).zoom L = if c then p.zoom L else q.zoom L := by
  split <;> rfl

theorem run_zoom (p : Prog σ α) (t : τ) :
    (p.zoom L).run t = ((p.run (L.get t)).1, L.set (p.run (L.get t)).2 t) := by
  induction p generalizing t with
  | ret a => exact Prod.ext rfl (L.set_get t).symm
  | step u n ih =>
    show ((n (L.get t)).zoom L).run _ = _
    rw [ih, L.get_set, L.set_set]
    rfl

end Prog

section Rule

open Relation

variable {τ σ α : Type} {L : Lens τ σ} {R : σ → σ → Prop} {R' : τ → τ → Prop} {F : τ → Prop}

theorem star_zoom (hR : ∀ t t', R' t t' → F t → ReflTransGen R (L.get t) (L.get t') ∧ F t') {t t' : τ}
    (ht : F t) (h : ReflTransGen R' t t') : ReflTransGen R (L.get t) (L.get t') ∧ F t' := by
  induction h with
  | refl => exact ⟨.refl, ht⟩
  | tail _ hstep ih =>
    obtain ⟨hnext, hF⟩ := hR _ _ hstep ih.2
    exact ⟨ih.1.trans hnext, hF⟩

/-- An outline of the component, where the interrupts of the larger state act on it as its own do, beside an
assertion that neither they nor the component touch. -/
theorem wp_zoom (hR : ∀ t t', R' t t' → F t → ReflTransGen R (L.get t) (L.get t') ∧ F t')
    (hF : ∀ s t, F t → F (L.set s t)) {A : σ → Prop} {Q : α → σ → Prop} {p : Prog σ α} {t : τ}
    (h : wp R A p Q (L.get t)) (ht : F t) :
    wp R' (fun t => A (L.get t) ∧ F t) (p.zoom L) (fun a t => Q a (L.get t) ∧ F t) t := by
  induction p generalizing t with
  | ret a =>
    intro t' ht'
    obtain ⟨hs, hf⟩ := star_zoom hR ht ht'
    exact ⟨⟨(h _ hs).1, hf⟩, (h _ hs).2, hf⟩
  | step u n ih =>
    intro t' ht'
    obtain ⟨hs, hf⟩ := star_zoom hR ht ht'
    obtain ⟨hA, hn⟩ := h _ hs
    refine ⟨⟨hA, hf⟩, ih (L.get t') ?_ (hF _ _ hf)⟩
    rw [L.get_set]
    exact hn

theorem Keeps.zoom {P : σ → Prop} {p : Prog σ α} (h : Keeps P p) :
    Keeps (fun t => P (L.get t)) (p.zoom L) := by
  induction p with
  | ret a => trivial
  | step u n ih =>
    intro t ht
    obtain ⟨hu, hn⟩ := h _ ht
    refine ⟨?_, ih (L.get t) hn⟩
    show P (L.get (L.set _ t))
    rw [L.get_set]
    exact hu

/-- A zoomed program keeps what the component does not touch. -/
theorem keeps_zoom (hF : ∀ s t, F t → F (L.set s t)) (p : Prog σ α) : Keeps F (p.zoom L) := by
  induction p with
  | ret a => trivial
  | step u n ih => exact fun t ht => ⟨hF _ _ ht, ih (L.get t)⟩

end Rule

end Interrupt
