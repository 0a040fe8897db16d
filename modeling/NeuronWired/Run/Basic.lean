import Mathlib.Tactic.Common

/-!
# Run — operations one after another

A sequential component is a step function that takes a state and an operation to an answer and a state.
A run is a list of operations.  The rules: an invariant that every step keeps holds after the run; two
conditions that agree wherever an invariant holds are met along the same runs; and a simulation between
two components gives equal answers.
-/

namespace Run

section States

variable {σ ι : Type} (step : σ → ι → σ)

/-- The state after a run. -/
def after (s : σ) : List ι → σ
  | [] => s
  | i :: l => after (step s i) l

@[simp] theorem after_nil (s : σ) : after step s [] = s := rfl

@[simp] theorem after_cons (s : σ) (i : ι) (l : List ι) :
    after step s (i :: l) = after step (step s i) l := rfl

theorem after_append (s : σ) (l l' : List ι) :
    after step s (l ++ l') = after step (after step s l) l' := by
  induction l generalizing s with
  | nil => rfl
  | cons i l ih => exact ih (step s i)

/-- Every operation of the run meets `ok` in the state it finds. -/
def Along (ok : σ → ι → Prop) (s : σ) : List ι → Prop
  | [] => True
  | i :: l => ok s i ∧ Along ok (step s i) l

@[simp] theorem along_nil (ok : σ → ι → Prop) (s : σ) : Along step ok s [] := trivial

@[simp] theorem along_cons (ok : σ → ι → Prop) (s : σ) (i : ι) (l : List ι) :
    Along step ok s (i :: l) ↔ ok s i ∧ Along step ok (step s i) l := Iff.rfl

instance Along.decidable (ok : σ → ι → Prop) [h : ∀ s i, Decidable (ok s i)] :
    (s : σ) → (l : List ι) → Decidable (Along step ok s l)
  | _, [] => .isTrue trivial
  | s, i :: l => @instDecidableAnd _ _ (h s i) (Along.decidable ok (step s i) l)

variable {step} {ok ok' : σ → ι → Prop} {Inv : σ → Prop} {s : σ} {l : List ι}

theorem along_append {l' : List ι} :
    Along step ok s (l ++ l') ↔ Along step ok s l ∧ Along step ok (after step s l) l' := by
  induction l generalizing s with
  | nil => simp
  | cons i l ih => simp only [List.cons_append, along_cons, ih, and_assoc, after_cons]

theorem Along.mono (h : Along step ok s l) (himp : ∀ s i, ok s i → ok' s i) : Along step ok' s l := by
  induction l generalizing s with
  | nil => trivial
  | cons i l ih => exact ⟨himp _ _ h.1, ih h.2⟩

theorem along_congr (h : ∀ s i, ok s i ↔ ok' s i) : Along step ok s l ↔ Along step ok' s l :=
  ⟨fun hl => hl.mono fun s i => (h s i).mp, fun hl => hl.mono fun s i => (h s i).mpr⟩

theorem Along.and (h : Along step ok s l) (h' : Along step ok' s l) :
    Along step (fun s i => ok s i ∧ ok' s i) s l := by
  induction l generalizing s with
  | nil => trivial
  | cons i l ih => exact ⟨⟨h.1, h'.1⟩, ih h.2 h'.2⟩

/-- A condition on the operations alone. -/
theorem along_of_mem {ok : ι → Prop} (h : ∀ i ∈ l, ok i) : Along step (fun _ i => ok i) s l := by
  induction l generalizing s with
  | nil => trivial
  | cons i l ih => exact ⟨h i List.mem_cons_self, ih fun j hj => h j (List.mem_cons_of_mem i hj)⟩

/-- A run along which nothing is asked. -/
theorem along_true (s : σ) (l : List ι) : Along step (fun _ _ => True) s l := by
  induction l generalizing s with
  | nil => trivial
  | cons i l ih => exact ⟨trivial, ih _⟩

/-- The invariant rule. -/
theorem Along.invariant (h : Along step ok s l) (hs : Inv s)
    (hstep : ∀ s i, Inv s → ok s i → Inv (step s i)) : Inv (after step s l) := by
  induction l generalizing s with
  | nil => exact hs
  | cons i l ih => exact ih h.2 (hstep s i hs h.1)

/-- Operations that keep the invariant meet what the invariant gives. -/
theorem Along.mono_invariant (h : Along step ok s l) (hs : Inv s)
    (hstep : ∀ s i, Inv s → ok s i → Inv (step s i)) (himp : ∀ s i, Inv s → ok s i → ok' s i) :
    Along step ok' s l := by
  induction l generalizing s with
  | nil => trivial
  | cons i l ih => exact ⟨himp _ _ hs h.1, ih h.2 (hstep _ _ hs h.1)⟩

/-- The invariant rule when every operation keeps the invariant. -/
theorem invariant (hs : Inv s) (hstep : ∀ s i, Inv s → Inv (step s i)) (l : List ι) :
    Inv (after step s l) :=
  (along_true s l).invariant hs fun s i h _ => hstep s i h

/-- Two conditions that agree under an invariant are met along the same runs of a kind. -/
theorem Along.iff {kind : σ → ι → Prop} (h : Along step kind s l) (hs : Inv s)
    (hstep : ∀ s i, Inv s → kind s i → ok s i → Inv (step s i))
    (hiff : ∀ s i, Inv s → kind s i → (ok' s i ↔ ok s i)) :
    Along step ok' s l ↔ Along step ok s l := by
  induction l generalizing s with
  | nil => exact Iff.rfl
  | cons i l ih =>
    rw [along_cons, along_cons, hiff s i hs h.1]
    exact and_congr_right fun hok => ih h.2 (hstep s i hs h.1 hok)

/-- A property that a step passes on exactly when it meets `ok` is there after exactly the runs that meet
`ok`. -/
theorem Along.after_iff {kind : σ → ι → Prop} {Good : σ → Prop} (h : Along step kind s l) (hs : Inv s)
    (hstep : ∀ s i, Inv s → kind s i → Inv (step s i))
    (hgood : ∀ s i, Inv s → kind s i → (Good (step s i) ↔ Good s ∧ ok s i)) :
    Good (after step s l) ↔ Good s ∧ Along step ok s l := by
  induction l generalizing s with
  | nil => simp
  | cons i l ih =>
    rw [after_cons, along_cons, ih h.2 (hstep s i hs h.1), hgood s i hs h.1, and_assoc]

end States

section Answers

variable {σ τ ι ο ο' : Type} (step : σ → ι → ο × σ)

/-- The answers of a run. -/
def answers (s : σ) : List ι → List ο
  | [] => []
  | i :: l => (step s i).1 :: answers (step s i).2 l

/-- The state after a run of a component with answers. -/
abbrev final (s : σ) (l : List ι) : σ := after (fun s i => (step s i).2) s l

variable {step} {step' : τ → ι → ο' × τ} {ok : σ → ι → Prop} {R : σ → τ → Prop} {view : ο' → ο}

/-- The simulation rule: related states give the same answers and stay related. -/
theorem answers_eq {s : σ} {t : τ} {l : List ι} (hrel : R s t)
    (hok : Along (fun s i => (step s i).2) ok s l)
    (hstep : ∀ s t i, R s t → ok s i →
      (step s i).1 = view (step' t i).1 ∧ R (step s i).2 (step' t i).2) :
    answers step s l = (answers step' t l).map view ∧ R (final step s l) (final step' t l) := by
  induction l generalizing s t with
  | nil => exact ⟨rfl, hrel⟩
  | cons i l ih =>
    obtain ⟨hans, hnext⟩ := hstep s t i hrel hok.1
    obtain ⟨hrest, hfinal⟩ := ih hnext hok.2
    refine ⟨?_, hfinal⟩
    show _ :: _ = _ :: _
    rw [hans, hrest]

end Answers

end Run
