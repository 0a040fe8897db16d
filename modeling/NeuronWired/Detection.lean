import NeuronWired.Disconnect
import NeuronWired.Interrupt.History

/-!
# Detection — transfers that the connection machine hears

The transfer-done handler sets `connection_detected`, and `spils_poll` clears it in steps of its own after
it has looked at the flag or at the timer.  A handler in between is not heard.  The history kept beside a
run has the times of the handlers, and whether a step of the main loop has cleared the flag too early.
-/

namespace NeuronWired

open Interrupt Relation

/-! ## The history -/

/-- The times at which a transfer-done handler has finished, those of them before the last `spils_poll`
began, and whether a handler was lost. -/
structure Detections where
  heard : List ℕ
  before : List ℕ
  lost : Bool
  deriving DecidableEq, Repr

/-- A handler that has finished at time `t` still has to keep the link connected. -/
def Con.Open (c : Con) (t : ℕ) : Prop := c.now < t + c.timeout ∧ c.now < 4294967296

instance (c : Con) (t : ℕ) : Decidable (c.Open t) := inferInstanceAs (Decidable (_ ∧ _))

/-- A step clears `connection_detected` while a handler has to keep the link connected, and the timer would
expire before the time of that handler is over. -/
def Con.Loses (c c' : Con) (h : Detections) : Prop :=
  c.detected = true ∧ c'.detected = false ∧ ∃ t ∈ h.heard, c.Open t ∧ c.timer < t + c.timeout

instance (c c' : Con) (h : Detections) : Decidable (c.Loses c' h) :=
  inferInstanceAs (Decidable (_ ∧ _ ∧ _))

/-- An edge at which bytes were received runs the handler. -/
def detections : Recorder Sys LinkCall Irq Detections where
  call
    | .poll, _, h => { h with before := h.heard }
    | _, _, h => h
  step s s' h := if s.con.Loses s'.con h then { h with lost := true } else h
  irq
    | .edge e, s, h => if s.received e ≠ [] then { h with heard := s.now :: h.heard } else h
    | .tick _, _, h => h

/-- Any calls and any interrupts, with the handlers remembered. -/
def heardMachine : Machine (Sys × Detections) LinkCall Irq :=
  (linkMachine (fun _ _ => True) fun _ _ => True).recorded detections

/-! ## Assertions about the connection machine and the history -/

/-- An assertion of a state and its history. -/
def Says (P : Con → Detections → Prop) (x : Sys × Detections) : Prop := P x.1.con x.2

/-- What an interrupt does: the handler sets the flag and is remembered, or time passes. -/
def Hears (x x' : Sys × Detections) : Prop :=
  (∃ v, x'.1.con = x.1.con.hear v ∧
    (x'.2 = x.2 ∨ v = true ∧ x'.2 = { x.2 with heard := x.1.now :: x.2.heard })) ∨
  ∃ n, x'.1.con = x.1.con.tick n ∧ x'.2 = x.2

/-- An assertion that no interrupt disturbs. -/
structure HeardStable (P : Con → Detections → Prop) : Prop where
  hear : ∀ c h v, P c h → P (c.hear v) h
  note : ∀ c h, P c h → P (c.hear true) { h with heard := c.now :: h.heard }
  tick : ∀ c h n, P c h → P (c.tick n) h

section HeardStable

variable {P P' : Con → Detections → Prop}

theorem HeardStable.stable (hP : HeardStable P) : Stable Hears (Says P) := by
  rintro x x' (⟨v, hcon, hsame | ⟨rfl, hnote⟩⟩ | ⟨n, hcon, hsame⟩) hs <;> unfold Says
  · rw [hcon, hsame]
    exact hP.hear _ _ v hs
  · rw [hcon, hnote]
    exact hP.note _ _ hs
  · rw [hcon, hsame]
    exact hP.tick _ _ n hs

theorem HeardStable.and (hP : HeardStable P) (hP' : HeardStable P') : HeardStable fun c h => P c h ∧ P' c h where
  hear c h v hs := ⟨hP.hear c h v hs.1, hP'.hear c h v hs.2⟩
  note c h hs := ⟨hP.note c h hs.1, hP'.note c h hs.2⟩
  tick c h n hs := ⟨hP.tick c h n hs.1, hP'.tick c h n hs.2⟩

/-- What is about the connection machine alone. -/
theorem heardStable_con {φ : Con → Prop} (hhear : ∀ c v, φ c → φ (c.hear v)) (htick : ∀ c n, φ c → φ (c.tick n)) :
    HeardStable fun c _ => φ c :=
  ⟨fun c _ v => hhear c v, fun c _ => hhear c true, fun c _ n => htick c n⟩

end HeardStable

/-! ## What a poll relies on -/

/-- A handler that has to keep the link connected is in the flag, or in the timer of a link that is
connected. -/
def Con.Covers (c : Con) (t : ℕ) : Prop :=
  c.Open t → c.detected = true ∨ c.state = .connected ∧ t + c.timeout ≤ c.timer

/-- Every handler is covered. -/
structure Covered (c : Con) (h : Detections) : Prop where
  before : ∀ t ∈ h.before, t ∈ h.heard
  covers : h.lost = false → ∀ t ∈ h.heard, c.Covers t

/-- The handlers in front of the last poll have made it report CONNECTED. -/
def Reported (c : Con) (h : Detections) : Prop :=
  h.lost = false → ∀ t ∈ h.before, c.Open t → c.state = .connected

theorem Con.Open.of_tick {c : Con} {t n : ℕ} (h : (c.tick n).Open t) : c.Open t :=
  ⟨Nat.lt_of_le_of_lt (Nat.le_add_right _ _) h.1, Nat.lt_of_le_of_lt (Nat.le_add_right _ _) h.2⟩

theorem Con.detected_hear {c : Con} (h : c.detected = true) (v : Bool) : (c.hear v).detected = true :=
  Bool.or_eq_true_iff.mpr (Or.inl h)

theorem heardStable_covered : HeardStable Covered where
  hear c h v hs := by
    refine ⟨hs.before, fun hl t ht hopen => ?_⟩
    rcases hs.covers hl t ht hopen with hd | hc
    · exact Or.inl (Con.detected_hear hd v)
    · exact Or.inr hc
  note c h hs := by
    refine ⟨fun t ht => List.mem_cons_of_mem _ (hs.before t ht), fun _ _ _ _ => Or.inl ?_⟩
    exact Bool.or_eq_true_iff.mpr (Or.inr rfl)
  tick c h n hs := ⟨hs.before, fun hl t ht hopen => hs.covers hl t ht hopen.of_tick⟩

theorem heardStable_reported : HeardStable Reported where
  hear _ _ _ hs := hs
  note _ _ hs := hs
  tick _ _ _ hs hl t ht hopen := hs hl t ht hopen.of_tick

theorem heardStable_state (st : SpilsConState) : HeardStable fun c _ => c.state = st :=
  heardStable_con (fun _ _ h => h) fun _ _ h => h

theorem heardStable_detected : HeardStable fun c _ => c.detected = true :=
  heardStable_con (fun _ v h => Con.detected_hear h v) fun _ _ h => h

/-- The timer has expired. -/
theorem heardStable_expired : HeardStable fun c _ => c.timer ≤ c.now :=
  heardStable_con (fun _ _ h => h) fun _ _ h => Nat.le_add_right_of_le h

/-! ## One poll -/

section Poll

/-- A part of `spils_poll`, with the history. -/
abbrev heardCode {α : Type} (p : Code α) : Prog (Sys × Detections) α := p.beside detections.step

/-- All through a poll, every handler is covered. -/
abbrev DuringPoll : Sys × Detections → Prop := Says Covered

/-- In the end the poll has reported CONNECTED if it has to. -/
abbrev AfterPoll : Sys × Detections → Prop := Says fun c h => Covered c h ∧ Reported c h

variable {x : Sys × Detections}

/-- Only a step that clears the flag can lose a handler. -/
theorem step_of_detected {s s' : Sys} (h : Detections)
    (hd : s.con.detected = true → s'.con.detected = true) : detections.step s s' h = h := by
  refine if_neg ?_
  rintro ⟨hbefore, hafter, -⟩
  rw [hd hbefore] at hafter
  cases hafter

section Rules

variable {α : Type} {P : Con → Detections → Prop} {Q : α → Sys × Detections → Prop}
  (hP : HeardStable P) (hkept : ∀ c h, P c h → Covered c h) (hx : Says P x)
include hP hkept hx

/-- A step that only reads. -/
theorem wp_heard_read {β : Type} {g : Sys → β} {k : β → Code α}
    (h : ∀ s e, P s.con e → wp Hears DuringPoll (heardCode (k (g s))) Q (s, e)) :
    wp Hears DuringPoll (heardCode (Prog.read g >>= k)) Q x := by
  refine wp_recorded_read hP.stable (fun y hy => hkept _ _ hy) hx fun s e hs => ?_
  rw [step_of_detected e id]
  exact h s e hs

/-- A step that writes, and clears no flag. -/
theorem wp_heard_write {f : Sys → Sys} {k : Unit → Code α}
    (hd : ∀ s, s.con.detected = true → (f s).con.detected = true)
    (h : ∀ s e, P s.con e → wp Hears DuringPoll (heardCode (k ())) Q (f s, e)) :
    wp Hears DuringPoll (heardCode (Prog.write f >>= k)) Q x := by
  refine wp_recorded_write hP.stable (fun y hy => hkept _ _ hy) hx fun s e hs => ?_
  rw [step_of_detected e (hd s)]
  exact h s e hs

/-- A write that ends a part, and clears no flag. -/
theorem wp_heard_write_last {f : Sys → Sys} {P' : Con → Detections → Prop} (hP' : HeardStable P')
    (hkept' : ∀ c h, P' c h → Covered c h)
    (hd : ∀ s, s.con.detected = true → (f s).con.detected = true)
    (h : ∀ s e, P s.con e → P' (f s).con e) :
    wp Hears DuringPoll (heardCode (Prog.write f)) (fun _ => Says P') x := by
  refine wp_recorded_write_last hP.stable (fun y hy => hkept _ _ hy) hx hP'.stable
    (fun y hy => hkept' _ _ hy) fun s e hs => ?_
  rw [step_of_detected e (hd s)]
  exact h s e hs

end Rules

/-! ### Reports -/

/-- No handler in front of the poll is open any more. -/
def Over (c : Con) (h : Detections) : Prop := h.lost = false → ∀ t ∈ h.before, ¬ c.Open t

/-- The handlers that are open are in the flag. -/
def Flagged (c : Con) (h : Detections) : Prop :=
  h.lost = false → ∀ t ∈ h.heard, c.Open t → c.detected = true

theorem heardStable_over : HeardStable Over where
  hear _ _ _ hs := hs
  note _ _ hs := hs
  tick _ _ _ hs hl t ht hopen := hs hl t ht hopen.of_tick

theorem heardStable_flagged : HeardStable Flagged where
  hear _ _ v hs hl t ht hopen := Con.detected_hear (hs hl t ht hopen) v
  note _ _ _ _ _ _ _ := Bool.or_eq_true_iff.mpr (Or.inr rfl)
  tick _ _ _ hs hl t ht hopen := hs hl t ht hopen.of_tick

theorem Over.reported {c : Con} {h : Detections} (hs : Over c h) : Reported c h :=
  fun hl t ht hopen => absurd hopen (hs hl t ht)

/-- An expired timer covers no handler that is open, and the flag is not cleared over one. -/
theorem Covered.closed {c c' : Con} {h : Detections} (hs : Covered c h) (hexp : c.timer ≤ c.now)
    (hc' : c'.detected = false) (hkeep : ¬ c.Loses c' h) (hl : h.lost = false) :
    ∀ t ∈ h.heard, ¬ c.Open t := by
  intro t ht hopen
  have hnow : c.now < t + c.timeout := hopen.1
  rcases hs.covers hl t ht hopen with hd | ⟨-, htimer⟩
  · exact hkeep ⟨hd, hc', t, ht, hopen, by omega⟩
  · omega

/-- A step that may lose a handler: what it says then, and what it says otherwise. -/
theorem says_step {P : Con → Detections → Prop} {s s' : Sys} {h : Detections}
    (hlost : P s'.con { h with lost := true }) (hkeep : ¬ s.con.Loses s'.con h → P s'.con h) :
    Says P (s', detections.step s s' h) := by
  show P s'.con (if _ then _ else _)
  split_ifs with hloses
  · exact hlost
  · exact hkeep hloses

/-- `_con_state_set_disconnected`, with the timer expired. -/
theorem wp_setDisconnected (hx : Says (fun c h => Covered c h ∧ c.timer ≤ c.now) x) :
    wp Hears DuringPoll (heardCode conStateSetDisconnected) (fun _ => AfterPoll) x := by
  -- the flag is cleared
  refine wp_recorded_write (P := Says fun c h => Covered c h ∧ c.timer ≤ c.now)
    (heardStable_covered.and heardStable_expired).stable (fun y hy => hy.1) hx ?_
  rintro s h ⟨hkept, hexp⟩
  have hcleared : Says (fun c h => Covered c h ∧ Flagged c h ∧ Over c h)
      (s.mapLink fun l => { l with connectionDetected := false },
        detections.step s (s.mapLink fun l => { l with connectionDetected := false }) h) := by
    refine says_step ⟨⟨hkept.before, fun hl => ?_⟩, fun hl => ?_, fun hl => ?_⟩ fun hkeep => ?_
    · cases hl
    · cases hl
    · cases hl
    · have hclear : ({ s.con with detected := false } : Con).detected = false := rfl
      have hclosed := hkept.closed hexp hclear hkeep
      refine ⟨⟨hkept.before, fun hl t ht hopen => ?_⟩, fun hl t ht hopen => ?_, fun hl t ht hopen => ?_⟩
      · exact absurd hopen (hclosed hl t ht)
      · exact absurd hopen (hclosed hl t ht)
      · exact absurd hopen (hclosed hl t (hkept.before t ht))
  -- DISCONNECTED
  refine wp_heard_write (heardStable_covered.and (heardStable_flagged.and heardStable_over))
    (fun _ _ hs => hs.1) hcleared (fun _ hd => hd) ?_
  rintro s h ⟨hkept, hflag, hover⟩
  refine wp_heard_write_last (P := fun c h => Covered c h ∧ Over c h) (heardStable_covered.and heardStable_over)
    (fun _ _ hs => hs.1) ?_ (heardStable_covered.and heardStable_reported) (fun _ _ hs => hs.1) (fun _ hd => hd) ?_
  · exact ⟨⟨hkept.before, fun hl t ht hopen => Or.inl (hflag hl t ht hopen)⟩, hover⟩
  · rintro s h ⟨hkept, hover⟩
    exact ⟨⟨hkept.before, hkept.covers⟩, Over.reported hover⟩

/-- The timer is set, which an assertion must not mind. -/
theorem wp_timerReset {P : Con → Detections → Prop} (hP : HeardStable P) (hkept : ∀ c h, P c h → Covered c h)
    (hset : ∀ c h timer, P c h → P { c with timer := timer } h) (hx : Says P x) :
    wp Hears DuringPoll (heardCode disconnectTimerReset) (fun _ => Says P) x := by
  refine wp_heard_read hP hkept hx fun s h hs => ?_
  refine wp_heard_read (x := (s, h)) hP hkept hs fun s h hs => ?_
  exact wp_heard_write_last (x := (s, h)) hP hkept hs hP hkept (fun _ hd => hd) fun s h hs => hset _ _ _ hs

/-- `_con_state_set_connected`, with the flag set. -/
theorem wp_setConnected (hx : Says (fun c h => Covered c h ∧ c.detected = true) x) :
    wp Hears DuringPoll (heardCode conStateSetConnected) (fun _ => AfterPoll) x := by
  have hset : ∀ c h timer, Covered c h ∧ c.detected = true →
      Covered { c with timer := timer } h ∧ ({ c with timer := timer } : Con).detected = true :=
    fun c h timer hs => ⟨⟨hs.1.before, fun _ _ _ _ => Or.inl hs.2⟩, hs.2⟩
  unfold conStateSetConnected heardCode
  rw [Prog.beside_bind]
  have hsteady := heardStable_covered.and heardStable_detected
  refine wp_bind (wp_mono (wp_timerReset hsteady (fun _ _ hs => hs.1) hset hx) ?_)
  intro _ y hy
  refine wp_heard_write hsteady (fun _ _ hs => hs.1) hy (fun _ hd => hd) ?_
  rintro s h ⟨hkept, hd⟩
  -- CONNECTED
  refine wp_heard_write_last (P := fun c h => Covered c h ∧ c.state = .connected)
    (heardStable_covered.and (heardStable_state _)) (fun _ _ hs => hs.1)
    ⟨⟨hkept.before, fun _ _ _ _ => Or.inl hd⟩, rfl⟩ (heardStable_covered.and heardStable_reported)
    (fun _ _ hs => hs.1) (fun _ hd => hd) ?_
  rintro s h ⟨hkept, hst⟩
  exact ⟨⟨hkept.before, hkept.covers⟩, fun _ _ _ _ => hst⟩

/-- The second test of `_con_state_connected`, and of `_con_state_unknown`. -/
theorem wp_connectedExpire (hx : AfterPoll x) :
    wp Hears DuringPoll (heardCode conStateConnectedExpire) (fun _ => AfterPoll) x := by
  have hsteady := heardStable_covered.and heardStable_reported
  show wp Hears DuringPoll (heardCode (Prog.read Sys.millis >>= fun t => readLink (·.disconnectTimer) >>=
    fun timer => if decide (timer ≤ t) = true then conStateSetDisconnected else pure ())) _ x
  refine wp_heard_read hsteady (fun _ _ hs => hs.1) hx fun s h hs => ?_
  have hread : s.millis ≤ s.con.now := Nat.mod_le _ _
  refine wp_heard_read (P := fun c h => (Covered c h ∧ Reported c h) ∧ s.millis ≤ c.now)
    (hsteady.and (heardStable_con (fun _ _ h => h) fun _ _ h => Nat.le_add_right_of_le h)) (fun _ _ hs => hs.1.1)
    ⟨hs, hread⟩ ?_
  rintro s' h ⟨hs, hnow⟩
  by_cases hexp : s'.link.disconnectTimer ≤ s.millis
  · rw [if_pos (decide_eq_true hexp)]
    exact wp_setDisconnected ⟨hs.1, Nat.le_trans hexp hnow⟩
  · rw [if_neg (by rw [decide_eq_true_eq]; exact hexp)]
    exact wp_pure hsteady.stable (fun y hy => hy.1) hs

/-- A link that is not connected, and finds the flag clear: no handler is open. -/
theorem Covered.over {c : Con} {h : Detections} (hs : Covered c h) (hst : c.state ≠ .connected)
    (hd : c.detected ≠ true) : Over c h := by
  intro hl t ht hopen
  rcases hs.covers hl t (hs.before t ht) hopen with hflag | ⟨hcon, -⟩
  · exact hd hflag
  · exact hst hcon

/-- `_con_state_disconnected`. -/
theorem wp_conStateDisconnected (hx : Says (fun c h => Covered c h ∧ c.state = .disconnected) x) :
    wp Hears DuringPoll (heardCode conStateDisconnected) (fun _ => AfterPoll) x := by
  refine wp_heard_read (heardStable_covered.and (heardStable_state _)) (fun _ _ hs => hs.1) hx ?_
  rintro s h ⟨hkept, hst⟩
  by_cases hd : s.link.connectionDetected = true
  · rw [if_pos hd]
    exact wp_setConnected ⟨hkept, hd⟩
  · rw [if_neg hd]
    have hne : s.con.state ≠ .connected := fun h' => by rw [hst] at h'; cases h'
    exact wp_pure (heardStable_covered.and heardStable_reported).stable (fun y hy => hy.1)
      ⟨hkept, (hkept.over hne hd).reported⟩

/-- `_con_state_unknown`. -/
theorem wp_conStateUnknown (hx : Says (fun c h => Covered c h ∧ c.state = .unknown) x) :
    wp Hears DuringPoll (heardCode conStateUnknown) (fun _ => AfterPoll) x := by
  refine wp_heard_read (heardStable_covered.and (heardStable_state _)) (fun _ _ hs => hs.1) hx ?_
  rintro s h ⟨hkept, hst⟩
  by_cases hd : s.link.connectionDetected = true
  · rw [if_pos hd]
    exact wp_setConnected ⟨hkept, hd⟩
  · rw [if_neg hd]
    have hne : s.con.state ≠ .connected := fun h' => by rw [hst] at h'; cases h'
    exact wp_connectedExpire ⟨hkept, (hkept.over hne hd).reported⟩

/-- `_con_state_connected`: the flag is cleared behind a timer that has been set again. -/
theorem wp_conStateConnected (hx : Says (fun c h => Covered c h ∧ c.state = .connected) x) :
    wp Hears DuringPoll (heardCode conStateConnected) (fun _ => AfterPoll) x := by
  refine wp_heard_read (heardStable_covered.and (heardStable_state _)) (fun _ _ hs => hs.1) hx ?_
  rintro s h ⟨hkept, hst⟩
  by_cases hd : s.link.connectionDetected = true
  · rw [if_pos hd]
    have hsteady : HeardStable fun c h => Covered c h ∧ c.detected = true ∧ c.state = .connected :=
      heardStable_covered.and (heardStable_detected.and (heardStable_state _))
    unfold heardCode
    rw [Prog.beside_bind]
    refine wp_bind (wp_mono (wp_timerReset (x := (s, h)) hsteady (fun _ _ hs => hs.1) ?_ ⟨hkept, hd, hst⟩) ?_)
    · exact fun c h timer hs => ⟨⟨hs.1.before, fun _ _ _ _ => Or.inl hs.2.1⟩, hs.2⟩
    intro _ y hy
    refine wp_recorded_write hsteady.stable (fun y hy => hy.1) hy ?_
    rintro s h ⟨hkept, hd, hst⟩
    refine wp_connectedExpire (says_step ⟨⟨hkept.before, fun hl => ?_⟩, fun hl => ?_⟩ fun hkeep => ?_)
    · cases hl
    · cases hl
    · refine ⟨⟨hkept.before, fun hl t ht hopen => Or.inr ⟨hst, ?_⟩⟩, fun _ _ _ _ => hst⟩
      exact Nat.le_of_not_lt fun hlt => hkeep ⟨hd, rfl, t, ht, hopen, hlt⟩
  · rw [if_neg hd]
    exact wp_connectedExpire ⟨hkept, fun _ _ _ _ => hst⟩

/-- `_con_machine`, from the first step of a poll on. -/
theorem wp_conMachine (hx : Says Covered x) :
    wp Hears DuringPoll (conMachine.recorded detections.step (detections.call .poll)) (fun _ => AfterPoll) x := by
  refine wp_recorded_read heardStable_covered.stable (fun _ hy => hy) hx fun s h hs => ?_
  rw [step_of_detected (detections.call .poll s h) id]
  have hkept : Covered s.con (detections.call .poll s h) := ⟨fun _ ht => ht, hs.covers⟩
  dsimp only
  cases hst : s.link.conState with
  | unknown => exact wp_conStateUnknown (x := (s, _)) ⟨hkept, hst⟩
  | disconnected => exact wp_conStateDisconnected (x := (s, _)) ⟨hkept, hst⟩
  | connected => exact wp_conStateConnected (x := (s, _)) ⟨hkept, hst⟩

end Poll

/-! ## The rest of the main loop -/

section Rest

theorem fixes_writeLink {f : Spils → Spils} (hf : ∀ l, (f l).con = l.con) :
    (writeLink f).Fixes Sys.clocked :=
  Prog.fixes_write fun s => congrArg (·, s.now) (hf s.link)

theorem fixes_mutexInTrylock : mutexInTrylock.Fixes Sys.clocked :=
  Prog.fixes_atomic fun s => by split_ifs <;> rfl

theorem fixes_mutexOutTrylock : mutexOutTrylock.Fixes Sys.clocked :=
  Prog.fixes_atomic fun s => by split_ifs <;> rfl

theorem fixes_assertDygma (cond : Bool) (msg : String) : (assertDygma cond msg).Fixes Sys.clocked :=
  .ite (Prog.fixes_pure _) (Prog.fixes_write fun _ => rfl)

/-- A result behind an unlock. -/
theorem fixes_unlockIn {α : Type} {p : Code α} (hp : p.Fixes Sys.clocked) :
    (mutexInUnlock >>= fun _ => p).Fixes Sys.clocked := .bind (fixes_writeLink fun _ => rfl) fun _ => hp

theorem fixes_bufferInCacheDataMove : bufferInCacheDataMove.Fixes Sys.clocked := by
  have hswap : bufferInCacheSwap.Fixes Sys.clocked :=
    .bind (Prog.fixes_read _) fun _ => .bind (Prog.fixes_write fun _ => rfl) fun _ =>
      .bind (fixes_writeLink fun _ => rfl) fun _ => .bind (fixes_writeLink fun _ => rfl) fun _ =>
        Prog.fixes_write fun _ => rfl
  refine .bind fixes_mutexInTrylock fun _ => .ite (Prog.fixes_pure _) (.bind (Prog.fixes_read _) fun _ =>
    .ite ?_ (.bind (Prog.fixes_read _) fun _ => .ite (fixes_unlockIn (Prog.fixes_pure _)) ?_))
  · exact .bind (fixes_writeLink fun _ => rfl) fun _ => fixes_unlockIn (Prog.fixes_pure _)
  · exact .bind hswap fun _ => .bind (fixes_writeLink fun _ => rfl) fun _ =>
      .bind (fixes_writeLink fun _ => rfl) fun _ => fixes_unlockIn (Prog.fixes_pure _)

/-- `_line_in_busy_process` leaves the connection machine alone at every step. -/
theorem fixes_lineInBusyProcess : lineInBusyProcess.Fixes Sys.clocked :=
  .bind (Prog.fixes_read _) fun _ => .ite (Prog.fixes_pure _)
    (.bind fixes_bufferInCacheDataMove fun _ => .ite (Prog.fixes_write fun _ => rfl) (Prog.fixes_pure _))

theorem fixes_returnRead (r : DataRead) : (returnRead r).Fixes Sys.clocked :=
  .bind (Prog.fixes_write fun _ => rfl) fun _ => Prog.fixes_pure _

theorem fixes_bufferGetAndDiscard (i : BufId) (len : ℕ) : (bufferGetAndDiscard i len).Fixes Sys.clocked := by
  refine .bind (Prog.fixes_read _) fun _ => .bind (Prog.fixes_atomic fun s => ?_) fun _ =>
    .ite (Prog.fixes_pure _) (.bind (Prog.fixes_write fun _ => rfl) fun _ => Prog.fixes_pure _)
  dsimp only
  split_ifs <;> rfl

/-- So does `spils_data_read`. -/
theorem fixes_spilsDataRead : spilsDataRead.Fixes Sys.clocked := by
  have hghost : ∀ f, (writeGhost f).Fixes Sys.clocked := fun _ => Prog.fixes_write fun _ => rfl
  refine .bind (Prog.fixes_read _) fun _ => .ite (fixes_returnRead _) (.bind fixes_mutexInTrylock fun _ =>
    .ite (fixes_returnRead _) (.bind (Prog.fixes_read _) fun _ => .bind (hghost _) fun _ =>
      .bind (Prog.fixes_read _) fun _ => .bind (fixes_bufferGetAndDiscard _ _) fun _ => .ite ?_ ?_))
  · exact .bind (hghost _) fun _ => fixes_unlockIn (fixes_returnRead _)
  · exact .bind (Prog.fixes_write fun _ => rfl) fun _ => .bind (hghost _) fun _ =>
      .bind (fixes_writeLink fun _ => rfl) fun _ => fixes_unlockIn (fixes_returnRead _)

theorem fixes_messComposeData (i : BufId) (pData : Option Bytes) (dataLen : ℕ) :
    (messComposeData i pData dataLen).Fixes Sys.clocked := by
  have hbuf : ∀ f, (writeBuf i f).Fixes Sys.clocked := fun _ => Prog.fixes_write fun _ => rfl
  refine .bind (Prog.fixes_read _) fun _ => .ite (.bind (fixes_assertDygma _ _) fun _ => Prog.fixes_pure _)
    (.bind (hbuf _) fun _ => .bind (hbuf _) fun _ => .bind (hbuf _) fun _ => ?_)
  cases pData with
  | none => exact Prog.fixes_pure _
  | some data =>
    exact .ite (Prog.fixes_pure _) (.bind (Prog.fixes_atomic fun _ => rfl) fun _ =>
      .bind (fixes_assertDygma _ _) fun _ => .ite (Prog.fixes_pure _) (Prog.fixes_pure _))

/-- And so does `spils_data_send`. -/
theorem fixes_spilsDataSend (pData : Option Bytes) (dataSize : ℕ) :
    (spilsDataSend pData dataSize).Fixes Sys.clocked := by
  have hghost : ∀ f, (writeGhost f).Fixes Sys.clocked := fun _ => Prog.fixes_write fun _ => rfl
  have hret : ∀ r, (returnSend pData dataSize r).Fixes Sys.clocked := fun _ =>
    .bind (Prog.fixes_write fun _ => rfl) fun _ => Prog.fixes_pure _
  have hunlock : ∀ r, (mutexOutUnlock >>= fun _ => returnSend pData dataSize r).Fixes Sys.clocked :=
    fun r => .bind (fixes_writeLink fun _ => rfl) fun _ => hret r
  refine .bind (Prog.fixes_read _) fun _ => .ite (hret _) (.bind fixes_mutexOutTrylock fun _ =>
    .ite (hret _) (.bind (Prog.fixes_read _) fun _ => .bind (hghost _) fun _ =>
      .bind (fixes_messComposeData _ _ _) fun _ => .bind (hghost _) fun _ => .ite (hunlock _) ?_))
  exact .bind (fixes_writeLink fun _ => rfl) fun _ => hunlock _

/-- What does not touch the connection machine does not touch what is said of it. -/
theorem afterPoll_step {s s' : Sys} {h : Detections} (hfix : s'.clocked = s.clocked) (hs : AfterPoll (s, h)) :
    AfterPoll (s', detections.step s s' h) := by
  simp only [Sys.clocked, Spils.con, Prod.mk.injEq] at hfix
  obtain ⟨⟨h1, h2, h3, h4⟩, h5⟩ := hfix
  have hcon : s'.con = { s.con with downs := s'.downs } := by
    unfold Sys.con
    rw [h1, h2, h3, h4, h5]
  rw [step_of_detected h fun hd => by rw [hcon]; exact hd]
  show Covered s'.con h ∧ Reported s'.con h
  rw [hcon]
  exact ⟨⟨hs.1.before, hs.1.covers⟩, hs.2⟩

end Rest

/-! ## Every interleaving -/

section Runs

variable {size : ℕ}

/-- An interrupt at a state of the link is heard. -/
theorem hears_of_rely {x x' : Sys × Detections} (hb : Base size x.1) (h : heardMachine.Rely x x') :
    Hears x x' := by
  obtain ⟨i, -, hst, hh⟩ := Machine.rely_recorded h
  cases i with
  | edge e =>
    have hcon : x'.1.con = x.1.con.hear (decide (x.1.received e ≠ [])) := by
      rw [hst]
      exact con_edge hb e
    refine Or.inl ⟨_, hcon, ?_⟩
    by_cases hvalid : x.1.received e ≠ []
    · have hcall : detections.irq (.edge e) x.1 x.2 = { x.2 with heard := x.1.now :: x.2.heard } :=
        if_pos hvalid
      rw [hcall] at hh
      exact hh.imp_right fun hnote => ⟨decide_eq_true hvalid, hnote⟩
    · have hcall : detections.irq (.edge e) x.1 x.2 = x.2 := if_neg hvalid
      rw [hcall, or_self] at hh
      exact Or.inl hh
  | tick n =>
    have hcon : x'.1.con = x.1.con.tick n := by
      rw [hst]
      rfl
    exact Or.inr ⟨n, hcon, hh.elim id id⟩

theorem stable_heard_base (size : ℕ) : Stable heardMachine.Rely fun x => Base size x.1 := by
  intro x x' h hb
  obtain ⟨i, -, hst, -⟩ := Machine.rely_recorded h
  rw [hst]
  exact hb.run_irq i

/-- Every handler is covered, at every point of every interleaving, and has been reported after every
poll. -/
theorem outline_heard (size : ℕ) : heardMachine.Outline (fun x => AfterPoll x ∧ Base size x.1)
    fun _ x => DuringPoll x ∧ Base size x.1 := by
  have hstable : Stable Hears AfterPoll := (heardStable_covered.and heardStable_reported).stable
  refine Machine.Outline.within (stable_heard_base size) (fun k => ((frame_base_only size).linkProg k).recorded)
    (fun x x' => hears_of_rely) hstable fun k x hx _ => ?_
  -- no step of the code behind the connection machine changes what is said
  have hrest : ∀ {α : Type} {p : Code α} {y : Sys × Detections}, p.Fixes Sys.clocked → AfterPoll y →
      wp Hears DuringPoll (heardCode p) (fun _ => AfterPoll) y := fun hp hy =>
    wp_always_mono (wp_recorded_fixes hp hstable (fun _ _ h => h)
      (fun _ _ _ hfix h => afterPoll_step hfix h) hy) fun _ h => h.1
  have hcall : ∀ {p : Code Unit}, k ≠ .poll → p.Fixes Sys.clocked →
      wp Hears DuringPoll (p.recorded detections.step (detections.call k)) (fun _ => AfterPoll) x := by
    intro p hk hp
    have hfirst : detections.call k = fun _ h => h := by
      cases k with
      | poll => exact absurd rfl hk
      | dataRead => rfl
      | dataSend pData dataSize => rfl
    rw [hfirst]
    exact hrest hp hx
  cases k with
  | poll =>
    show wp Hears DuringPoll (spilsPoll.recorded detections.step (detections.call .poll)) _ x
    unfold spilsPoll
    rw [Prog.recorded_bind fun a ha => by cases ha]
    exact wp_bind (wp_mono (wp_conMachine hx.1) fun _ y hy => hrest fixes_lineInBusyProcess hy)
  | dataRead =>
    exact hcall (fun h => by cases h) (.bind fixes_spilsDataRead fun _ => Prog.fixes_pure _)
  | dataSend pData dataSize =>
    exact hcall (fun h => by cases h) (.bind (fixes_spilsDataSend pData dataSize) fun _ => Prog.fixes_pure _)

/-- At the start nothing has been heard. -/
def Detections.none : Detections := ⟨[], [], false⟩

/-- **No transfer is lost.**  In every interleaving in which no step of the main loop clears
`connection_detected` too early, every poll that begins after a handler and ends before the time of that
handler is over, and before the clock wraps, ends with `con_state` CONNECTED. -/
theorem poll_reports_connected {conf : SpilsConf} (hc : conf.Ok) (hw : Board) (slave : SpiSlave)
    {x : Sys × Detections}
    (hreach : heardMachine.Reach (start conf hw slave, .none) ⟨x, some (.poll, .ret ()), Option.none⟩)
    (hkept : x.2.lost = false) :
    ∀ t ∈ x.2.before, x.1.now < t + x.1.link.disconnectTimeoutMs → x.1.now < 4294967296 →
      x.1.link.conState = .connected := by
  have hinit : AfterPoll (start conf hw slave, Detections.none) ∧
      Base (conf.messageSizeMax + 2) (start conf hw slave) := by
    refine ⟨⟨⟨fun _ h => h, fun _ _ h => ?_⟩, fun _ _ h => ?_⟩, base_start hc hw slave⟩ <;> cases h
  have hgood := (outline_heard _).sound hinit hreach
  have hafter : AfterPoll x := ((hgood x .refl).2).1
  exact fun t ht hnow hwrap => hafter.2 hkept t ht ⟨hnow, hwrap⟩

end Runs

/-! ## A handler that is lost -/

/-- A schedule, from the start with four-byte messages and a timeout of a second. -/
def heardPlay (acts : List (Act LinkCall Irq)) :
    (Sys × Detections) × Option (LinkCall × Prog (Sys × Detections) Unit) :=
  heardMachine.play acts ((sampleClock 0, .none), none)

theorem reach_heardPlay (acts : List (Act LinkCall Irq)) :
    heardMachine.Reach (sampleClock 0, .none) ⟨(heardPlay acts).1, (heardPlay acts).2, none⟩ :=
  .play acts .init (Machine.allowed_of_free (fun _ _ => trivial) (fun _ _ => trivial) acts _)

/-- The end of the first poll after a handler. -/
def firstPoll : Sys × Detections := (heardPlay [.irq (.edge (.of [2, 0])), .call .poll, .go 8]).1

theorem poll_reports_connected_first : firstPoll.2.before = [0] ∧
    ∀ t ∈ firstPoll.2.before, firstPoll.1.now < t + firstPoll.1.link.disconnectTimeoutMs →
      firstPoll.1.now < 4294967296 → firstPoll.1.link.conState = .connected :=
  ⟨by decide +kernel, poll_reports_connected (show SpilsConf.Ok ⟨4, 1000⟩ by decide) ⟨8, true, true, 0⟩
    ⟨false, false, false, .new 4, .new 4⟩ (reach_heardPlay [.irq (.edge (.of [2, 0])), .call .poll, .go 8])
    (by decide +kernel)⟩

/-- The timer expires, and the handler runs between its test and the step that clears the flag.  The next
poll starts at once, and ends with the link disconnected. -/
def lateHandler : List (Act LinkCall Irq) :=
  [.irq (.edge (.of [2, 0])), .call .poll, .go 9, .call .poll, .go 10, .irq (.tick 1000), .call .poll, .go 4,
    .irq (.edge (.of [2, 0])), .go 5, .call .poll, .go 3]

theorem late_handler_lost :
    ∃ x, heardMachine.Reach (sampleClock 0, .none) ⟨x, some (.poll, .ret ()), none⟩ ∧
      ∃ t ∈ x.2.before, x.1.now < t + x.1.link.disconnectTimeoutMs ∧ x.1.now < 4294967296 ∧
        x.1.link.conState ≠ .connected :=
  ⟨(heardPlay lateHandler).1, reach_heardPlay lateHandler, 1000, by decide +kernel⟩

end NeuronWired
