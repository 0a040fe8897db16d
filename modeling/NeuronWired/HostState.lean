import NeuronWired.HidFraming
import NeuronWired.Interrupt.Machine
import NeuronWired.KeyboardOrder

/-!
# HostState — the keyboard that the host sees (`Keyboard.cpp`, `hidDefy.cpp`)

`sendReport` stores a report as the last one before the transport decides what becomes of it.  The keyboard
and the queue run while the host suspends, resumes, mounts and unmounts the device at any moment.
-/

namespace NeuronWired

open Interrupt HidEvent

/-! ## Calls -/

/-- `sendReportUnchecked`. -/
def sendReportUnchecked : Prog HidState Unit := do
  let kb ← Prog.read fun s => s.keyboard
  sendReport_ ⟨hidReportidNkroKeyboard, kb.lastReport.allkeys⟩

/-- The reports of one `sendReport`, each stored as the last report and then sent. -/
def sendReports : List KeyboardReport → Prog HidState Unit
  | [] => pure ()
  | r :: rs => do
    Prog.write fun s => { s with keyboard.lastReport := r }
    sendReportUnchecked
    sendReports rs

/-- `Keyboard_::sendReport`. -/
def keyboardSendReport : Prog HidState Unit := do
  let kb ← Prog.read fun s => s.keyboard
  sendReports kb.sendReport.2
  Prog.write fun s => { s with keyboard := kb.sendReport.1 }

/-- A call of the main loop. -/
inductive HostCall where
  | press (k : UInt8)
  | release (k : UInt8)
  | releaseAll
  | sendReport
  | sendLastReport
  deriving DecidableEq, Repr

/-- The program of a call. -/
def HostCall.prog : HostCall → Prog HidState Unit
  | .press k => Prog.write fun s => { s with keyboard := (s.keyboard.press k).2 }
  | .release k => Prog.write fun s => { s with keyboard := (s.keyboard.release k).2 }
  | .releaseAll => Prog.write fun s => { s with keyboard := s.keyboard.releaseAll }
  | .sendReport => keyboardSendReport
  | .sendLastReport => do
    let _ ← NeuronWired.sendLastReport
    pure ()

/-- Any call, and any change of the surroundings in between and inside. -/
def hostMachine : Machine HidState HostCall Surroundings where
  call := HostCall.prog
  irq w := Prog.write fun s => { s with around := w }
  callOk _ _ := True
  irqOk _ _ := True

/-- The data of the last report; of a cleared one if there is none. -/
def latest (rs : List HidReport) : Bytes :=
  match rs.getLast? with
  | some r => r.data
  | none => KeyboardReport.cleared.allkeys

/-- What the host takes for the state of the keyboard. -/
def hostKeys (log : List HidEvent) : Bytes :=
  latest ((accepted log).filter fun r => r.id = hidReportidNkroKeyboard)

/-- The report that was sent last was neither left out by `SendReport_` nor removed without success by
`SendLastReport`. -/
def ReachedHost (log : List HidEvent) : Prop :=
  (outcomes log).getLast? ≠ some false ∧ (removals log).getLast? ≠ some false

instance (log : List HidEvent) : Decidable (ReachedHost log) := inferInstanceAs (Decidable (_ ∧ _))

/-! ## The invariant -/

/-- The report of the keyboard, as it is sent. -/
def KeyboardReport.sent (r : KeyboardReport) : HidReport := ⟨hidReportidNkroKeyboard, r.allkeys⟩

/-- The reports `gone` have left the queue and `queue` are in it; they are the keyboard's, and the last one
is `last` unless it was left out. -/
structure Tracks (s : HidState) (last : KeyboardReport) (gone queue : List HidReport) : Prop where
  framed : Framed s gone queue
  keyboard : ∀ r ∈ gone ++ queue, r.id = hidReportidNkroKeyboard
  current : (outcomes s.log).getLast? ≠ some false → latest (gone ++ queue) = last.allkeys

@[simp] theorem latest_snoc (rs : List HidReport) (r : HidReport) : latest (rs ++ [r]) = r.data := by
  unfold latest
  rw [List.getLast?_concat]

theorem sized_sent (r : KeyboardReport) : r.sent.Sized := by
  unfold HidReport.Sized KeyboardReport.sent
  rw [length_allkeys]
  omega

section Tracks

variable {s : HidState} {last : KeyboardReport} {gone queue : List HidReport}

theorem Tracks.around (h : Tracks s last gone queue) (w : Surroundings) :
    Tracks { s with around := w } last gone queue :=
  ⟨h.framed.around w, h.keyboard, h.current⟩

theorem Tracks.withKeyboard (h : Tracks s last gone queue) (kb : Keyboard) :
    Tracks { s with keyboard := kb } last gone queue :=
  ⟨h.framed.keyboard kb, h.keyboard, h.current⟩

/-- A report that is left out. -/
theorem Tracks.dropped (h : Tracks s last gone queue) (r : KeyboardReport) :
    Tracks (s.emit (.dropped r.sent)) r gone queue where
  framed := h.framed.dropped _
  keyboard := h.keyboard
  current := by
    show (outcomes (s.log ++ [_])).getLast? ≠ _ → _
    rw [outcomes_snoc]
    exact fun hne => absurd List.getLast?_concat hne

/-- A report that is queued. -/
theorem Tracks.enqueue (h : Tracks s last gone queue) (r : KeyboardReport)
    (hroom : s.txFifo.count + (4 + r.sent.data.length) ≤ hidDepth) :
    Tracks (s.enqueue r.sent) r gone (queue ++ [r.sent]) where
  framed := h.framed.enqueue (sized_sent r) hroom
  keyboard := by
    rw [← List.append_assoc]
    intro r' hr'
    rcases List.mem_append.mp hr' with hr' | hr'
    · exact h.keyboard r' hr'
    · rw [List.mem_singleton.mp hr']
      rfl
  current := by
    intro _
    rw [← List.append_assoc, latest_snoc]
    rfl

/-- What the host has when the queue is empty. -/
theorem Tracks.hostKeys (h : Tracks s last gone queue) (hempty : s.txFifo.bytes = [])
    (hreached : ReachedHost s.log) : NeuronWired.hostKeys s.log = last.allkeys := by
  have hqueue : queue = [] := h.framed.stored.eq_nil_iff.mp hempty
  subst hqueue
  have hall : (accepted s.log).filter (fun r => r.id = hidReportidNkroKeyboard) = accepted s.log := by
    refine List.filter_eq_self.mpr fun r hr => ?_
    exact decide_eq_true (h.keyboard r (List.mem_append_left _ (h.framed.accepted.subset hr)))
  have hlast : latest (accepted s.log) = latest gone := by
    unfold latest
    rw [h.framed.settled hreached.2]
  unfold NeuronWired.hostKeys
  rw [hall, hlast, ← h.current hreached.1, List.append_nil]

end Tracks

/-- Bytes of the queue were overwritten, or the queue is known. -/
def Known (last : KeyboardReport) (s : HidState) : Prop :=
  .overflowed ∈ s.log ∨ ∃ gone queue, Tracks s last gone queue

theorem stable_known (last : KeyboardReport) (kb : Keyboard) :
    Stable Changes fun s => Known last s ∧ s.keyboard = kb := by
  refine stable_changes ?_
  rintro s w ⟨hover | ⟨gone, queue, h⟩, hkb⟩
  · exact ⟨.inl hover, hkb⟩
  · exact ⟨.inr ⟨gone, queue, h.around w⟩, hkb⟩

theorem stable_current : Stable Changes fun s => Known s.keyboard.lastReport s := by
  refine stable_changes fun s w hs => ?_
  exact (stable_known s.keyboard.lastReport s.keyboard s _ ⟨w, rfl⟩ ⟨hs, rfl⟩).1

theorem Known.dropped {last : KeyboardReport} {s : HidState} (h : Known last s) (r : KeyboardReport) :
    Known r (s.emit (.dropped r.sent)) := by
  rcases h with hover | ⟨gone, queue, h⟩
  · exact .inl (List.mem_append_left _ hover)
  · exact .inr ⟨gone, queue, h.dropped r⟩

theorem Known.enqueue {last : KeyboardReport} {s : HidState} (h : Known last s) (r : KeyboardReport) :
    Known r (s.enqueue r.sent) := by
  have hle := (sized_sent r).2
  rcases h with hover | ⟨gone, queue, h⟩
  · exact .inl (mem_log_enqueue hover hle)
  · by_cases hroom : s.txFifo.count + (4 + r.sent.data.length) ≤ hidDepth
    · exact .inr ⟨gone, queue ++ [r.sent], h.enqueue r hroom⟩
    · exact .inl (overflowed_enqueue hle hroom)

theorem Known.withKeyboard {last : KeyboardReport} {s : HidState} (h : Known last s) (kb : Keyboard) :
    Known last { s with keyboard := kb } := by
  rcases h with hover | ⟨gone, queue, h⟩
  · exact .inl hover
  · exact .inr ⟨gone, queue, h.withKeyboard kb⟩

/-! ## Every call -/

theorem always_true {P : HidState → Prop} (s : HidState) (_ : P s) : True := trivial

/-- `SendReport_` leaves a report out or queues it. -/
theorem wp_sendReport_ {P Q : HidState → Prop} {r : HidReport} (hid : r.id ≠ hidReportidMouse)
    (hP : Stable Changes P) (hQ : Stable Changes Q) (hdrop : ∀ s, P s → Q (s.emit (.dropped r)))
    (henq : ∀ s, P s → Q (s.enqueue r)) {s : HidState} (hs : P s) :
    wp Changes (fun _ => True) (sendReport_ r) (fun _ => Q) s := by
  have hleft : ∀ t, P t →
      wp Changes (fun _ => True) (Prog.write fun s => s.emit (.dropped r)) (fun _ => Q) t :=
    fun t ht => wp_write_last hP always_true ht hQ always_true hdrop
  unfold sendReport_
  refine wp_read hP always_true hs fun t ht => ?_
  cases t.around.suspended with
  | true => exact hleft t ht
  | false =>
    refine wp_read hP always_true ht fun t ht => ?_
    cases t.around.mounted with
    | true =>
      rw [if_pos rfl, if_neg hid]
      exact wp_write_last hP always_true ht hQ always_true henq
    | false => exact hleft t ht

theorem wp_sendReportUnchecked {s : HidState} {kb : Keyboard} {last : KeyboardReport}
    (h : Known last s ∧ s.keyboard = kb) :
    wp Changes (fun _ => True) sendReportUnchecked
      (fun _ t => Known kb.lastReport t ∧ t.keyboard = kb) s := by
  refine wp_read_of kb (stable_known last kb) always_true h (fun _ ht => ht.2) fun t ht => ?_
  have hid : hidReportidNkroKeyboard ≠ hidReportidMouse := by decide
  refine wp_sendReport_ hid (stable_known last kb) (stable_known kb.lastReport kb) ?_ ?_ ht
  · rintro u ⟨hu, hkb⟩
    exact ⟨hu.dropped kb.lastReport, hkb⟩
  · rintro u ⟨hu, hkb⟩
    exact ⟨hu.enqueue kb.lastReport, (keyboard_enqueue u _).trans hkb⟩

/-- After any reports, the last one of them is the last report. -/
theorem wp_sendReports (rs : List KeyboardReport) {s : HidState} {kb : Keyboard}
    (h : Known kb.lastReport s ∧ s.keyboard = kb) :
    wp Changes (fun _ => True) (sendReports rs)
      (fun _ t => Known ((kb.lastReport :: rs).getLast (List.cons_ne_nil _ _)) t ∧
        t.keyboard = { kb with lastReport := (kb.lastReport :: rs).getLast (List.cons_ne_nil _ _) }) s := by
  induction rs generalizing s kb with
  | nil => exact wp_pure (stable_known _ _) always_true h
  | cons r rs ih =>
    refine wp_write (stable_known _ kb) always_true h fun t ht => ?_
    obtain ⟨hknown, rfl⟩ := ht
    exact wp_bind (wp_mono (wp_sendReportUnchecked ⟨hknown.withKeyboard _, rfl⟩) fun _ u hu => ih hu)

theorem wp_keyboardSendReport {s : HidState} (h : Known s.keyboard.lastReport s) :
    wp Changes (fun _ => True) keyboardSendReport (fun _ t => Known t.keyboard.lastReport t) s := by
  generalize hkb : s.keyboard = kb at h
  obtain ⟨hpath, hlast, -⟩ := sendReport_order kb
  refine wp_read_of kb (stable_known _ kb) always_true ⟨h, hkb⟩ (fun _ ht => ht.2) fun t ht => ?_
  refine wp_bind (wp_mono (wp_sendReports kb.sendReport.2 ht) fun _ t ht => ?_)
  refine wp_write_last (stable_known _ _) always_true ht stable_current always_true fun u hu => ?_
  have hknown := hu.1.withKeyboard kb.sendReport.1
  rw [hpath.last, ← hlast] at hknown
  exact hknown

/-- Every step only adds to the log. -/
theorem keeps_sendLastReport (e : HidEvent) : Keeps (fun s : HidState => e ∈ s.log) NeuronWired.sendLastReport := by
  have hwrite : ∀ next success, Keeps (fun s : HidState => e ∈ s.log)
      (Prog.write fun s : HidState => s.removeReport next success) :=
    fun _ _ => keeps_write fun _ hs => List.mem_append_left _ hs
  unfold NeuronWired.sendLastReport
  refine Keeps.bind (keeps_read _) fun count => Keeps.ite ?_ (keeps_pure _)
  refine Keeps.bind (keeps_atomic fun _ hs => List.mem_append_left _ hs) fun next => ?_
  refine Keeps.bind (keeps_atomic fun _ hs => List.mem_append_left _ hs) fun success => ?_
  cases success with
  | true =>
    refine Keeps.bind (keeps_pure true) fun done => ?_
    exact Keeps.ite (Keeps.bind (hwrite _ _) fun _ => keeps_pure _) (keeps_pure _)
  | false =>
    refine Keeps.bind (keeps_read _) fun done => ?_
    exact Keeps.ite (Keeps.bind (hwrite _ _) fun _ => keeps_pure _) (keeps_pure _)

theorem wp_hostSendLastReport {s : HidState} (h : Known s.keyboard.lastReport s) :
    wp Changes (fun _ => True) HostCall.sendLastReport.prog
      (fun _ t => Known t.keyboard.lastReport t) s := by
  have hdone : ∀ t, Known t.keyboard.lastReport t →
      wp Changes (fun _ => True) (pure ()) (fun _ t => Known t.keyboard.lastReport t) t := by
    exact fun t ht => wp_pure stable_current always_true ht
  refine wp_bind ?_
  rcases h with hover | ⟨gone, queue, h⟩
  · have hstable : Stable Changes fun s => HidEvent.overflowed ∈ s.log :=
      stable_changes fun _ _ ht => ht
    refine wp_always_mono (wp_mono (wp_frame hstable (keeps_sendLastReport _) hover) ?_) always_true
    exact fun _ t ht => hdone t (.inl ht)
  · refine wp_mono (wp_sendLastReport h.framed) ?_
    rintro _ t ⟨hsender, gone', queue', hall, hframed⟩
    obtain ⟨hkb, houtcomes⟩ := Prod.mk.inj hsender
    refine hdone t (.inr ⟨gone', queue', hframed, ?_, ?_⟩)
    · rw [hall]
      exact h.keyboard
    · rw [houtcomes, hall, hkb]
      exact h.current

theorem lastReport_press (kb : Keyboard) (k : UInt8) : (kb.press k).2.lastReport = kb.lastReport := by
  unfold Keyboard.press
  split_ifs <;> rfl

theorem lastReport_release (kb : Keyboard) (k : UInt8) : (kb.release k).2.lastReport = kb.lastReport := by
  unfold Keyboard.release
  split_ifs <;> rfl

/-- The invariant between the calls. -/
theorem host_outline : hostMachine.Outline (fun s => Known s.keyboard.lastReport s) fun _ _ => True := by
  have hchanges : ∀ s s', hostMachine.Rely s s' → Changes s s' := by
    rintro s _ ⟨w, -, rfl⟩
    exact ⟨w, rfl⟩
  -- a call that changes the report, not the last report
  have hkeys : ∀ f : Keyboard → Keyboard, (∀ kb, (f kb).lastReport = kb.lastReport) →
      ∀ s, Known s.keyboard.lastReport s → wp Changes (fun _ => True)
        (Prog.write fun s => { s with keyboard := f s.keyboard }) (fun _ t => Known t.keyboard.lastReport t) s := by
    intro f hf s hs
    refine wp_write_last stable_current always_true hs stable_current always_true fun t ht => ?_
    show Known (f t.keyboard).lastReport _
    rw [hf]
    exact ht.withKeyboard _
  refine ⟨stable_current.anti hchanges, fun k s hs _ => wp_anti ?_ hchanges⟩
  cases k with
  | press k => exact hkeys _ (fun kb => lastReport_press kb k) s hs
  | release k => exact hkeys _ (fun kb => lastReport_release kb k) s hs
  | releaseAll => exact hkeys Keyboard.releaseAll (fun _ => rfl) s hs
  | sendReport => exact wp_keyboardSendReport hs
  | sendLastReport => exact wp_hostSendLastReport hs

/-! ## What the host sees -/

/-- **The host has the last report**: in every reachable state between calls in which no queued byte has
been overwritten and the queue is empty, the last keyboard report that the host accepted is the last report
of the keyboard, if the report that was sent last was neither left out nor removed without success. -/
theorem host_agrees (w : Surroundings) {s : HidState}
    (hreach : hostMachine.Reach (.start ⟨.cleared, .cleared⟩ w) ⟨s, none, none⟩)
    (hroom : .overflowed ∉ s.log) (hempty : s.txFifo.bytes = []) (hreached : ReachedHost s.log) :
    hostKeys s.log = s.keyboard.lastReport.allkeys := by
  have hstart : Tracks (.start ⟨.cleared, .cleared⟩ w) .cleared [] [] :=
    ⟨framed_start _ w, by simp, fun _ => rfl⟩
  rcases host_outline.idle (.inr ⟨[], [], hstart⟩) hreach with hover | ⟨gone, queue, h⟩
  · exact absurd hover hroom
  · exact h.hostKeys hempty hreached

/-- A key is pressed, and its report reaches the host. -/
def pressed : List (Act HostCall Surroundings) :=
  [.call (.press 4), .go 9, .call .sendReport, .go 9, .call .sendLastReport, .go 9]

/-- Where a schedule leads. -/
def played (acts : List (Act HostCall Surroundings)) : HidState × Option (HostCall × Prog HidState Unit) :=
  hostMachine.play acts (.start ⟨.cleared, .cleared⟩ listening, none)

theorem reach_played (acts : List (Act HostCall Surroundings)) :
    hostMachine.Reach (.start ⟨.cleared, .cleared⟩ listening) ⟨(played acts).1, (played acts).2, none⟩ :=
  Machine.Reach.play (c := (HidState.start ⟨.cleared, .cleared⟩ listening, none)) acts .init
    (Machine.allowed_of_free (fun _ _ => trivial) (fun _ _ => trivial) acts _)

theorem host_agrees_pressed :
    hostKeys (played pressed).1.log = 0 :: 0x10 :: List.replicate 27 0 ∧
    hostKeys (played pressed).1.log = (played pressed).1.keyboard.lastReport.allkeys :=
  ⟨by decide +kernel, host_agrees listening (reach_played pressed) (by decide +kernel) (by decide +kernel)
    (by decide +kernel)⟩

/-- The device is suspended when the key is released, and resumed afterwards. -/
def released : List (Act HostCall Surroundings) :=
  pressed ++ [.irq { listening with suspended := true }, .call (.release 4), .go 9, .call .sendReport,
    .go 9, .irq listening]

/-- The release is left out, and stored as sent all the same: the host keeps the key. -/
theorem host_drifts : ∃ s, hostMachine.Reach (.start ⟨.cleared, .cleared⟩ listening) ⟨s, none, none⟩ ∧
    .overflowed ∉ s.log ∧ s.txFifo.bytes = [] ∧ s.around.mounted = true ∧ s.around.suspended = false ∧
    s.keyboard.lastReport.allkeys = List.replicate 29 0 ∧
    hostKeys s.log = 0 :: 0x10 :: List.replicate 27 0 := by
  refine ⟨(played released).1, reach_played released, ?_⟩
  decide +kernel

end NeuronWired
