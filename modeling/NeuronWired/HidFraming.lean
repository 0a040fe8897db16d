import NeuronWired.HidQueue

/-!
# HidFraming — frames in the report queue (`hidDefy.cpp`)

As long as no write overruns the ring, the queue is a string of whole frames, and `SendLastReport` always
finds one at its start.
-/

namespace NeuronWired

open Interrupt HidEvent

/-! ## Frames -/

/-- The report fits `dataReport`. -/
def HidReport.Sized (r : HidReport) : Prop := 1 ≤ r.data.length ∧ r.data.length ≤ 255

instance (r : HidReport) : Decidable r.Sized := inferInstanceAs (Decidable (_ ∧ _))

/-- A report as it is queued. -/
def HidReport.frame (r : HidReport) (pad : UInt8) : Bytes := nextReport pad r.id r.data.length ++ r.data

/-- The bytes are the frames of the reports. -/
inductive Frames : Bytes → List HidReport → Prop where
  | nil : Frames [] []
  | cons {bs : Bytes} {rs : List HidReport} (pad : UInt8) (r : HidReport) (hr : r.Sized)
      (h : Frames bs rs) : Frames (r.frame pad ++ bs) (r :: rs)

@[simp] theorem length_nextReport (pad id : UInt8) (len : ℕ) : (nextReport pad id len).length = 4 := rfl

@[simp] theorem HidReport.length_frame (r : HidReport) (pad : UInt8) :
    (r.frame pad).length = 4 + r.data.length := by
  unfold HidReport.frame
  rw [List.length_append, length_nextReport]

namespace Frames

variable {bs : Bytes} {rs : List HidReport} {r : HidReport}

theorem snoc (h : Frames bs rs) (hr : r.Sized) (pad : UInt8) :
    Frames (bs ++ r.frame pad) (rs ++ [r]) := by
  induction h with
  | nil => simpa using Frames.cons pad r hr .nil
  | cons pad' r' hr' _ ih =>
    rw [List.append_assoc, List.cons_append]
    exact .cons pad' r' hr' ih

theorem uncons (h : Frames bs (r :: rs)) :
    ∃ pad bs', bs = r.frame pad ++ bs' ∧ r.Sized ∧ Frames bs' rs := by
  cases h with
  | cons pad _ hr h => exact ⟨pad, _, rfl, hr, h⟩

theorem eq_nil_iff (h : Frames bs rs) : bs = [] ↔ rs = [] := by
  cases h with
  | nil => simp
  | cons pad r _ _ =>
    have hne : r.frame pad ≠ [] := List.cons_ne_nil _ _
    simp [hne]

end Frames

/-! ## Taking a frame apart -/

section Header

variable {r : HidReport} {pad : UInt8} (rest : Bytes) (hr : r.Sized)

include hr

theorem reportLen_header : reportLen (nextReport pad r.id r.data.length ++ rest) = r.data.length := by
  have hle := hr.2
  show (UInt8.ofNat r.data.length).toNat + 256 * (UInt8.ofNat (r.data.length / 256)).toNat = _
  rw [UInt8.toNat_ofNat', UInt8.toNat_ofNat']
  omega

theorem frameSize_header : frameSize (nextReport pad r.id r.data.length ++ rest) = 4 + r.data.length := by
  have hle := hr.2
  unfold frameSize
  rw [reportLen_header rest hr]
  exact u16_of_lt (by omega)

theorem reportLen_frame : reportLen (r.frame pad ++ rest) = r.data.length := by
  unfold HidReport.frame
  rw [List.append_assoc, reportLen_header _ hr]

theorem frameSize_frame : frameSize (r.frame pad ++ rest) = 4 + r.data.length := by
  unfold HidReport.frame
  rw [List.append_assoc, frameSize_header _ hr]

/-- What `usb_hid.sendReport` is called with. -/
theorem offered_frame :
    (⟨reportId (r.frame pad ++ rest), ((r.frame pad ++ rest).drop 4).take
      (u8 (reportLen (r.frame pad ++ rest)))⟩ : HidReport) = r := by
  have hle := hr.2
  have hdata : (r.frame pad ++ rest).drop 4 = r.data ++ rest := rfl
  rw [reportLen_frame rest hr, u8_of_lt (by omega), hdata, List.take_left]
  rfl

end Header

section Peek

variable {s : HidState} {r : HidReport} {pad : UInt8} {bs : Bytes}

/-- With a frame at the start of the queue, `nextReportWithData` begins with this frame. -/
theorem peekReport_frame (h : s.txFifo.bytes = r.frame pad ++ bs) (hr : r.Sized) :
    ∃ rest, s.peekReport = (r.frame pad ++ rest, s.emit (.peeked (4 + r.data.length))) := by
  have hle := hr.2
  have hheader : s.txFifo.peek 4 = nextReport pad r.id r.data.length := by
    show s.txFifo.bytes.take 4 = _
    rw [h]
    rfl
  have hstack : s.around.stack.toList.length = 260 := Vector.length_toList
  have hfirst : memcpy s.around.stack.toList 0 (nextReport pad r.id r.data.length) =
      nextReport pad r.id r.data.length ++ s.around.stack.toList.drop 4 :=
    memcpy_zero (by rw [hstack, length_nextReport]; omega)
  have hcopied : s.txFifo.peek (4 + r.data.length) = r.frame pad := by
    show s.txFifo.bytes.take _ = _
    rw [h, ← HidReport.length_frame r pad, List.take_left]
  have hlen : (nextReport pad r.id r.data.length ++ s.around.stack.toList.drop 4).length = 260 := by
    rw [List.length_append, List.length_drop, hstack, length_nextReport]
  refine ⟨(nextReport pad r.id r.data.length ++ s.around.stack.toList.drop 4).drop
    (r.frame pad).length, ?_⟩
  unfold HidState.peekReport
  simp only [hheader, hfirst, frameSize_header _ hr, hcopied]
  refine Prod.ext (memcpy_zero ?_) (congrArg (s.emit <| .peeked ·) (HidReport.length_frame r pad))
  rw [hlen, HidReport.length_frame]
  omega

end Peek

/-! ## Queueing a report -/

section Enqueue

variable {s : HidState} {r : HidReport}

theorem enqueue_eq (hr : r.data.length ≤ 255) : s.enqueue r =
    ((s.writeN (nextReport s.around.pad r.id r.data.length)).writeN r.data).emit (.enqueued r) := by
  have hlen : u16 (r.data.length : ℤ) = r.data.length := u16_of_lt (by omega)
  unfold HidState.enqueue
  simp only [hlen, List.take_length]

theorem txFifo_writeN (s : HidState) (data : Bytes) : (s.writeN data).txFifo = s.txFifo.write data := rfl

/-- Room or not, the frame is the end of what is stored. -/
theorem bytes_enqueue_write (hr : r.data.length ≤ 255) :
    (s.enqueue r).txFifo.bytes = (s.txFifo.write (r.frame s.around.pad)).bytes := by
  rw [enqueue_eq hr]
  show ((s.writeN _).writeN _).txFifo.bytes = _
  rw [txFifo_writeN, txFifo_writeN, Queue.ByteRing.bytes_write_write]
  rfl

theorem bytes_enqueue (hr : r.data.length ≤ 255)
    (hroom : s.txFifo.count + (4 + r.data.length) ≤ hidDepth) :
    (s.enqueue r).txFifo.bytes = s.txFifo.bytes ++ r.frame s.around.pad := by
  rw [bytes_enqueue_write hr, Queue.ByteRing.bytes_write _ (by rwa [HidReport.length_frame])]

theorem log_writeN {data : Bytes} (h : s.txFifo.count + data.length ≤ hidDepth) :
    (s.writeN data).log = s.log := if_pos h

theorem overflowed_writeN {data : Bytes} (h : ¬ s.txFifo.count + data.length ≤ hidDepth) :
    .overflowed ∈ (s.writeN data).log := by
  have hlog : (s.writeN data).log = s.log ++ [.overflowed] := if_neg h
  rw [hlog]
  exact List.mem_append_right _ List.mem_cons_self

theorem mem_log_writeN {e : HidEvent} (h : e ∈ s.log) (data : Bytes) : e ∈ (s.writeN data).log := by
  by_cases hroom : s.txFifo.count + data.length ≤ hidDepth
  · rwa [log_writeN hroom]
  · have hlog : (s.writeN data).log = s.log ++ [.overflowed] := if_neg hroom
    rw [hlog]
    exact List.mem_append_left _ h

theorem log_enqueue (hr : r.data.length ≤ 255)
    (hroom : s.txFifo.count + (4 + r.data.length) ≤ hidDepth) :
    (s.enqueue r).log = s.log ++ [.enqueued r] := by
  have hheader : s.txFifo.count + (nextReport s.around.pad r.id r.data.length).length ≤ hidDepth := by
    rw [length_nextReport]
    omega
  have hcount := s.txFifo.count_write hheader
  rw [length_nextReport] at hcount
  rw [enqueue_eq hr]
  show ((s.writeN _).writeN _).log ++ _ = _
  rw [log_writeN, log_writeN hheader]
  rw [txFifo_writeN, hcount]
  omega

/-- Without room, the log tells of it. -/
theorem overflowed_enqueue (hr : r.data.length ≤ 255)
    (hroom : ¬ s.txFifo.count + (4 + r.data.length) ≤ hidDepth) : .overflowed ∈ (s.enqueue r).log := by
  rw [enqueue_eq hr]
  refine List.mem_append_left _ ?_
  by_cases hheader : s.txFifo.count + 4 ≤ hidDepth
  · refine overflowed_writeN ?_
    rw [txFifo_writeN, Queue.ByteRing.count_write _ (by rwa [length_nextReport]), length_nextReport]
    omega
  · exact mem_log_writeN (overflowed_writeN (by rwa [length_nextReport])) _

theorem mem_log_enqueue {e : HidEvent} (h : e ∈ s.log) (hr : r.data.length ≤ 255) :
    e ∈ (s.enqueue r).log := by
  rw [enqueue_eq hr]
  exact List.mem_append_left _ (mem_log_writeN (mem_log_writeN h _) _)

theorem keyboard_enqueue (s : HidState) (r : HidReport) : (s.enqueue r).keyboard = s.keyboard := rfl

end Enqueue

/-! ## The queue as a list -/

/-- The reports `gone` have left the queue, and `queue` are in it. -/
structure Framed (s : HidState) (gone queue : List HidReport) : Prop where
  stored : Frames s.txFifo.bytes queue
  sent : queued s.log = gone ++ queue
  offered : ∀ r ∈ offered s.log, r ∈ gone ++ queue
  accepted : (accepted s.log).Sublist gone
  peeks : ∀ n ∈ peeks s.log, n ≤ 260
  settled : (removals s.log).getLast? ≠ some false → (HidEvent.accepted s.log).getLast? = gone.getLast?

section Events

variable (log : List HidEvent) (e : HidEvent)

@[simp] theorem queued_snoc : queued (log ++ [e]) = queued log ++ queued [e] := List.filterMap_append

@[simp] theorem outcomes_snoc : outcomes (log ++ [e]) = outcomes log ++ outcomes [e] :=
  List.filterMap_append

@[simp] theorem offered_snoc : offered (log ++ [e]) = offered log ++ offered [e] :=
  List.filterMap_append

@[simp] theorem accepted_snoc : accepted (log ++ [e]) = accepted log ++ accepted [e] :=
  List.filterMap_append

@[simp] theorem peeks_snoc : peeks (log ++ [e]) = peeks log ++ peeks [e] := List.filterMap_append

@[simp] theorem removals_snoc : removals (log ++ [e]) = removals log ++ removals [e] :=
  List.filterMap_append

end Events

namespace Framed

variable {s : HidState} {gone queue : List HidReport} {r : HidReport}

theorem around (h : Framed s gone queue) (w : Surroundings) :
    Framed { s with around := w } gone queue :=
  ⟨h.stored, h.sent, h.offered, h.accepted, h.peeks, h.settled⟩

theorem keyboard (h : Framed s gone queue) (kb : Keyboard) :
    Framed { s with keyboard := kb } gone queue :=
  ⟨h.stored, h.sent, h.offered, h.accepted, h.peeks, h.settled⟩

/-- An event that says nothing about the queue. -/
theorem emit {e : HidEvent} (h : Framed s gone queue) (hq : queued [e] = [])
    (ho : ∀ r ∈ HidEvent.offered [e], r ∈ gone ++ queue) (ha : HidEvent.accepted [e] = [])
    (hp : ∀ n ∈ HidEvent.peeks [e], n ≤ 260) (hr : removals [e] = []) : Framed (s.emit e) gone queue := by
  obtain ⟨hstored, hsent, hoffered, haccepted, hpeeks, hsettled⟩ := h
  unfold HidState.emit
  refine ⟨hstored, ?_, ?_, ?_, ?_, ?_⟩
  · rw [queued_snoc, hq, List.append_nil, hsent]
  · rw [offered_snoc]
    exact fun r hmem => (List.mem_append.mp hmem).elim (hoffered r) (ho r)
  · rwa [accepted_snoc, ha, List.append_nil]
  · rw [peeks_snoc]
    exact fun n hmem => (List.mem_append.mp hmem).elim (hpeeks n) (hp n)
  · rwa [removals_snoc, hr, List.append_nil, accepted_snoc, ha, List.append_nil]

theorem dropped (h : Framed s gone queue) (r : HidReport) : Framed (s.emit (.dropped r)) gone queue :=
  h.emit rfl (by simp [HidEvent.offered]) rfl (by simp [HidEvent.peeks]) rfl

theorem peeked (h : Framed s gone queue) {n : ℕ} (hn : n ≤ 260) :
    Framed (s.emit (.peeked n)) gone queue :=
  h.emit rfl (by simp [HidEvent.offered]) rfl (by simpa [HidEvent.peeks] using hn) rfl

theorem refused (h : Framed s gone (r :: queue)) : Framed (s.emit (.handed r false)) gone (r :: queue) :=
  h.emit rfl (by simp [HidEvent.offered]) rfl (by simp [HidEvent.peeks]) rfl

/-- A report that finds room is queued behind the others. -/
theorem enqueue (h : Framed s gone queue) (hr : r.Sized)
    (hroom : s.txFifo.count + (4 + r.data.length) ≤ hidDepth) : Framed (s.enqueue r) gone (queue ++ [r]) := by
  have hlog := log_enqueue hr.2 hroom
  refine ⟨?_, ?_, ?_, ?_, ?_, ?_⟩
  · rw [bytes_enqueue hr.2 hroom]
    exact h.stored.snoc hr _
  · rw [hlog, queued_snoc, h.sent, List.append_assoc]
    rfl
  · rw [hlog, offered_snoc, ← List.append_assoc]
    intro r' hmem
    rcases List.mem_append.mp hmem with hmem | hmem
    · exact List.mem_append_left _ (h.offered r' hmem)
    · exact absurd hmem (by simp [HidEvent.offered])
  · rw [hlog]
    simpa [HidEvent.accepted] using h.accepted
  · rw [hlog]
    simpa [HidEvent.peeks] using h.peeks
  · rw [hlog]
    simpa [removals, HidEvent.accepted] using h.settled

/-- The oldest report leaves the queue. -/
theorem stored_removed (h : Framed s gone (r :: queue)) (pad : UInt8) (rest : Bytes) :
    Frames (s.txFifo.advance (frameSize (r.frame pad ++ rest))).bytes queue := by
  obtain ⟨pad', bs, hbytes, hr, hrest⟩ := h.stored.uncons
  rw [frameSize_frame rest hr, Queue.ByteRing.bytes_advance, hbytes, ← HidReport.length_frame r pad',
    List.drop_left]
  exact hrest

/-- It is given up. -/
theorem discarded (h : Framed s gone (r :: queue)) (pad : UInt8) (rest : Bytes) :
    Framed (s.removeReport (r.frame pad ++ rest) false) (gone ++ [r]) queue where
  stored := h.stored_removed pad rest
  sent := by
    show queued (s.log ++ [_]) = _
    rw [queued_snoc, h.sent]
    simp [queued]
  offered := by
    show ∀ r' ∈ HidEvent.offered (s.log ++ [_]), _
    rw [List.append_assoc]
    simpa [HidEvent.offered] using h.offered
  accepted := by
    show (HidEvent.accepted (s.log ++ [_])).Sublist _
    rw [accepted_snoc]
    exact h.accepted.append (List.nil_sublist _)
  peeks := by
    show ∀ n ∈ HidEvent.peeks (s.log ++ [_]), _
    simpa [HidEvent.peeks] using h.peeks
  settled := by
    show (removals (s.log ++ [_])).getLast? ≠ _ → _
    rw [removals_snoc]
    exact fun hne => absurd List.getLast?_concat hne

/-- It has been accepted. -/
theorem delivered (h : Framed s gone (r :: queue)) (w : Surroundings) (pad : UInt8) (rest : Bytes) :
    Framed (({ s.emit (.handed r true) with around := w }).removeReport (r.frame pad ++ rest) true)
      (gone ++ [r]) queue where
  stored := h.stored_removed pad rest
  sent := by
    show queued (s.log ++ [_] ++ [_]) = _
    rw [queued_snoc, queued_snoc, h.sent]
    simp [queued]
  offered := by
    show ∀ r' ∈ HidEvent.offered (s.log ++ [_] ++ [_]), _
    rw [List.append_assoc gone]
    intro r' hmem
    rw [offered_snoc, offered_snoc] at hmem
    simp only [List.mem_append] at hmem
    rcases hmem with (hmem | hmem) | hmem
    · exact h.offered r' hmem
    · obtain rfl : r' = r := by simpa [HidEvent.offered] using hmem
      simp
    · exact absurd hmem (by simp [HidEvent.offered])
  accepted := by
    show (HidEvent.accepted (s.log ++ [_] ++ [_])).Sublist _
    rw [accepted_snoc, accepted_snoc, List.append_assoc]
    exact h.accepted.append (List.Sublist.refl [r])
  peeks := by
    show ∀ n ∈ HidEvent.peeks (s.log ++ [_] ++ [_]), _
    simpa [HidEvent.peeks] using h.peeks
  settled := by
    show _ → (HidEvent.accepted (s.log ++ [_] ++ [_])).getLast? = _
    rw [accepted_snoc, accepted_snoc, List.append_assoc, List.getLast?_concat]
    exact fun _ => List.getLast?_concat

end Framed

/-! ## `SendLastReport` -/

/-- The surroundings change. -/
def Changes (s s' : HidState) : Prop := ∃ w, s' = { s with around := w }

theorem stable_changes {P : HidState → Prop} (h : ∀ s w, P s → P { s with around := w }) :
    Stable Changes P := by
  rintro s _ ⟨w, rfl⟩ hs
  exact h s w hs

/-- What the senders of reports have done. -/
def HidState.sender (s : HidState) : Keyboard × List Bool := (s.keyboard, outcomes s.log)

theorem sender_emit (s : HidState) {e : HidEvent} (he : outcomes [e] = []) : (s.emit e).sender = s.sender := by
  unfold HidState.sender HidState.emit
  rw [outcomes_snoc, he, List.append_nil]

/-- What one `SendLastReport` leaves: at most one report has gone. -/
def Served (c : Keyboard × List Bool) (all : List HidReport) (s : HidState) : Prop :=
  s.sender = c ∧ ∃ gone queue, gone ++ queue = all ∧ Framed s gone queue

theorem stable_served (c : Keyboard × List Bool) (all : List HidReport) : Stable Changes (Served c all) := by
  refine stable_changes ?_
  rintro s w ⟨hc, gone, queue, hall, h⟩
  exact ⟨hc, gone, queue, hall, h.around w⟩

/-- While the surroundings change at will, `SendLastReport` takes whole reports from the queue. -/
theorem wp_sendLastReport {s : HidState} {gone queue : List HidReport} (h : Framed s gone queue) :
    wp Changes (fun _ => True) sendLastReport (fun _ => Served s.sender (gone ++ queue)) s := by
  generalize hall : gone ++ queue = all
  generalize hc : s.sender = c
  have hsame : Stable Changes fun t => t.sender = c ∧ Framed t gone queue :=
    stable_changes fun t w ht => ⟨ht.1, ht.2.around w⟩
  have htrue : ∀ {P : HidState → Prop} (t : HidState), P t → True := fun _ _ => trivial
  have hserved : ∀ b : Bool, ∀ t, Served c all t →
      wp Changes (fun _ => True) (pure b) (fun _ => Served c all) t :=
    fun b t => wp_pure (stable_served c all) htrue
  unfold sendLastReport
  refine wp_read hsame htrue ⟨hc, h⟩ ?_
  rintro t ⟨ht, hf⟩
  by_cases hcount : t.txFifo.count = 0
  · rw [if_neg (not_not.mpr hcount)]
    exact hserved _ t ⟨ht, gone, queue, hall, hf⟩
  have hne : queue ≠ [] := fun hnil => hcount (List.length_eq_zero_iff.mpr (hf.stored.eq_nil_iff.mpr hnil))
  obtain ⟨r, queue, rfl⟩ := List.exists_cons_of_ne_nil hne
  have hgone : gone ++ [r] ++ queue = all := by
    rw [← hall, List.append_assoc]
    rfl
  rw [if_pos hcount]
  refine wp_atomic hsame htrue ⟨ht, hf⟩ ?_
  rintro t ⟨ht, hf⟩
  obtain ⟨pad, bs, hbytes, hr, -⟩ := hf.stored.uncons
  obtain ⟨rest, hpeek⟩ := peekReport_frame hbytes hr
  refine ⟨_, _, hpeek, ?_⟩
  have hle := hr.2
  refine wp_atomic hsame htrue ⟨(sender_emit t rfl).trans ht, hf.peeked (by omega)⟩ ?_
  rintro t ⟨ht, hf⟩
  refine ⟨_, _, rfl, ?_⟩
  rw [offered_frame rest hr]
  cases t.around.accepts with
  | true =>
    -- accepted, and still in the queue
    refine wp_write (P := fun u => ∃ t w, (t.sender = c ∧ Framed t gone (r :: queue)) ∧
      u = { t.emit (.handed r true) with around := w }) ?_ htrue ⟨t, t.around, ⟨ht, hf⟩, rfl⟩ ?_
    · refine stable_changes ?_
      rintro _ w' ⟨t, w, ht, rfl⟩
      exact ⟨t, w', ht, rfl⟩
    · rintro _ ⟨t, w, ⟨ht, hf⟩, rfl⟩
      refine hserved _ _ ⟨?_, gone ++ [r], queue, hgone, hf.delivered w pad rest⟩
      exact (sender_emit _ rfl).trans ((sender_emit t rfl).trans ht)
  | false =>
    refine wp_read hsame htrue ⟨(sender_emit t rfl).trans ht, hf.refused⟩ ?_
    rintro t ⟨ht, hf⟩
    cases t.around.suspended with
    | true =>
      refine wp_write hsame htrue ⟨ht, hf⟩ ?_
      rintro t ⟨ht, hf⟩
      refine hserved _ _ ⟨?_, gone ++ [r], queue, hgone, hf.discarded pad rest⟩
      exact (sender_emit _ rfl).trans ht
    | false => exact hserved _ t ⟨ht, gone, r :: queue, hall, hf⟩

/-! ## Runs -/

/-- A call. -/
inductive QueueCall where
  | sendReport (r : HidReport)
  | sendLastReport
  deriving DecidableEq, Repr

/-- The reports of the calls of `SendReport`, in their order. -/
def reports (turns : List (Surroundings × QueueCall)) : List HidReport :=
  turns.filterMap fun
    | (_, .sendReport r) => some r
    | _ => none

namespace HidState

/-- After `begin`. -/
def start (kb : Keyboard) (w : Surroundings) : HidState := ⟨kb, .empty, w, []⟩

/-- One call, and the surroundings that it finds. -/
def turn (s : HidState) : Surroundings × QueueCall → HidState
  | (w, .sendReport r) => ((sendReport_ r).run { s with around := w }).2
  | (w, .sendLastReport) => (sendLastReport.run { s with around := w }).2

end HidState

/-- `SendReport` is called for a report of another device than the mouse, while the host listens. -/
def Listens : Surroundings × QueueCall → Prop
  | (w, .sendReport r) => r.id ≠ hidReportidMouse ∧ r.Sized ∧ w.mounted = true ∧ w.suspended = false
  | (_, .sendLastReport) => True

/-- The queue has room for the report. -/
def FindsRoom (s : HidState) : Surroundings × QueueCall → Prop
  | (_, .sendReport r) => s.txFifo.count + (4 + r.data.length) ≤ hidDepth
  | (_, .sendLastReport) => True

instance : DecidablePred Listens
  | (_, .sendReport _) => inferInstanceAs (Decidable (_ ∧ _))
  | (_, .sendLastReport) => .isTrue trivial

instance (s : HidState) : DecidablePred (FindsRoom s)
  | (_, .sendReport _) => inferInstanceAs (Decidable (_ ≤ _))
  | (_, .sendLastReport) => .isTrue trivial

/-- While the host listens, a report is queued. -/
theorem run_sendReport_ {s : HidState} {r : HidReport} (hid : r.id ≠ hidReportidMouse)
    (hmounted : s.around.mounted = true) (hsuspended : s.around.suspended = false) :
    ((sendReport_ r).run s).2 = s.enqueue r := by
  unfold sendReport_
  simp [hid, hmounted, hsuspended]

theorem framed_turn {s : HidState} {gone queue : List HidReport} {t : Surroundings × QueueCall}
    (h : Framed s gone queue) (hlistens : Listens t) (hroom : FindsRoom s t) :
    ∃ gone' queue', gone' ++ queue' = gone ++ queue ++ reports [t] ∧ Framed (s.turn t) gone' queue' := by
  obtain ⟨w, call⟩ := t
  cases call with
  | sendReport r =>
    obtain ⟨hid, hr, hmounted, hsuspended⟩ := hlistens
    refine ⟨gone, queue ++ [r], (List.append_assoc _ _ _).symm, ?_⟩
    show Framed ((sendReport_ r).run { s with around := w }).2 _ _
    rw [run_sendReport_ hid hmounted hsuspended]
    exact (h.around w).enqueue hr hroom
  | sendLastReport =>
    obtain ⟨-, gone', queue', hall, hframed⟩ := wp_post (wp_sendLastReport (h.around w))
    exact ⟨gone', queue', hall.trans (List.append_nil _).symm, hframed⟩

theorem framed_run {turns : List (Surroundings × QueueCall)} {s : HidState} {gone queue : List HidReport}
    (h : Framed s gone queue) (hlistens : ∀ t ∈ turns, Listens t)
    (hroom : Run.Along HidState.turn FindsRoom s turns) :
    ∃ gone' queue', gone' ++ queue' = gone ++ queue ++ reports turns ∧
      Framed (Run.after HidState.turn s turns) gone' queue' := by
  induction turns generalizing s gone queue with
  | nil => exact ⟨gone, queue, (List.append_nil _).symm, h⟩
  | cons t turns ih =>
    obtain ⟨gone', queue', hall, hframed⟩ := framed_turn h (hlistens t List.mem_cons_self) hroom.1
    obtain ⟨gone'', queue'', hall', hframed'⟩ :=
      ih hframed (fun t' ht' => hlistens t' (List.mem_cons_of_mem _ ht')) hroom.2
    refine ⟨gone'', queue'', ?_, hframed'⟩
    have hcons : reports (t :: turns) = reports [t] ++ reports turns :=
      List.filterMap_append (l := [t])
    rw [hall', hall, hcons, List.append_assoc]

theorem framed_start (kb : Keyboard) (w : Surroundings) : Framed (.start kb w) [] [] :=
  ⟨.nil, rfl, by simp [HidState.start, offered], List.Sublist.refl _, by simp [HidState.start, peeks],
    fun _ => rfl⟩

/-- **The report queue**: as long as every report finds room, the host is only offered reports that were
queued, byte for byte; what it accepts comes in the order in which it was queued, and nothing twice; and
the peeks stay in `nextReportWithData`. -/
theorem reports_intact (kb : Keyboard) (w : Surroundings) (turns : List (Surroundings × QueueCall))
    (hlistens : ∀ t ∈ turns, Listens t) (hroom : Run.Along HidState.turn FindsRoom (.start kb w) turns) :
    let log := (Run.after HidState.turn (.start kb w) turns).log
    (∀ r ∈ offered log, r ∈ reports turns) ∧ (accepted log).Sublist (reports turns) ∧
      ∀ n ∈ peeks log, n ≤ 260 := by
  obtain ⟨gone, queue, hall, h⟩ := framed_run (framed_start kb w) hlistens hroom
  have hall' : gone ++ queue = reports turns := hall
  refine ⟨?_, ?_, h.peeks⟩
  · rw [← hall']
    exact h.offered
  · rw [← hall']
    exact h.accepted.trans (List.sublist_append_left _ _)

/-- A host that listens. -/
def listening : Surroundings := ⟨true, false, true, 0, Vector.replicate 260 0⟩

/-- Three reports of different lengths are queued; the endpoint refuses the first once, and the last is still in
the queue. -/
def sampleTurns : List (Surroundings × QueueCall) :=
  [(listening, .sendReport ⟨3, [1, 2]⟩), (listening, .sendReport ⟨4, [5]⟩),
    ({ listening with accepts := false }, .sendLastReport), (listening, .sendReport ⟨3, List.replicate 28 6⟩),
    (listening, .sendLastReport), (listening, .sendLastReport)]

theorem reports_intact_three :
    let log := (Run.after HidState.turn (.start ⟨.cleared, .cleared⟩ listening) sampleTurns).log
    accepted log = [⟨3, [1, 2]⟩, ⟨4, [5]⟩] ∧ offered log = [⟨3, [1, 2]⟩, ⟨3, [1, 2]⟩, ⟨4, [5]⟩] ∧
      (∀ r ∈ offered log, r ∈ reports sampleTurns) ∧ (accepted log).Sublist (reports sampleTurns) ∧
      ∀ n ∈ peeks log, n ≤ 260 := by
  have h := reports_intact ⟨.cleared, .cleared⟩ listening sampleTurns (by decide) (by decide +kernel)
  exact ⟨by decide +kernel, by decide +kernel, h⟩

section Burst

/-- A report of bytes that read as a length. -/
def longReport : HidReport := ⟨3, List.replicate 255 0x0F⟩

/-- Reports that come faster than the host takes them. -/
def burst : List (Surroundings × QueueCall) :=
  List.replicate 31 (listening, .sendReport longReport) ++ [(listening, .sendLastReport)]

theorem turn_longReport (s : HidState) :
    s.turn (listening, .sendReport longReport) = { s with around := listening }.enqueue longReport :=
  run_sendReport_ (by decide) rfl rfl

theorem length_longReport : longReport.data.length = 255 := List.length_replicate

/-- As many long reports as there is room for. -/
theorem bytes_longReports (n : ℕ) (hn : n ≤ 30) (s : HidState) (hs : s.txFifo.count = 259 * (30 - n)) :
    (Run.after HidState.turn s (List.replicate n (listening, .sendReport longReport))).txFifo.bytes =
      s.txFifo.bytes ++ (List.replicate n (longReport.frame 0)).flatten := by
  induction n generalizing s with
  | zero => simp
  | succ n ih =>
    have hroom : s.txFifo.count + (4 + longReport.data.length) ≤ 8000 := by
      rw [hs, length_longReport]
      omega
    have hbytes : (s.turn (listening, .sendReport longReport)).txFifo.bytes =
        s.txFifo.bytes ++ longReport.frame 0 := by
      rw [turn_longReport]
      exact bytes_enqueue (Nat.le_of_eq length_longReport) hroom
    have hcount : (s.turn (listening, .sendReport longReport)).txFifo.count = 259 * (30 - n) := by
      unfold Queue.ByteRing.count at hs ⊢
      rw [hbytes, List.length_append, hs, HidReport.length_frame, length_longReport]
      omega
    rw [List.replicate_succ, Run.after_cons, ih (by omega) _ hcount, hbytes, List.replicate_succ,
      List.flatten_cons, List.append_assoc]

/-- What `SendLastReport` offers to the host, whatever is in the queue. -/
theorem log_sendLastReport {s s' : HidState} {next : Bytes} (hcount : s.txFifo.count ≠ 0)
    (hpeek : s.peekReport = (next, s')) : ∃ tail, (sendLastReport.run s).2.log = s'.log ++
      .handed ⟨reportId next, (next.drop 4).take (u8 (reportLen next))⟩ s'.around.accepts :: tail := by
  unfold sendLastReport
  rw [Prog.run_bind, Prog.run_read, if_pos hcount, Prog.run_bind, Prog.run_atomic, hpeek]
  cases hacc : s'.around.accepts with
  | true => exact ⟨_, by simp [usbSendReport, hacc, HidState.emit, HidState.removeReport]; rfl⟩
  | false =>
    cases hsus : s'.around.suspended with
    | true => exact ⟨_, by simp [usbSendReport, hacc, hsus, HidState.emit, HidState.removeReport]; rfl⟩
    | false => exact ⟨[], by simp [usbSendReport, hacc, hsus, HidState.emit]⟩

/-- The bytes of a long report, read as a header. -/
theorem reportLen_fill (rest : Bytes) : reportLen (List.replicate 4 0x0F ++ rest) = 3855 :=
  show (0x0F : UInt8).toNat + 256 * (0x0F : UInt8).toNat = 3855 by decide

/-- The bytes of a report are taken for a length. -/
theorem peekReport_torn {s : HidState} {rest : Bytes} (h : s.txFifo.bytes = List.replicate 19 0x0F ++ rest)
    (hcount : 3859 ≤ s.txFifo.count) :
    ∃ rest', s.peekReport = (List.replicate 19 0x0F ++ rest', s.emit (.peeked 3859)) := by
  have hstack : s.around.stack.toList.length = 260 := Vector.length_toList
  have hheader : s.txFifo.peek 4 = List.replicate 4 0x0F := by
    show s.txFifo.bytes.take 4 = _
    rw [h]
    rfl
  have hfirst : memcpy s.around.stack.toList 0 (List.replicate 4 0x0F) =
      List.replicate 4 0x0F ++ s.around.stack.toList.drop 4 :=
    memcpy_zero (by rw [hstack, List.length_replicate]; omega)
  have hsize : frameSize (List.replicate 4 0x0F ++ s.around.stack.toList.drop 4) = 3859 := by
    unfold frameSize
    rw [reportLen_fill, u16_of_lt (by omega)]
  have hlen : (List.replicate 4 0x0F ++ s.around.stack.toList.drop 4).length = 260 := by
    rw [List.length_append, List.length_drop, hstack, List.length_replicate]
  have hcopied : (s.txFifo.peek 3859).length = 3859 := by
    show (s.txFifo.bytes.take 3859).length = 3859
    rw [List.length_take]
    exact Nat.min_eq_left hcount
  have hnext : memcpy (List.replicate 4 0x0F ++ s.around.stack.toList.drop 4) 0 (s.txFifo.peek 3859) =
      List.replicate 19 0x0F ++ rest.take 241 := by
    have hall : (s.txFifo.peek 3859).take 260 = List.replicate 19 0x0F ++ rest.take 241 := by
      show (s.txFifo.bytes.take 3859).take 260 = _
      rw [List.take_take, h, List.take_append, List.length_replicate]
      rfl
    have hbehind : (List.replicate 4 0x0F ++ s.around.stack.toList.drop 4).drop
        (0 + (s.txFifo.peek 3859).length) = [] :=
      List.drop_of_length_le (by rw [hlen, hcopied]; omega)
    unfold memcpy
    rw [hlen, hbehind, List.take_zero, List.nil_append, List.append_nil]
    exact hall
  refine ⟨rest.take 241, ?_⟩
  unfold HidState.peekReport
  simp only [hheader, hfirst, hsize, hnext, hcopied]

theorem length_longFrames (n : ℕ) : (List.replicate n (longReport.frame 0)).flatten.length = 259 * n := by
  induction n with
  | zero => rfl
  | succ n ih =>
    rw [List.replicate_succ, List.flatten_cons, List.length_append, ih, HidReport.length_frame,
      length_longReport]
    omega

/-- What is left of a frame after its first bytes. -/
theorem drop_longFrame : (longReport.frame 0).drop 29 = List.replicate 230 0x0F := by
  show (nextReport 0 3 longReport.data.length ++ List.replicate 255 0x0F).drop 29 = _
  rw [List.drop_append, List.drop_of_length_le (by rw [length_nextReport]; omega), List.nil_append,
    List.drop_replicate, length_nextReport]

/-- One long report more overruns the ring by twenty-nine bytes. -/
theorem bytes_overrun {s : HidState} (h : s.txFifo.bytes = (List.replicate 30 (longReport.frame 0)).flatten) :
    ∃ rest, (s.turn (listening, .sendReport longReport)).txFifo.bytes = List.replicate 19 0x0F ++ rest ∧
      (List.replicate 19 0x0F ++ rest).length = 8000 := by
  have hlen : (s.txFifo.bytes ++ longReport.frame 0).length = 8029 := by
    rw [h, List.length_append, length_longFrames, HidReport.length_frame, length_longReport]
  have hbytes : (s.turn (listening, .sendReport longReport)).txFifo.bytes =
      (s.txFifo.bytes ++ longReport.frame 0).drop 29 := by
    rw [turn_longReport, bytes_enqueue_write (Nat.le_of_eq length_longReport)]
    show (s.txFifo.write (longReport.frame 0)).bytes = _
    rw [Queue.ByteRing.bytes_write_eq, hlen, show 8029 - hidDepth = 29 by decide]
  have hfirst : ∃ rest, (s.txFifo.bytes ++ longReport.frame 0).drop 29 = List.replicate 19 0x0F ++ rest := by
    rw [h, List.replicate_succ, List.flatten_cons, List.append_assoc,
      List.drop_append_of_le_length (by rw [HidReport.length_frame, length_longReport]; omega),
      drop_longFrame, ← List.replicate_append_replicate (n := 19) (m := 211), List.append_assoc]
    exact ⟨_, rfl⟩
  obtain ⟨rest, hrest⟩ := hfirst
  refine ⟨rest, hbytes.trans hrest, ?_⟩
  rw [← hrest, List.length_drop, hlen]

/-- Then what `SendLastReport` offers is no report. -/
theorem turn_torn {s : HidState} {rest : Bytes} (hbytes : s.txFifo.bytes = List.replicate 19 0x0F ++ rest)
    (hlen : (List.replicate 19 0x0F ++ rest).length = 8000) :
    ⟨0x0F, List.replicate 15 0x0F⟩ ∈ offered (s.turn (listening, .sendLastReport)).log ∧
      3859 ∈ peeks (s.turn (listening, .sendLastReport)).log := by
  have hcount : ({ s with around := listening } : HidState).txFifo.count = 8000 := by
    unfold Queue.ByteRing.count
    exact (congrArg List.length hbytes).trans hlen
  obtain ⟨rest', hpeek⟩ := peekReport_torn (s := { s with around := listening }) hbytes (by omega)
  obtain ⟨tail, hlog⟩ := log_sendLastReport (by omega) hpeek
  have hhead : reportLen (List.replicate 19 0x0F ++ rest') = 3855 := reportLen_fill _
  have hoffered : (⟨reportId (List.replicate 19 0x0F ++ rest'), ((List.replicate 19 0x0F ++ rest').drop 4).take
      (u8 (reportLen (List.replicate 19 0x0F ++ rest')))⟩ : HidReport) =
      ⟨0x0F, List.replicate 15 0x0F⟩ := by
    rw [hhead]
    rfl
  rw [hoffered] at hlog
  show _ ∈ offered (sendLastReport.run { s with around := listening }).2.log ∧
    _ ∈ peeks (sendLastReport.run { s with around := listening }).2.log
  rw [hlog]
  refine ⟨?_, ?_⟩
  · simp [offered]
  · simp [peeks, HidState.emit]

/-- The burst is thirty long reports, one more, and the call that finds the queue torn. -/
theorem after_burst (s : HidState) : Run.after HidState.turn s burst =
    ((Run.after HidState.turn s (List.replicate 30 (listening, .sendReport longReport))).turn
      (listening, .sendReport longReport)).turn (listening, .sendLastReport) := by
  unfold burst
  rw [List.replicate_succ', Run.after_append, Run.after_append]
  rfl

theorem mem_burst {t : Surroundings × QueueCall} (ht : t ∈ burst) :
    t = (listening, .sendReport longReport) ∨ t = (listening, .sendLastReport) := by
  rcases List.mem_append.mp ht with ht | ht
  · exact .inl (List.eq_of_mem_replicate ht)
  · exact .inr (List.mem_singleton.mp ht)

theorem mem_reports_burst {r : HidReport} (hr : r ∈ reports burst) : r = longReport := by
  obtain ⟨t, ht, hsome⟩ := List.mem_filterMap.mp hr
  rcases mem_burst ht with rfl | rfl
  · exact (Option.some.inj hsome).symm
  · cases hsome

end Burst

/-- Otherwise the ring can overflow: a frame is cut, the bytes of a report are taken for a length, and the
second peek writes 3859 bytes to where there are 260. -/
theorem reports_torn :
    (∀ t ∈ burst, Listens t) ∧
    let log := (Run.after HidState.turn (.start ⟨.cleared, .cleared⟩ listening) burst).log
    ⟨0x0F, List.replicate 15 0x0F⟩ ∈ offered log ∧ ⟨0x0F, List.replicate 15 0x0F⟩ ∉ reports burst ∧
      3859 ∈ peeks log := by
  have hlistens : ∀ t ∈ burst, Listens t := by
    intro t ht
    rcases mem_burst ht with rfl | rfl
    · exact ⟨by decide, ⟨by rw [length_longReport]; omega, Nat.le_of_eq length_longReport⟩, rfl, rfl⟩
    · trivial
  have hother : (⟨0x0F, List.replicate 15 0x0F⟩ : HidReport) ∉ reports burst := by
    intro hmem
    exact absurd (congrArg HidReport.id (mem_reports_burst hmem)) (by decide)
  obtain ⟨rest, hbytes, hlen⟩ :=
    bytes_overrun ((bytes_longReports 30 (Nat.le_refl _) (.start ⟨.cleared, .cleared⟩ listening) rfl).trans
      (List.nil_append _))
  obtain ⟨hoffered, hpeeks⟩ := turn_torn hbytes hlen
  rw [after_burst]
  exact ⟨hlistens, hoffered, hother, hpeeks⟩

end NeuronWired
