import Mathlib.Data.List.Induction
import NeuronWired.Handover
import NeuronWired.PacketCrc
import NeuronWired.PortInbound
import NeuronWired.PortSends

/-!
# PortOutbound — from the writer to the wire

The two halves of the outbound path together, with chip-select interrupts at any point: the packets that found
room in `tx_fifo` are handed over by `data_out_process` once and in order, and the link arms what it accepted.
A reader that checks the packets of a message as `data_in_process` does finds the packets sent.
-/

namespace NeuronWired

open Interrupt

/-! ## The two ends of `data_out_process` in a trace -/

/-- A packet taken from `spi_tx_fifo`. -/
def Obs.taken : Obs → List Bytes
  | .txGet packet => [packet]
  | _ => []

/-- A payload accepted by the link. -/
def Obs.accepted : Obs → List Bytes
  | .sendRet (some p) dataSize .ok => [p.take dataSize]
  | _ => []

/-- The packets taken from `spi_tx_fifo`. -/
def takenFrom (trace : List Obs) : List Bytes := trace.flatMap Obs.taken

section Trace

theorem takenFrom_append (trace : List Obs) (x : Obs) : takenFrom (trace ++ [x]) = takenFrom trace ++ x.taken := by
  unfold takenFrom
  rw [List.flatMap_append, List.flatMap_singleton]

theorem accepted_outLog (trace : List Obs) : (outLog trace).accepted = trace.flatMap Obs.accepted := by
  induction trace using List.reverseRecOn with
  | nil => rfl
  | append_singleton trace x ih =>
    rw [outLog_append, List.flatMap_append, List.flatMap_singleton, ← ih]
    cases x with
    | sendRet p n r =>
      cases p with
      | none => exact (List.append_nil _).symm
      | some p => cases r <;> first | rfl | exact (List.append_nil _).symm
    | armed out n st r =>
      cases st with
      | dataSendStart =>
        show OutLog.accepted (if _ then _ else _) = _
        split_ifs
        · exact (List.append_nil _).symm
        · exact (List.append_nil _).symm
      | _ => exact (List.append_nil _).symm
    | _ => exact (List.append_nil _).symm

/-- What is taken and what is accepted is seen at the two ends. -/
theorem flatMap_handing {g : Obs → List Bytes} (hg : ∀ x, x.handing = false → g x = []) (trace : List Obs) :
    (trace.filter Obs.handing).flatMap g = trace.flatMap g := by
  induction trace with
  | nil => rfl
  | cons x trace ih =>
    rw [List.flatMap_cons, ← ih]
    cases hx : x.handing with
    | true => rw [List.filter_cons_of_pos hx, List.flatMap_cons]
    | false =>
      rw [List.filter_cons_of_neg (by rw [hx]; exact Bool.false_ne_true), hg x hx, List.nil_append]

theorem taken_handing (trace : List Obs) : (trace.filter Obs.handing).flatMap Obs.taken = takenFrom trace :=
  flatMap_handing (fun x hx => by cases x <;> first | rfl | cases hx) trace

theorem accepted_handing (trace : List Obs) :
    (trace.filter Obs.handing).flatMap Obs.accepted = (outLog trace).accepted := by
  rw [accepted_outLog]
  exact flatMap_handing (fun x hx => by cases x <;> first | rfl | cases hx) trace

/-- Every packet taken was accepted, sealed. -/
theorem handedOver_ledger {F : PacketFormat} {trace : List Obs} (h : HandedOver F trace []) :
    ∃ handed : List Handed, takenFrom trace = handed.map Handed.packet ∧
      (outLog trace).accepted =
        handed.map fun p => (sealPacket F p.behind p.more p.packet).take F.packetSize := by
  obtain ⟨handed, heq⟩ := h
  rw [List.append_nil] at heq
  refine ⟨handed, ?_, ?_⟩
  · rw [← taken_handing, heq, List.flatMap_assoc, ← List.flatMap_singleton' (handed.map Handed.packet),
      List.flatMap_map]
    rfl
  · rw [← accepted_handing, heq, List.flatMap_assoc,
      ← List.flatMap_singleton'
        (handed.map fun p => (sealPacket F p.behind p.more p.packet).take F.packetSize),
      List.flatMap_map]
    rfl

end Trace

/-! ## A sealed packet is read back -/

section Sealed

variable {F : PacketFormat} (L : F.Layout) {packet : Bytes} (sent : Bytes) (behind : ℕ → Bytes)
include L

/-- What the check leaves of a sealed packet: `header.crc` is cleared again. -/
theorem packetsOf_sealPacket (more : Bool) (hlen : packet.length = F.packetSize) (hfits : SizeFits F packet) :
    packetsOf F behind (sealPacket F sent more packet) = [F.setCrc 0 (F.setHasMorePackets more packet)] := by
  have hseal : (sealPacket F sent more packet).length = F.packetSize :=
    (length_sealPacket sent more packet).trans hlen
  have harray : payloadArray F (returnedPayload behind (sealPacket F sent more packet)) =
      sealPacket F sent more packet ++ List.drop F.packetSize (List.replicate (spilsMessageSizeMax F) 0) := by
    have hroom : (sealPacket F sent more packet).length ≤
        (List.replicate (spilsMessageSizeMax F) (0 : UInt8)).length := by
      rw [List.length_replicate, hseal]
      unfold spilsMessageSizeMax
      omega
    unfold payloadArray returnedPayload
    rw [memcpy_zero hroom, hseal]
  have hone : payloadPackets F (returnedPayload behind (sealPacket F sent more packet)) = 1 := by
    show (sealPacket F sent more packet).length / F.packetSize = 1
    rw [hseal, Nat.div_self F.packetSize_pos]
  unfold packetsOf payloadValid
  rw [hone, harray]
  generalize List.drop F.packetSize (List.replicate (spilsMessageSizeMax F) (0 : UInt8)) = tail
  have htake : (sealPacket F sent more packet ++ tail).take F.packetSize = sealPacket F sent more packet := by
    rw [← hseal, List.take_left]
  have hclear : F.setCrc 0 (sealPacket F sent more packet) = F.setCrc 0 (F.setHasMorePackets more packet) := by
    unfold sealPacket
    rw [L.setCrc_setCrc, L.setCrc_setCrc]
  rw [validPackets_succ, if_pos (sealed_valid L hlen hfits htake), htake, hclear]
  rfl

end Sealed

/-! ## What is taken from `spi_tx_fifo` -/

section Taking

variable {F : PacketFormat} {size : ℕ} {f : FifoBuffer} {taken : List Bytes} {s s' : Sys}

/-- The queue is `f`, and so much has been taken from it. -/
def Taking (size : ℕ) (f : FifoBuffer) (taken : List Bytes) (s : Sys) : Prop :=
  TxIs size f s ∧ takenFrom s.ghost.trace = taken

theorem Taking.log (h : Taking size f taken s) {x : Obs} (hx : x.taken = []) : Taking size f taken (s.log x) := by
  refine ⟨h.1.log x, ?_⟩
  rw [Sys.trace_log, takenFrom_append, h.2, hx, List.append_nil]

theorem Taking.event (h : Taking size f taken s) (e : SpilsEventType) :
    Taking size f taken ((s.mapSlave (spilsEventHandler e)).log (.event e)) := by
  refine ⟨h.1.event e, ?_⟩
  rw [Sys.trace_log, takenFrom_append]
  exact (List.append_nil _).trans h.2

theorem conFrame_taking : ConFrame (Taking size f taken) where
  link s g hg h := ⟨conFrame_tx.link s g hg h.1, h.2⟩
  event _ e _ h := h.event e

theorem inFrame_taking : InFrame (Taking size f taken) where
  isIn s h := inFrame_tx.isIn s h.1
  link s g hg hp hc h := ⟨inFrame_tx.link s g hg hp hc h.1, h.2⟩
  buf s i b hi hb h := ⟨inFrame_tx.buf s i b hi hb h.1, h.2⟩
  swapIn s sw h := ⟨inFrame_tx.swapIn s sw h.1, h.2⟩
  reading s r h := ⟨inFrame_tx.reading s r h.1, h.2⟩
  event _ h := h.event _
  log _ x hx h := h.log (by cases x <;> first | rfl | exact hx.elim)

theorem outFrame_taking : OutFrame (Taking size f taken) where
  isOut s h := outFrame_tx.isOut s h.1
  link s g hg h := ⟨outFrame_tx.link s g hg h.1, h.2⟩
  buf s i b hi hb h := ⟨outFrame_tx.buf s i b hi hb h.1, h.2⟩
  filling s r h := ⟨outFrame_tx.filling s r h.1, h.2⟩
  failed _ _ h := h.log rfl

theorem Taking.mapSlave {g : SpiSlave → SpiSlave} (h : Taking size f taken s)
    (hg : ∀ p, (g p).spiTxFifo = p.spiTxFifo) : Taking size f taken (s.mapSlave g) := ⟨h.1.mapSlave hg, h.2⟩

theorem keeps_writeTaking {g : SpiSlave → SpiSlave} (hg : ∀ p, (g p).spiTxFifo = p.spiTxFifo) :
    Keeps (Taking size f taken) (writeSlave g) := keeps_write fun _ h => h.mapSlave hg

theorem keeps_logTaking {x : Obs} (hx : x.taken = []) : Keeps (Taking size f taken) (logObs x) :=
  keeps_write fun _ h => h.log hx

theorem keeps_pollTaking : Keeps (Taking size f taken) spilsPoll :=
  .bind conFrame_taking.conMachine fun _ => inFrame_taking.lineInBusyProcess

theorem dataInFrame_taking : DataInFrame (Taking size f taken) where
  crcRange _ _ _ _ h := h.log rfl
  put _ _ h := h.mapSlave fun _ => rfl
  inFrame := inFrame_taking
  failed _ _ h := h.log rfl
  availRead _ _ h := ⟨⟨h.1.1.congr rfl rfl rfl, h.1.2⟩, h.2⟩
  received _ _ h := h.mapSlave fun _ => rfl

theorem takenFrom_note {l : List Obs} (hl : ∀ x ∈ l, x.Note) : takenFrom l = [] := by
  refine List.flatMap_eq_nil_iff.mpr fun x hx => ?_
  have hnote := hl x hx
  cases x <;> first | rfl | exact hnote.elim

/-- The interrupt takes nothing. -/
theorem Taking.irq (h : Taking size f taken s) (i : Irq) : Taking size f taken ((irqProg i).run s).2 := by
  refine ⟨h.1.irq i, Eq.trans ?_ h.2⟩
  cases i with
  | tick ms => rfl
  | edge e =>
    cases h.1.1.run_edge e with
    | again g silent armed same eq => rw [eq, Sys.ghost_mapSpi, (link_clockIn s e).2.2.2]
    | done p st ready g valid resend processed armed eq =>
      obtain ⟨l₁, l₂, htrace, hl⟩ := trace_done processed g
      have h1 := takenFrom_note fun x hx => hl x (List.mem_append_left _ hx)
      have h2 := takenFrom_note fun x hx => hl x (List.mem_append_right _ hx)
      unfold takenFrom at h1 h2 ⊢
      rw [eq, htrace]
      simp [List.flatMap_append, h1, h2, Obs.taken]

end Taking

/-! ## The queue between two calls -/

section Accounts

variable {F : PacketFormat} {size : ℕ} {f : FifoBuffer} {items : List (Item F.packetSize)}
  {taken queued : List Bytes} {s : Sys}

/-- The packets taken and those in the queue are the ones that found room. -/
def Outgoing (F : PacketFormat) (size : ℕ) (queued : List Bytes) (s : Sys) : Prop :=
  ∃ (f : FifoBuffer) (items : List (Item F.packetSize)) (taken : List Bytes),
    (f.Holds items ∧ taken ++ items.map Subtype.val = queued) ∧ Taking size f taken s

variable (F size) in
/-- The interrupt, for everything between the writer and the wire. -/
structure SenderRely (s s' : Sys) : Prop where
  hand : HandRely F size s s'
  taking : ∀ f taken, Taking size f taken s → Taking size f taken s'

theorem stable_taking : Stable (SenderRely F size) (Taking size f taken) := fun _ _ hR h => hR.taking _ _ h

theorem stable_outgoing : Stable (SenderRely F size) (Outgoing F size queued) :=
  Stable.exists fun _ => Stable.exists fun _ => Stable.exists fun _ => Stable.const_and _ stable_taking

/-- A queue that is not empty hands over its oldest packet. -/
theorem wp_dataOutTaking {behind : Bytes} (hf : f.Holds items) (heq : taken ++ items.map Subtype.val = queued)
    (h : Taking size f taken s) :
    wp (SenderRely F size) (fun _ => True) (dataOutProcess F behind) (fun _ => Outgoing F size queued) s := by
  have hT : ∀ t, Taking size f taken t → True := fun _ _ => trivial
  have hdone : ∀ t, Taking size f taken t →
      wp (SenderRely F size) (fun _ => True) (pure ()) (fun _ => Outgoing F size queued) t :=
    fun t ht => wp_pure stable_outgoing (fun _ _ => trivial) ⟨f, items, taken, ⟨hf, heq⟩, ht⟩
  unfold dataOutProcess
  refine wp_read stable_taking hT h fun t ht => wp_read stable_taking hT ht fun u hu => ?_
  by_cases hskip : t.slave.spilsDataOutSending = true ∨ u.slave.spiTxFifo.isEmpty = true
  · rw [if_pos hskip]
    exact hdone u hu
  rw [if_neg hskip]
  have hsome : ¬f.isEmpty = true := by
    rw [← hu.1.2]
    exact fun he => hskip (.inr he)
  obtain ⟨y, rest, rfl⟩ := isEmpty_false hf F.packetSize_pos hsome
  obtain ⟨hget, hrest⟩ := hf.get F.packetSize_pos
  -- the oldest packet is taken; the rest of the call leaves the queue alone
  refine wp_atomic stable_taking hT hu fun t ht => ⟨_, _, rfl, ?_⟩
  have hgot : Taking size f.get.2 (taken ++ [y.1])
      ((t.mapSlave fun p => { p with spiTxFifo := t.slave.spiTxFifo.get.2 }).log
        (.txGet t.slave.spiTxFifo.get.1.2)) := by
    refine ⟨⟨ht.1.1.congr rfl rfl rfl, by rw [← ht.1.2]; rfl⟩, ?_⟩
    rw [Sys.trace_log, takenFrom_append, ← ht.2, ht.1.2, hget]
    rfl
  have hafter : ∀ t, Taking size f.get.2 (taken ++ [y.1]) t → Outgoing F size queued t := by
    intro t ht
    refine ⟨f.get.2, rest, taken ++ [y.1], ⟨hrest, ?_⟩, ht⟩
    rw [← heq, List.map_cons, List.append_assoc]
    rfl
  refine wp_mono (wp_always_mono (wp_frame stable_taking ?_ hgot) fun _ _ => trivial) fun _ => hafter
  exact .bind (outFrame_taking.assertDygma _ _) fun _ => .bind (keeps_read _) fun _ =>
    .bind (keeps_logTaking rfl) fun _ => .bind (keeps_writeTaking fun _ => rfl) fun _ =>
      .bind (outFrame_taking.spilsDataSend fun _ _ hs => hs.log rfl) fun _ =>
        .bind (outFrame_taking.assertDygma _ _) fun _ =>
          .ite (keeps_writeTaking fun _ => rfl) (keeps_pure _)

theorem wp_spiSlaveRun_outgoing (stack : Stack) (h : Outgoing F size queued s) :
    wp (SenderRely F size) (fun _ => True) (spiSlaveRun F stack) (fun _ => Outgoing F size queued) s := by
  obtain ⟨f, items, taken, ⟨hf, heq⟩, ht⟩ := h
  have hframe : ∀ {p : Code Unit} (t : Sys), Keeps (Taking size f taken) p → Taking size f taken t →
      wp (SenderRely F size) (fun _ => True) p (fun _ => Taking size f taken) t :=
    fun t hk ht => wp_always_mono (wp_frame stable_taking hk ht) fun _ _ => trivial
  unfold spiSlaveRun
  refine wp_bind (wp_mono (hframe s keeps_pollTaking ht) fun _ t ht => ?_)
  exact wp_bind (wp_mono (hframe t (dataInFrame_taking.dataInProcess _) ht) fun _ _ hu =>
    wp_dataOutTaking hf heq hu)

end Accounts

/-! ## The writer -/

/-- The packets are whole, and their `header.size` stays inside them. -/
def Sendable (F : PacketFormat) : SlaveCall → Sys → Prop
  | .sendPacket packet, _ => packet.length = F.packetSize ∧ SizeFits F packet
  | .run _, _ | .readPacket, _ => True

instance (F : PacketFormat) (k : SlaveCall) (s : Sys) : Decidable (Sendable F k s) :=
  match k with
  | .sendPacket _ => inferInstanceAs (Decidable (_ ∧ _))
  | .run _ | .readPacket => .isTrue trivial

/-- `Spi_slave` and a writer, while the dummy is not taken for a message. -/
def writerMachine (F : PacketFormat) : Machine Sys SlaveCall Irq :=
  { slaveMachine F NotMistaken with callOk := Sendable F }

instance (F : PacketFormat) (r : Recorder Sys SlaveCall Irq (List Bytes)) (k : SlaveCall)
    (x : Sys × List Bytes) : Decidable (((writerMachine F).recorded r).callOk k x) :=
  inferInstanceAs (Decidable (Sendable F k x.1))

instance (F : PacketFormat) (r : Recorder Sys SlaveCall Irq (List Bytes)) (i : Irq)
    (x : Sys × List Bytes) : Decidable (((writerMachine F).recorded r).irqOk i x) :=
  inferInstanceAs (Decidable (NotMistaken i x.1))

/-- The packets that found room in `tx_fifo`. -/
def packetsQueued : Recorder Sys SlaveCall Irq (List Bytes) where
  call k s queued :=
    match k with
    | .sendPacket packet => if s.slave.spiTxFifo.isFull = true then queued else queued ++ [packet]
    | .run _ | .readPacket => queued
  step _ _ queued := queued
  irq _ _ queued := queued

section Writer

variable {F : PacketFormat} {size : ℕ}

/-- The link keeps its books, and the queue its own. -/
structure Sending (F : PacketFormat) (size : ℕ) (x : Sys × List Bytes) : Prop where
  link : OutAt size (OutOpen size True True []) x.1 ∧ Kept F [] x.1
  outgoing : Outgoing F size x.2 x.1
  sendable : ∀ p ∈ x.2, p.length = F.packetSize ∧ SizeFits F p

/-- The interrupt beside the history. -/
def WriterRely (F : PacketFormat) (size : ℕ) (x x' : Sys × List Bytes) : Prop :=
  SenderRely F size x.1 x'.1 ∧ x'.2 = x.2

theorem senderRely_irq {s : Sys} (hB : Base size s) {i : Irq} (hi : NotMistaken i s) :
    SenderRely F size s ((irqProg i).run s).2 where
  hand := ⟨outRely_irq hB i fun _ e he hrec => by subst he; exact hi hrec, fun _ h => h.irq hB i⟩
  taking _ _ h := h.irq i

theorem stable_sending : Stable (WriterRely F size) (Sending F size) := by
  rintro x x' ⟨hR, he⟩ ⟨hlink, hout, hsend⟩
  refine ⟨stable_outKept stable_outOpen _ _ hR.hand hlink, ?_, he ▸ hsend⟩
  rw [he]
  exact stable_outgoing _ _ hR hout

/-- What the link and the queue to it do not notice, in a call that queues nothing. -/
theorem wp_unsent {p : Code Unit}
    (hk : Keeps (fun s => OutAt size (OutOpen size True True []) s ∧ Kept F [] s) p)
    (hk' : ∀ f taken, Keeps (Taking size f taken) p) {x : Sys × List Bytes} (h : Sending F size x) :
    wp (WriterRely F size) (fun _ => True) (p.beside packetsQueued.step) (fun _ => Sending F size) x := by
  obtain ⟨s, queued⟩ := x
  obtain ⟨hlink, ⟨f, items, taken, hq, ht⟩, hsend⟩ := h
  have hst : Stable (SenderRely F size) fun s => OutAt size (OutOpen size True True []) s ∧ Kept F [] s :=
    Stable.anti (stable_outKept stable_outOpen) fun _ _ hR => hR.hand
  have hboth := wp_and (wp_frame hst hk hlink) (wp_frame stable_taking (hk' f taken) ht)
  have hbeside := wp_beside (R := WriterRely F size) (fun _ _ hR => hR) queued hboth
  refine wp_mono (wp_always_mono hbeside fun _ _ => trivial) ?_
  rintro - ⟨t, _⟩ ⟨⟨hlink', ht'⟩, rfl⟩
  exact ⟨hlink', ⟨f, items, taken, hq, ht'⟩, hsend⟩

/-- A packet that finds room is queued behind the others. -/
theorem Sending.send {packet : Bytes} (hlen : packet.length = F.packetSize) (hfits : SizeFits F packet)
    {x : Sys × List Bytes} (h : Sending F size x) :
    Sending F size (x.1.mapSlave fun p => { p with spiTxFifo := (p.spiTxFifo.put packet).2 },
      packetsQueued.call (.sendPacket packet) x.1 x.2) := by
  obtain ⟨s, queued⟩ := x
  obtain ⟨hlink, ⟨f, items, taken, ⟨hf, heq⟩, ht⟩, hsend⟩ := h
  have hn : F.packetSize ≤ internalBufferSize := by
    have := F.fits
    unfold internalBufferSize
    omega
  have hput : Keeps (fun s => OutAt size (OutOpen size True True []) s ∧ Kept F [] s)
      (writeSlave fun p => { p with spiTxFifo := (p.spiTxFifo.put packet).2 }) :=
    keeps_writeKept (fun _ => rfl) fun _ hq => hq.put packet
  have htaking : Taking size (f.put packet).2 taken
      (s.mapSlave fun p => { p with spiTxFifo := (p.spiTxFifo.put packet).2 }) := by
    refine ⟨⟨ht.1.1.congr rfl rfl rfl, ?_⟩, ht.2⟩
    rw [← ht.1.2]
    rfl
  have hcall : packetsQueued.call (.sendPacket packet) s queued =
      if f.isFull = true then queued else queued ++ [packet] := by
    rw [← ht.1.2]
    rfl
  have hlink' := hput.run hlink
  rw [hcall, hf.isFull hn]
  by_cases hfull : internalBufferSize < (items.length + 1) * F.packetSize
  · rw [hf.put_full hn packet hfull] at htaking
    rw [if_pos (decide_eq_true hfull)]
    exact ⟨hlink', ⟨f, items, taken, ⟨hf, heq⟩, htaking⟩, hsend⟩
  · have hroom := (hf.put F.packetSize_pos ⟨packet, hlen⟩ (Nat.le_of_not_lt hfull)).2
    rw [if_neg (by simpa using hfull)]
    refine ⟨hlink', ⟨_, items ++ [⟨packet, hlen⟩], taken, ⟨hroom, ?_⟩, htaking⟩, ?_⟩
    · rw [List.map_append, ← List.append_assoc, heq]
      rfl
    · intro p hp
      rcases List.mem_append.mp hp with hp | hp
      · exact hsend p hp
      · rw [List.mem_singleton.mp hp]
        exact ⟨hlen, hfits⟩

/-- Every call, beside the history. -/
theorem wp_writer (hsize : F.packetSize + 2 ≤ size) {x : Sys × List Bytes} (h : Sending F size x)
    (k : SlaveCall) (hk : Sendable F k x.1) :
    wp (WriterRely F size) (fun _ => True)
      ((slaveProg F k).recorded packetsQueued.step (packetsQueued.call k)) (fun _ => Sending F size) x := by
  cases k with
  | sendPacket packet =>
    exact wp_recorded_write_last stable_sending (fun _ _ => trivial) h stable_sending (fun _ _ => trivial)
      fun s queued hs => hs.send hk.1 hk.2
  | readPacket =>
    refine wp_unsent ?_ (fun f taken => ?_) h
    · exact .bind (keeps_read _) fun _ => .ite (keeps_pure _)
        (keeps_writeKept (fun _ => rfl) fun _ hq => hq)
    · exact .bind (keeps_read _) fun _ => .ite (keeps_pure _) (keeps_writeTaking fun _ => rfl)
  | run stack =>
    obtain ⟨s, queued⟩ := x
    obtain ⟨hlink, hout, hsend⟩ := h
    have hpoll : Keeps (fun s => OutAt size (OutOpen size True True []) s ∧ Kept F [] s) spilsPoll :=
      .bind conFrame_kept.conMachine fun _ => inFrame_kept.lineInBusyProcess
    have hframe : ∀ {p : Code Unit} (t : Sys),
        Keeps (fun s => OutAt size (OutOpen size True True []) s ∧ Kept F [] s) p →
        OutAt size (OutOpen size True True []) t ∧ Kept F [] t → wp (HandRely F size) (fun _ => True) p
          (fun _ s => OutAt size (OutOpen size True True []) s ∧ Kept F [] s) t :=
      fun t hk ht => wp_always_mono (wp_frame (stable_outKept stable_outOpen) hk ht) fun _ _ => trivial
    have hrun : wp (HandRely F size) (fun _ => True) (spiSlaveRun F stack)
        (fun _ s => OutAt size (OutOpen size True True []) s ∧ Kept F [] s) s := by
      refine wp_bind (wp_mono (hframe s hpoll hlink) fun _ t ht => ?_)
      exact wp_bind (wp_mono (hframe t (dataInFrame_kept.dataInProcess _) ht) fun _ _ hu =>
        wp_dataOutProcess hsize hu)
    have hboth := wp_and (wp_anti hrun fun _ _ hR => hR.hand) (wp_spiSlaveRun_outgoing stack hout)
    have hbeside := wp_beside (R := WriterRely F size) (fun _ _ hR => hR) queued hboth
    refine wp_mono (wp_always_mono hbeside fun _ _ => trivial) ?_
    rintro - ⟨t, _⟩ ⟨⟨hlink', hout'⟩, rfl⟩
    exact ⟨hlink', hout', hsend⟩

theorem outline_writer (hsize : F.packetSize + 2 ≤ size) :
    ((writerMachine F).recorded packetsQueued).Outline
      (fun x => Sending F size x ∧ Base size x.1) fun _ x => True ∧ Base size x.1 := by
  have hirq : ∀ x x', Base size x.1 → ((writerMachine F).recorded packetsQueued).Rely x x' →
      WriterRely F size x x' := by
    intro x x' hB hR
    obtain ⟨i, hi, hst, he⟩ := Machine.rely_recorded hR
    refine ⟨?_, he.elim id id⟩
    rw [hst]
    exact senderRely_irq hB hi
  refine Machine.Outline.within (R := WriterRely F size) ?_ (fun k => ?_) hirq stable_sending
    fun k x h hk => wp_writer hsize h k hk
  · intro x x' hR hB
    obtain ⟨i, -, hst, -⟩ := Machine.rely_recorded hR
    rw [hst]
    exact hB.run_irq i
  · exact ((frame_base_only size).slaveProg F k).recorded

end Writer

theorem sending_start (F : PacketFormat) (hw : Board) :
    Sending F (F.packetSize * 4 + 2) (slaveStart F hw, []) ∧
      Base (F.packetSize * 4 + 2) (slaveStart F hw) := by
  have hsize : (spiSlaveConf F).messageSizeMax + 2 = F.packetSize * 4 + 2 := by
    have := F.fits
    show u8 (F.packetSize * 4) + 2 = _
    rw [u8_of_lt (by omega)]
  have hB := base_start (spiSlaveConf_ok F) hw (.new F)
  have hout := outAt_start (g := True) (k := True) (spiSlaveConf_ok F) hw (.new F)
  rw [hsize] at hB hout
  obtain ⟨h, heq, -⟩ := start_eq (spiSlaveConf F) hw (.new F)
  have htx : (slaveStart F hw).slave.spiTxFifo = .new F.packetSize := by
    unfold slaveStart
    rw [heq]
    unfold Sys.rearm Sys.answer
    rw [prepared_eq (spiSlaveConf_ok F)]
    rfl
  have htaken : takenFrom (slaveStart F hw).ghost.trace = [] := by
    unfold slaveStart
    rw [heq]
    unfold Sys.rearm Sys.answer
    rw [prepared_eq (spiSlaveConf_ok F)]
    rfl
  refine ⟨⟨⟨hout, kept_start F hw⟩, ?_, fun p hp => by cases hp⟩, hB⟩
  exact ⟨_, [], [], ⟨FifoBuffer.holds_new _, rfl⟩, ⟨hB, htx⟩, htaken⟩

/-- Three packets are queued; the master fetches one while the next is handed over, and one stays queued. -/
def sampleOutbound : Cfg (Sys × List Bytes) SlaveCall :=
  let c := ((writerMachine wideFormat).recorded packetsQueued).play
    [.call (.sendPacket samplePacket), .go 9, .call (.sendPacket (List.replicate 63 0)), .go 9,
      .call (.sendPacket samplePacket), .go 9, .call (.run ⟨fun _ => [], [5]⟩), .go 60,
      .irq (.edge (.of [2, 2])), .irq (.edge (.of (List.replicate 65 0))), .call (.run ⟨fun _ => [], [5]⟩), .go 60]
    ((slaveStart wideFormat ⟨8, true, true, 0⟩, []), none)
  ⟨c.1, c.2, none⟩

end NeuronWired
