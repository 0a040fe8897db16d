import NeuronWired.Outbound

/-!
# Handover — from `spi_tx_fifo` to the link

`data_out_process` takes a packet when `spils_data_out_sending` is clear and expects the link to accept it.
The flag is cleared whenever a transfer in `DATA_SENDING` is over, also one that carried the empty
dummy.  A packet handed over while the dummy is on its way is then taken for sent, and the next one
meets a link that is still full.  While this does not happen every packet is accepted.
-/

namespace NeuronWired

open Interrupt

/-! ## What is claimed -/

/-- The link is not told that a message has gone when it was the dummy. -/
def NotMistaken : Irq → Sys → Prop
  | .edge e, s => s.received e ≠ [] → ¬(outView s).Mistaken
  | .tick _, _ => True

instance (v : OutView) : Decidable v.Mistaken := inferInstanceAs (Decidable (_ ∧ _ ∧ _))

instance (i : Irq) (s : Sys) : Decidable (NotMistaken i s) :=
  match i with
  | .edge e => inferInstanceAs (Decidable (s.received e ≠ [] → ¬(outView s).Mistaken))
  | .tick _ => .isTrue trivial

/-- The observations at the two ends of `data_out_process`. -/
def Obs.handing : Obs → Bool
  | .txGet _ | .sendRet _ _ _ => true
  | _ => false

variable (F : PacketFormat)

/-- A packet on its way to the link: whether others were left in the queue, and what was behind it on
the stack. -/
structure Handed where
  packet : Bytes
  more : Bool
  behind : Bytes

/-- A packet is taken, and accepted by the link with its header completed. -/
def handover (p : Handed) : List Obs :=
  [.txGet p.packet, .sendRet (some (sealPacket F p.behind p.more p.packet)) F.packetSize .ok]

/-- Packet after packet was taken and accepted, and then came `rest`. -/
def HandedOver (trace rest : List Obs) : Prop :=
  ∃ packets : List Handed,
    trace.filter Obs.handing = packets.flatMap (handover F) ++ rest

/-! ## The queue -/

/-- A queue of packets of the format, with its whole array. -/
structure FifoBuffer.Packets (f : FifoBuffer) : Prop where
  itemSize : f.itemSize = F.packetSize
  length : f.internalBuffer.length = internalBufferSize

variable {F}

section Queue

variable {f : FifoBuffer}

theorem length_memcpyAt (dst : Bytes) (off : ℤ) (src : Bytes) :
    (FifoBuffer.memcpyAt dst off src).length = dst.length := by
  unfold FifoBuffer.memcpyAt
  split_ifs <;> rw [length_memcpy]

theorem length_moveBytes (itemSize n count : ℕ) (buf : Bytes) :
    (FifoBuffer.moveBytes itemSize n count buf).length = buf.length := by
  induction n generalizing count buf with
  | zero => rfl
  | succ n ih =>
    unfold FifoBuffer.moveBytes
    rw [ih, List.length_set]

theorem packets_new : (FifoBuffer.new F.packetSize).Packets F := ⟨rfl, List.length_replicate⟩

theorem FifoBuffer.Packets.put (h : f.Packets F) (item : Bytes) : (f.put item).2.Packets F := by
  unfold FifoBuffer.put
  split_ifs
  · exact ⟨h.itemSize, (length_memcpyAt _ _ _).trans h.length⟩
  · exact h

theorem FifoBuffer.Packets.get (h : f.Packets F) :
    f.get.2.Packets F ∧ f.get.1.2.length = F.packetSize := by
  have hfits := F.fits
  unfold FifoBuffer.get
  split_ifs
  · exact ⟨h, by rw [List.length_replicate]; exact h.itemSize⟩
  · refine ⟨⟨h.itemSize, ?_⟩, ?_⟩
    · show (memcpy (FifoBuffer.moveBytes _ _ _ _) _ _).length = _
      rw [length_memcpy, length_moveBytes, h.length]
    · rw [List.length_take, h.length, h.itemSize]
      unfold internalBufferSize
      omega

theorem length_sealPacket (behind : Bytes) (hasMore : Bool) (p : Bytes) :
    (sealPacket F behind hasMore p).length = p.length := by
  unfold sealPacket
  rw [F.length_setCrc, F.length_setCrc, F.length_setHasMorePackets]

end Queue

/-! ## What the rest of the code leaves alone -/

/-- The queue is in shape, and `rest` has been observed since the last packet was accepted. -/
structure Kept (F : PacketFormat) (rest : List Obs) (s : Sys) : Prop where
  queue : s.slave.spiTxFifo.Packets F
  handed : HandedOver F s.ghost.trace rest

section Kept

variable {size : ℕ} {Φ : OutView → Prop} {rest : List Obs} {s s' t p : Sys}

theorem Kept.congr (h : Kept F rest s) (hq : s'.slave.spiTxFifo = s.slave.spiTxFifo)
    (ht : s'.ghost.trace.filter Obs.handing = s.ghost.trace.filter Obs.handing) : Kept F rest s' := by
  refine ⟨hq ▸ h.queue, ?_⟩
  unfold HandedOver
  rw [ht]
  exact h.handed

theorem Kept.log (h : Kept F rest s) {x : Obs} (hx : x.handing = false) : Kept F rest (s.log x) := by
  refine h.congr rfl ?_
  rw [Sys.trace_log, List.filter_append, List.filter_cons_of_neg (by rw [hx]; decide)]
  exact List.append_nil _

theorem Kept.event (h : Kept F rest s) (e : SpilsEventType) :
    Kept F rest ((s.mapSlave (spilsEventHandler e)).log (.event e)) := by
  have hs : Kept F rest (s.mapSlave (spilsEventHandler e)) := h.congr (by cases e <;> rfl) rfl
  exact hs.log rfl

/-- An observation of the two ends. -/
theorem Kept.handing (h : Kept F rest s) {x : Obs} (hx : x.handing = true) :
    Kept F (rest ++ [x]) (s.log x) := by
  obtain ⟨hq, packets, hp⟩ := h
  refine ⟨hq, packets, ?_⟩
  rw [Sys.trace_log, List.filter_append, List.filter_cons_of_pos hx, hp, List.append_assoc]
  rfl

/-- The packet was accepted. -/
theorem Kept.accepted {q : Handed} (h : Kept F (handover F q) s) : Kept F [] s := by
  obtain ⟨hq, packets, hp⟩ := h
  refine ⟨hq, packets ++ [q], ?_⟩
  rw [hp, List.flatMap_append, List.append_nil]
  simp

/-! ### The interrupt -/

theorem txFifo_handled {e : Edge} (h : Handled e s s') :
    s'.slave.spiTxFifo = s.slave.spiTxFifo :=
  field_handled (fun e _ => by cases e <;> rfl) h

theorem filter_note {l : List Obs} (h : ∀ x ∈ l, x.Note) : l.filter Obs.handing = [] := by
  refine List.filter_eq_nil_iff.mpr fun x hx => ?_
  have hnote := h x hx
  cases x <;> first | exact hnote.elim | exact Bool.false_ne_true

theorem Kept.irq (h : Kept F rest s) (hB : Base size s) (i : Irq) :
    Kept F rest ((irqProg i).run s).2 := by
  cases i with
  | tick ms => exact h.congr rfl rfl
  | edge e =>
    have hh := hB.run_edge e
    refine h.congr (txFifo_handled hh) ?_
    cases hh with
    | again g silent armed same eq => rw [eq, Sys.ghost_mapSpi, (link_clockIn s e).2.2.2]
    | done p st ready g valid resend processed armed eq =>
      obtain ⟨l₁, l₂, htrace, hl⟩ := trace_done processed g
      have h1 := filter_note fun x hx => hl x (List.mem_append_left _ hx)
      have h2 := filter_note fun x hx => hl x (List.mem_append_right _ hx)
      rw [eq, htrace]
      simp [List.filter_append, h1, h2, Obs.handing]

/-! ### The main loop -/

theorem conFrame_kept : ConFrame fun s => OutAt size Φ s ∧ Kept F rest s where
  link s f hf h := ⟨(conFrame_outAt size Φ).link s f hf h.1, h.2.congr rfl rfl⟩
  event s e he h := ⟨(conFrame_outAt size Φ).event s e he h.1, h.2.event e⟩

theorem inFrame_kept : InFrame fun s => OutAt size Φ s ∧ Kept F rest s where
  isIn s h := (inFrame_outAt size Φ).isIn s h.1
  link s f hf hp hc h := ⟨(inFrame_outAt size Φ).link s f hf hp hc h.1, h.2.congr rfl rfl⟩
  buf s i b hi hb h := ⟨(inFrame_outAt size Φ).buf s i b hi hb h.1, h.2.congr rfl rfl⟩
  swapIn s sw h := ⟨(inFrame_outAt size Φ).swapIn s sw h.1, h.2.congr rfl rfl⟩
  reading s r h := ⟨(inFrame_outAt size Φ).reading s r h.1, h.2.congr rfl rfl⟩
  event s h := ⟨(inFrame_outAt size Φ).event s h.1, h.2.event _⟩
  log s x hx h := ⟨(inFrame_outAt size Φ).log s x hx h.1, h.2.log (by cases x <;> first | rfl | exact hx.elim)⟩

theorem outFrame_kept : OutFrame fun s => Shape size s ∧ Kept F rest s where
  isOut _ h := h.1.outBuf
  link _ f hf h := ⟨h.1.mapLink f (Spils.field_eq hf Spils.core fun _ => rfl), h.2.congr rfl rfl⟩
  buf _ i _ _ hb h := ⟨h.1.setBuf i (hb _ (h.1.sized i)), h.2.congr rfl rfl⟩
  filling _ _ h := ⟨h.1.congr rfl rfl, h.2.congr rfl rfl⟩
  failed _ _ h := ⟨h.1.log _, h.2.log rfl⟩

end Kept

/-! ## `data_out_process` -/

section Process

variable {size : ℕ} {g : Prop} {Φ : OutView → Prop} {rest : List Obs} {s : Sys}

variable (F size) in
/-- The interrupt as `data_out_process` needs it. -/
def HandRely (s s' : Sys) : Prop :=
  OutRely size True s s' ∧ ∀ rest, Kept F rest s → Kept F rest s'

variable (F size) in
/-- The state between two calls. -/
def Settled (s : Sys) : Prop := OutAt size (OutOpen size False True []) s ∧ Kept F [] s

theorem stable_outKept (hst : Stable (OutRely size True) (OutAt size Φ)) :
    Stable (HandRely F size) fun s => OutAt size Φ s ∧ Kept F rest s :=
  fun s s' hR h => ⟨hst s s' hR.1 h.1, hR.2 rest h.2⟩

theorem stable_settled : Stable (HandRely F size) (Settled F size) := stable_outKept stable_outOpen

/-- With the flag clear nothing waits and no message is on its way; the interrupt leaves it clear. -/
theorem stable_clear :
    Stable (OutRely size True) (OutAt size fun v => OutOpen size g True [] v ∧ v.sending = false) := by
  refine stable_outAt (fun _ h => h.1.core.wf) fun hsize v v' h he => ⟨h.1.eff hsize he, ?_⟩
  have hc : v.completed.sending = false := by
    unfold OutView.completed
    rw [h.2, Bool.false_and]
  cases he with
  | same => exact h.2
  | answered => exact hc
  | dummied => exact hc
  | sent => exact hc

theorem kept_log {x : Obs} (h : OutAt size Φ s ∧ Kept F rest s) (h1 : x.NotOut) (h2 : x.handing = false) :
    OutAt size Φ (s.log x) ∧ Kept F rest (s.log x) :=
  ⟨h.1.congr rfl rfl (by rw [outView_log h1]; exact h.1.view), h.2.log h2⟩

theorem keeps_logKept {x : Obs} (h1 : x.NotOut) (h2 : x.handing = false) :
    Keeps (fun s => OutAt size Φ s ∧ Kept F rest s) (logObs x) := keeps_write fun _ h => kept_log h h1 h2

theorem keeps_assertKept (cond : Bool) (msg : String) :
    Keeps (fun s => OutAt size Φ s ∧ Kept F rest s) (assertDygma cond msg) :=
  .ite (keeps_pure _) (keeps_logKept trivial rfl)

/-- What `spils_data_send` returns is what it has observed last. -/
theorem wp_sendReturns {P : Sys → Prop} {Q : Result → Sys → Prop} {R : Sys → Sys → Prop}
    {pData : Option Bytes} {dataSize : ℕ} (frame : SendFrame P) (hst : Stable R P)
    (hQ : ∀ r, Stable R (Q r)) (hret : ∀ s r, P s → Q r (s.log (.sendRet pData dataSize r))) (h : P s) :
    wp R (fun _ => True) (spilsDataSend pData dataSize) Q s := by
  have hT : ∀ t : Sys, P t → True := fun _ _ => trivial
  have hkeep : ∀ {α : Type} {p : Code α} (t : Sys), Keeps P p → P t →
      wp R (fun _ => True) p (fun _ => P) t := fun t hk ht => wp_always_mono (wp_frame hst hk ht) hT
  have hend : ∀ (r : Result) (t : Sys), P t →
      wp R (fun _ => True) (returnSend pData dataSize r) Q t := fun r t ht =>
    wp_write hst hT ht fun u hu => wp_pure (hQ r) (fun _ _ => trivial) (hret u r hu)
  have hunlock : ∀ (r : Result) (t : Sys), P t →
      wp R (fun _ => True) (do mutexOutUnlock; returnSend pData dataSize r) Q t := fun r t ht =>
    wp_bind (wp_mono (hkeep t (frame.writeLink fun _ => rfl) ht) fun _ u hu => hend r u hu)
  unfold spilsDataSend
  refine wp_read hst hT h fun t ht => ?_
  by_cases hav : t.link.dataOutAvailable = true
  · rw [if_pos hav]
    exact hend _ t ht
  rw [if_neg hav]
  refine wp_bind (wp_mono (hkeep t frame.mutexOutTrylock ht) fun locked t ht => ?_)
  by_cases hl : locked = false
  · rw [if_pos hl]
    exact hend _ t ht
  rw [if_neg hl]
  refine wp_read hst hT ht fun t ht => ?_
  have hbuf := frame.isOut t ht
  refine wp_bind (wp_mono (hkeep t (frame.writeFilling _) ht) fun _ t ht => ?_)
  refine wp_bind (wp_mono (hkeep t (frame.messComposeData hbuf _ _) ht) fun r t ht => ?_)
  refine wp_bind (wp_mono (hkeep t (frame.writeFilling _) ht) fun _ t ht => ?_)
  by_cases hr : r = .err
  · rw [if_pos hr]
    exact hunlock r t ht
  · rw [if_neg hr]
    exact wp_bind (wp_mono (hkeep t (frame.writeLink fun _ => rfl) ht) fun _ u hu => hunlock r u hu)

/-- A packet taken with the flag clear is accepted. -/
theorem wp_sendPacket {p : Bytes} (behind : Bytes) (hasMore : Bool) (hlen : p.length = F.packetSize)
    (hsize : F.packetSize + 2 ≤ size) (hready : OutAt size (OutReady size g True) s)
    (hkept : Kept F [.txGet p] s) :
    wp (HandRely F size) (fun _ => True) (spilsDataSend (some (sealPacket F behind hasMore p)) F.packetSize)
      (fun r t => r = .ok ∧ OutAt size (OutOpen size g True []) t ∧ Kept F [] t) s := by
  have hfit : Fits size (some (sealPacket F behind hasMore p)) F.packetSize :=
    ⟨_, rfl, (length_sealPacket behind hasMore p).trans hlen, F.packetSize_pos, hsize⟩
  have hsend : wp (HandRely F size) _ _ _ s :=
    wp_anti (wp_spilsDataSend (fun _ => hfit) hready) fun _ _ hR => hR.1
  have hshape : Stable (HandRely F size) fun s => Shape size s ∧ Kept F [.txGet p] s :=
    fun _ _ hR h => ⟨hR.1.1 h.1, hR.2 _ h.2⟩
  have hlog := wp_sendReturns (R := HandRely F size)
    (Q := fun r => Kept F [.txGet p, .sendRet (some (sealPacket F behind hasMore p)) F.packetSize r])
    outFrame_kept.send hshape (fun r _ _ hR h => hR.2 _ h) (fun t r ht => ht.2.handing rfl)
    ⟨hready.shape, hkept⟩
  refine wp_mono (wp_always_mono (wp_and hsend hlog) fun _ _ => trivial) fun r t ht => ?_
  obtain ⟨⟨hok, hout⟩, hk⟩ := ht
  obtain rfl := hok trivial
  exact ⟨rfl, hout, Kept.accepted (q := ⟨p, hasMore, behind⟩) hk⟩

theorem wp_dataOutProcess (hsize : F.packetSize + 2 ≤ size)
    {behind : Bytes} (h : OutAt size (OutOpen size g True []) s ∧ Kept F [] s) :
    wp (HandRely F size) (fun _ => True) (dataOutProcess F behind)
      (fun _ s => OutAt size (OutOpen size g True []) s ∧ Kept F [] s) s := by
  have hopen : Stable (HandRely F size) fun s => OutAt size (OutOpen size g True []) s ∧ Kept F [] s :=
    stable_outKept stable_outOpen
  have hT : ∀ (P : Sys → Prop) (t : Sys), P t → True := fun _ _ _ => trivial
  have hdone : ∀ t, OutAt size (OutOpen size g True []) t ∧ Kept F [] t →
      wp (HandRely F size) (fun _ => True) (pure ())
        (fun _ s => OutAt size (OutOpen size g True []) s ∧ Kept F [] s) t :=
    fun t ht => wp_pure hopen (hT _) ht
  unfold dataOutProcess
  refine wp_read hopen (hT _) h fun t ht => ?_
  by_cases hs : t.slave.spilsDataOutSending = true
  · refine wp_read hopen (hT _) ht fun u hu => ?_
    rw [if_pos (.inl hs)]
    exact hdone u hu
  have hclear : t.slave.spilsDataOutSending = false := by simpa using hs
  have ht : OutAt size (fun v => OutOpen size g True [] v ∧ v.sending = false) t ∧ Kept F [] t :=
    ⟨⟨ht.1.shape, ht.1.view, hclear⟩, ht.2⟩
  refine wp_read (stable_outKept stable_clear) (hT _) ht fun u hu => ?_
  by_cases he : u.slave.spiTxFifo.isEmpty = true
  · rw [if_pos (.inr he)]
    exact hdone u ⟨hu.1.mono fun _ hv => hv.1, hu.2⟩
  rw [if_neg (not_or.mpr ⟨hs, he⟩)]
  -- the packet is taken
  refine wp_atomic (stable_outKept stable_clear) (hT _) hu fun t ht => ⟨_, _, rfl, ?_⟩
  obtain ⟨hqueue, hlen⟩ := ht.2.queue.get
  have hview : ∀ f x, outView (t.mapSlave fun p => { p with spiTxFifo := f }) = outView t ∧
      outView ((t.mapSlave fun p => { p with spiTxFifo := f }).log (.txGet x)) = outView t :=
    fun f x => ⟨rfl, outView_log (x := .txGet x) trivial⟩
  have hgot : OutAt size (fun v => OutOpen size g True [] v ∧ v.sending = false)
      ((t.mapSlave fun p => { p with spiTxFifo := t.slave.spiTxFifo.get.2 }).log
        (.txGet t.slave.spiTxFifo.get.1.2)) ∧
      Kept F [.txGet t.slave.spiTxFifo.get.1.2]
      ((t.mapSlave fun p => { p with spiTxFifo := t.slave.spiTxFifo.get.2 }).log
        (.txGet t.slave.spiTxFifo.get.1.2)) := by
    have hk : Kept F [] (t.mapSlave fun p => { p with spiTxFifo := t.slave.spiTxFifo.get.2 }) :=
      ⟨hqueue, ht.2.handed⟩
    refine ⟨ht.1.congr rfl rfl ?_, hk.handing rfl⟩
    rw [(hview _ _).2]
    exact ht.1.view
  generalize (t.mapSlave fun p => { p with spiTxFifo := t.slave.spiTxFifo.get.2 }).log
    (.txGet t.slave.spiTxFifo.get.1.2) = u at hgot ⊢
  generalize t.slave.spiTxFifo.get.1 = got at hgot hlen ⊢
  refine wp_bind (wp_mono (wp_always_mono (wp_frame (stable_outKept stable_clear)
    (keeps_assertKept _ _) hgot) (hT _)) fun _ t ht => ?_)
  refine wp_read (stable_outKept stable_clear) (hT _) ht fun u hu => ?_
  refine wp_bind (wp_mono (wp_always_mono (wp_frame (stable_outKept stable_clear)
    (keeps_logKept trivial rfl) hu) (hT _)) fun _ u hu => ?_)
  -- the flag is set in front of the call
  refine wp_write (stable_outKept stable_clear) (hT _) hu fun t ht => ?_
  have hready : OutAt size (OutReady size g True)
      (t.mapSlave fun p => { p with spilsDataOutSending := true }) := by
    obtain ⟨⟨⟨h1, h2, h3, h4, h5, h6⟩, h7, h8, h9, h10, h11, h12⟩, hf⟩ := ht.1.view
    have hreal : ¬(outView t).Real := fun hr =>
      absurd (hf.symm.trans (h12 trivial hr).2) (by decide)
    have hav := h11 trivial hf
    exact ht.1.congr rfl rfl ⟨⟨⟨h1, h2, h3, h4, h5, h6⟩, h7, h8, h9, h10,
      fun _ hs => Bool.noConfusion hs, fun _ hr => absurd hr hreal⟩, fun _ => hav, fun _ => rfl,
      fun _ => hreal⟩
  refine wp_bind (wp_mono (wp_sendPacket _ _ hlen hsize hready (ht.2.congr rfl rfl)) fun r t ht => ?_)
  obtain ⟨rfl, ht⟩ := ht
  refine wp_bind (wp_mono (wp_always_mono (wp_frame hopen
    (keeps_assertKept _ _) ht) (hT _)) fun _ t ht => ?_)
  rw [if_neg (not_not.mpr rfl)]
  exact hdone t ht

/-! ## The calls -/

/-- Assignment to the slave that leaves the queue in shape. -/
theorem kept_mapSlave {f : SpiSlave → SpiSlave} (h : OutAt size Φ s ∧ Kept F rest s)
    (hs : ∀ p, (f p).spilsDataOutSending = p.spilsDataOutSending)
    (hq : ∀ p : SpiSlave, p.spiTxFifo.Packets F → (f p).spiTxFifo.Packets F) :
    OutAt size Φ (s.mapSlave f) ∧ Kept F rest (s.mapSlave f) := by
  refine ⟨h.1.congr rfl rfl ?_, hq _ h.2.queue, h.2.handed⟩
  have hview : outView (s.mapSlave f) = outView s := by
    unfold outView
    rw [show (s.mapSlave f).slave = f s.slave from rfl, hs]
    rfl
  rw [hview]
  exact h.1.view

theorem keeps_writeKept {f : SpiSlave → SpiSlave} (hs : ∀ p, (f p).spilsDataOutSending = p.spilsDataOutSending)
    (hq : ∀ p : SpiSlave, p.spiTxFifo.Packets F → (f p).spiTxFifo.Packets F) :
    Keeps (fun s => OutAt size Φ s ∧ Kept F rest s) (writeSlave f) := keeps_write fun _ h => kept_mapSlave h hs hq

theorem dataInFrame_kept : DataInFrame (fun s => OutAt size Φ s ∧ Kept F rest s) where
  crcRange _ _ _ _ h := kept_log h trivial rfl
  put _ _ h := kept_mapSlave h (fun _ => rfl) fun _ hq => hq
  inFrame := inFrame_kept
  failed _ _ h := kept_log h trivial rfl
  availRead _ _ h := ⟨h.1.congr rfl rfl h.1.view, h.2.congr rfl rfl⟩
  received _ _ h := kept_mapSlave h (fun _ => rfl) fun _ hq => hq

end Process

/-! ## Every run -/

variable (F)

/-- What is known during a call: all of it, but inside `run`. -/
def HandedDuring (size : ℕ) : SlaveCall → Sys → Prop
  | .run _ => fun _ => True
  | .sendPacket _ | .readPacket => Settled F size

theorem outline_handed (size : ℕ) (hsize : F.packetSize + 2 ≤ size) :
    (slaveMachine F NotMistaken).Outline (fun s => Settled F size s ∧ Base size s)
      fun k s => HandedDuring F size k s ∧ Base size s := by
  refine Machine.Outline.within (R := HandRely F size) (stable_base _ rfl size)
    (fun k => (frame_base_only size).slaveProg F k) ?_ stable_settled fun k s h _ => ?_
  · rintro s s' hB ⟨i, hi, rfl⟩
    refine ⟨outRely_irq hB i fun _ e he hrec => ?_, fun rest h => h.irq hB i⟩
    subst he
    exact hi hrec
  have hframe : ∀ {p : Code Unit} (t : Sys), Keeps (Settled F size) p → Settled F size t →
      wp (HandRely F size) (Settled F size) p (fun _ => Settled F size) t :=
    fun t hk ht => wp_frame stable_settled hk ht
  cases k with
  | run stack =>
    have hpoll : Keeps (Settled F size) spilsPoll :=
      .bind conFrame_kept.conMachine fun _ => inFrame_kept.lineInBusyProcess
    refine wp_bind (wp_mono (wp_always_mono (hframe s hpoll h) fun _ _ => trivial) fun _ t ht => ?_)
    refine wp_bind (wp_mono (wp_always_mono (hframe t (dataInFrame_kept.dataInProcess _) ht) fun _ _ => trivial)
      fun _ u hu => wp_dataOutProcess hsize hu)
  | sendPacket packet => exact hframe s (keeps_writeKept (fun _ => rfl) fun _ hq => hq.put packet) h
  | readPacket =>
    exact hframe s (.bind (keeps_read _) fun _ => .ite (keeps_pure _)
      (keeps_writeKept (fun _ => rfl) fun _ hq => hq)) h

theorem kept_start (hw : Board) : Kept F [] (slaveStart F hw) := by
  obtain ⟨h, heq, -⟩ := start_eq (spiSlaveConf F) hw (.new F)
  have hs : (slaveStart F hw).slave = .new F ∧
      (slaveStart F hw).ghost.trace.filter Obs.handing = [] := by
    unfold slaveStart
    rw [heq]
    unfold Sys.rearm Sys.answer
    rw [prepared_eq (spiSlaveConf_ok F)]
    exact ⟨rfl, rfl⟩
  refine ⟨?_, [], hs.2⟩
  rw [hs.1]
  exact packets_new

/-- **No packet is dropped**: outside `Spi_slave::run` every packet taken from `spi_tx_fifo` has been
accepted by the link, and nothing waits there while `spils_data_out_sending` is clear, in every run in
which the dummy is not taken for a message. -/
theorem packets_accepted (hw : Board) {c : Cfg Sys SlaveCall}
    (hc : (slaveMachine F NotMistaken).Reach (slaveStart F hw) c) (hq : c.irq = none)
    (hout : OutsideRun c) :
    HandedOver F c.st.ghost.trace [] ∧
      (c.st.slave.spilsDataOutSending = false → c.st.link.dataOutAvailable = false) := by
  have hfits := F.fits
  have hpos := F.packetSize_pos
  set size := (spiSlaveConf F).messageSizeMax + 2 with hset
  have hsize : F.packetSize + 2 ≤ size := by
    have h8 : u8 (F.packetSize * 4) = F.packetSize * 4 := u8_of_lt (by omega)
    have hmax : (spiSlaveConf F).messageSizeMax = F.packetSize * 4 := h8
    omega
  have O := outline_handed F size hsize
  have hstart : Settled F size (slaveStart F hw) ∧ Base size (slaveStart F hw) :=
    ⟨⟨outAt_start (spiSlaveConf_ok F) hw _, kept_start F hw⟩, base_start (spiSlaveConf_ok F) hw _⟩
  obtain ⟨s, m, q⟩ := c
  obtain rfl : q = none := hq
  have hs : Settled F size s := by
    cases m with
    | none => exact (O.idle hstart hc).1
    | some kp =>
      obtain ⟨k, p⟩ := kp
      have hd := (O.during hstart hc).1
      cases k with
      | run stack => exact absurd rfl (hout stack p)
      | sendPacket packet => exact hd
      | readPacket => exact hd
  exact ⟨hs.2.handed, hs.1.view.flag trivial⟩

/-! ## The dummy -/

/-- One packet is queued, handed over and fetched by the master. -/
def sampleFetched : List (Act SlaveCall Irq) :=
  [.call (.sendPacket [7, 0]), .go 60, .call (.run ⟨fun _ => [], []⟩), .go 60, .irq (.edge (.of [2, 2])),
    .irq (.edge (.of [0, 0]))]

def sampleAccepted : Cfg Sys SlaveCall :=
  let c := (slaveMachine sampleFormat NotMistaken).play sampleFetched (sampleSlave, none)
  ⟨c.1, c.2, none⟩

theorem packets_accepted_fetched :
    sampleAccepted.st.slave.spiTxFifo.isEmpty = true ∧
      HandedOver sampleFormat sampleAccepted.st.ghost.trace [] ∧
      (sampleAccepted.st.slave.spilsDataOutSending = false →
        sampleAccepted.st.link.dataOutAvailable = false) := by
  have hreach : (slaveMachine sampleFormat NotMistaken).Reach sampleSlave sampleAccepted :=
    .play (c := (sampleSlave, none)) sampleFetched .init (by decide +kernel)
  exact ⟨by decide +kernel, packets_accepted sampleFormat ⟨8, true, true, 0⟩ hreach rfl
    (outsideRun_of_idle (by decide +kernel))⟩

/-- The master asks before anything is queued; a packet is handed over while the dummy is on its way,
and the transfer of the dummy ends. -/
def sampleDummy : List (Act SlaveCall Irq) :=
  [.irq (.edge (.of [2, 2])), .call (.sendPacket [7, 0]), .go 60, .call (.run ⟨fun _ => [], []⟩), .go 60,
    .irq (.edge (.of [0, 0]))]

/-- The flag is clear while a packet waits, and the next packet is taken and refused. -/
theorem packets_dropped :
    ∃ c d : Cfg Sys SlaveCall,
      (slaveMachine sampleFormat fun _ _ => True).Reach sampleSlave c ∧
      c.irq = none ∧ c.main = none ∧ c.st.slave.spilsDataOutSending = false ∧
      c.st.link.dataOutAvailable = true ∧
      (slaveMachine sampleFormat fun _ _ => True).Reach sampleSlave d ∧
      d.irq = none ∧ d.main = none ∧
      d.st.ghost.trace.filter Obs.handing =
        [.txGet [7, 0], .sendRet (some [0, 0]) 2 .ok, .txGet [8, 0], .sendRet (some [0, 0]) 2 .busy] ∧
      d.st.slave.spiTxFifo.isEmpty = true := by
  have hfree := Machine.allowed_of_free (M := slaveMachine sampleFormat fun _ _ => True)
    (fun _ _ => trivial) fun _ _ => trivial
  refine ⟨_, _, .play (c := (sampleSlave, none)) sampleDummy .init (hfree _ _), rfl, ?_, ?_, ?_,
    .play (c := (sampleSlave, none))
      (sampleDummy ++ [.call (.sendPacket [8, 0]), .go 60, .call (.run ⟨fun _ => [], []⟩), .go 60]) .init
      (hfree _ _),
    rfl, ?_, ?_, ?_⟩
  · decide +kernel
  · decide +kernel
  · decide +kernel
  · decide +kernel
  · decide +kernel
  · decide +kernel

end NeuronWired
