import NeuronWired.Interrupt.History
import NeuronWired.PortReads

/-!
# PortSends — what `SpiPort::sendPacket` answers

`put` says whether there was room, and `sendPacket` answers true in any case.  A history beside the machine
holds every call of `sendPacket` with its answer, and every packet that left `tx_fifo`, at whatever point of
whatever call.  What left the queue and what is in it are the packets that found room; they are the packets
promised as long as every packet found room.
-/

namespace NeuronWired

open Interrupt

/-! ## The calls of the sender -/

/-- `SpiPort::sendPacket` with its answer. -/
def sendPacketAnswer (packet : Bytes) : Code Bool := do
  sendPacket packet
  pure true

/-- The loop of `SpiPort::clearSend`, at most `n` rounds of it. -/
def clearSendRounds : ℕ → Code Unit
  | 0 => pure ()
  | n + 1 => do
    let empty ← readSlave (·.spiTxFifo.isEmpty)
    if empty = true then pure ()
    else
      writeSlave fun p => { p with spiTxFifo := p.spiTxFifo.removeOne.2 }
      clearSendRounds n

/-- `SpiPort::clearSend`; the rounds are as many as there are bytes in the queue, at most. -/
def clearSend : Code Unit := do
  let bytes ← readSlave (·.spiTxFifo.index.toNat)
  clearSendRounds bytes

/-- The calls of a port that concern `tx_fifo`. -/
inductive SendCall (F : PacketFormat) where
  | run (stack : Stack)
  | sendPacket (packet : Item F.packetSize)
  | clearSend

section Sends

variable (F : PacketFormat)

/-- The program of a call. -/
def sendProg : SendCall F → Code Unit
  | .run stack => spiSlaveRun F stack
  | .sendPacket packet => do let _ ← sendPacketAnswer packet.1
  | .clearSend => clearSend

/-- The port under any calls and any interrupts. -/
def sendMachine : Machine Sys (SendCall F) Irq :=
  { call := sendProg F, irq := irqProg, callOk := fun _ _ => True, irqOk := fun _ _ => True }

/-! ## The history -/

/-- A call of `sendPacket`: whether `tx_fifo` was full, and the answer. -/
structure Sent where
  packet : Bytes
  full : Bool
  answer : Bool
  deriving DecidableEq, Repr

/-- The calls of `sendPacket`, and the packets that left `tx_fifo`. -/
structure Sends where
  calls : List Sent
  gone : List Bytes
  deriving DecidableEq, Repr

/-- The packets for which `sendPacket` returned true. -/
def Sends.promised (h : Sends) : List Bytes := (h.calls.filter Sent.answer).map Sent.packet

/-- The packets that found room. -/
def Sends.queued (h : Sends) : List Bytes := (h.calls.filter fun x => !x.full).map Sent.packet

theorem Sends.queued_append (h : Sends) (c : Sent) : Sends.queued { h with calls := h.calls ++ [c] } =
    h.queued ++ if c.full = true then [] else [c.packet] := by
  unfold Sends.queued
  rw [List.filter_append, List.map_append]
  cases hc : c.full <;> simp [hc]

/-- A call of `sendPacket` is entered with its answer, and a packet when the queue gets shorter. -/
def sendRecorder : Recorder Sys (SendCall F) Irq Sends where
  call
    | .sendPacket packet => fun s h =>
      { h with calls := h.calls ++
          [⟨packet.1, s.slave.spiTxFifo.isFull, ((sendPacketAnswer packet.1).run s).1⟩] }
    | _ => fun _ h => h
  step s s' h :=
    if s'.slave.spiTxFifo.numItems < s.slave.spiTxFifo.numItems then
      { h with gone := h.gone ++ [s.slave.spiTxFifo.peek.2] }
    else h
  irq _ _ h := h

/-- The port beside its history. -/
abbrev sendHistory : Machine (Sys × Sends) (SendCall F) Irq := (sendMachine F).recorded (sendRecorder F)

/-- Nothing has been sent. -/
def Sends.none : Sends := ⟨[], []⟩

/-! ## What is claimed -/

/-- What left `tx_fifo` and what is in it are the packets promised, in order. -/
def PromiseKept (x : Sys × Sends) : Prop :=
  x.2.gone ++ x.1.slave.spiTxFifo.contents = x.2.promised

/-- A packet that did not fit was answered with false. -/
def RefusalsTold (x : Sys × Sends) : Prop := ∀ c ∈ x.2.calls, c.full = true → c.answer = false

/-- Every packet found room. -/
def AllFitted (x : Sys × Sends) : Prop := ∀ c ∈ x.2.calls, c.full = false

instance (x : Sys × Sends) : Decidable (AllFitted x) := inferInstanceAs (Decidable (∀ c ∈ _, _))

end Sends

/-! ## The queue -/

section Queue

variable {n : ℕ} {f : FifoBuffer} {items : List (Item n)}

theorem FifoBuffer.Holds.isFull (h : f.Holds items) (hn : n ≤ internalBufferSize) :
    f.isFull = decide (internalBufferSize < (items.length + 1) * n) := by
  unfold FifoBuffer.isFull
  rw [h.u32_index hn]

theorem isEmpty_false (h : f.Holds items) (hpos : 0 < n) (he : ¬f.isEmpty = true) :
    ∃ x rest, items = x :: rest := by
  rw [h.isEmpty hpos] at he
  cases items with
  | nil => exact absurd List.isEmpty_nil he
  | cons x rest => exact ⟨x, rest, rfl⟩

end Queue

/-! ## What leaves the queue alone -/

section Aside

variable {F : PacketFormat} {size : ℕ} {f : FifoBuffer} {s : Sys}

/-- The queue is `f`. -/
def TxIs (size : ℕ) (f : FifoBuffer) (s : Sys) : Prop := Base size s ∧ s.slave.spiTxFifo = f

theorem TxIs.log (h : TxIs size f s) (x : Obs) : TxIs size f (s.log x) := ⟨h.1.congr rfl rfl rfl, h.2⟩

theorem TxIs.event (h : TxIs size f s) (e : SpilsEventType) :
    TxIs size f ((s.mapSlave (spilsEventHandler e)).log (.event e)) := by
  have hs : TxIs size f (s.mapSlave (spilsEventHandler e)) :=
    ⟨h.1.congr rfl rfl rfl, by cases e <;> exact h.2⟩
  exact hs.log _

theorem TxIs.irq (h : TxIs size f s) (i : Irq) : TxIs size f ((irqProg i).run s).2 :=
  ⟨h.1.run_irq i, (h.1.field_irq SpiSlave.spiTxFifo (fun e _ => by cases e <;> rfl) i).trans h.2⟩

theorem conFrame_tx : ConFrame (TxIs size f) where
  link s g hg h := ⟨(frame_base_only size).con.link s g hg h.1, h.2⟩
  event _ e _ h := h.event e

theorem inFrame_tx : InFrame (TxIs size f) where
  isIn s h := (frame_base_only size).isIn s h.1
  link s g hg hp hc h := ⟨(frame_base_only size).inFrame.link s g hg hp hc h.1, h.2⟩
  buf s i b _ hb h := ⟨(frame_base_only size).buf s i b hb h.1, h.2⟩
  swapIn _ _ h := ⟨h.1.congr rfl rfl rfl, h.2⟩
  reading _ _ h := ⟨h.1.congr rfl rfl rfl, h.2⟩
  event _ h := h.event _
  log _ x _ h := h.log x

theorem outFrame_tx : OutFrame (TxIs size f) where
  isOut s h := (frame_base_only size).isOut s h.1
  link s g hg h := ⟨(frame_base_only size).outFrame.link s g hg h.1, h.2⟩
  buf s i b _ hb h := ⟨(frame_base_only size).buf s i b hb h.1, h.2⟩
  filling _ _ h := ⟨h.1.congr rfl rfl rfl, h.2⟩
  failed _ _ h := h.log _

theorem TxIs.mapSlave {g : SpiSlave → SpiSlave} (h : TxIs size f s) (hg : ∀ p, (g p).spiTxFifo = p.spiTxFifo) :
    TxIs size f (s.mapSlave g) := ⟨h.1.congr rfl rfl rfl, (hg _).trans h.2⟩

theorem keeps_writeTx {g : SpiSlave → SpiSlave} (hg : ∀ p, (g p).spiTxFifo = p.spiTxFifo) :
    Keeps (TxIs size f) (writeSlave g) := keeps_write fun _ h => h.mapSlave hg

theorem keeps_logTx (x : Obs) : Keeps (TxIs size f) (logObs x) := keeps_write fun _ h => h.log x

theorem keeps_pollTx : Keeps (TxIs size f) spilsPoll :=
  .bind conFrame_tx.conMachine fun _ => inFrame_tx.lineInBusyProcess

theorem dataInFrame_tx : DataInFrame (TxIs size f) where
  crcRange _ _ _ _ h := h.log _
  put _ _ h := h.mapSlave fun _ => rfl
  inFrame := inFrame_tx
  failed _ _ h := h.log _
  availRead _ _ h := ⟨h.1.congr rfl rfl rfl, h.2⟩
  received _ _ h := h.mapSlave fun _ => rfl

end Aside

/-! ## The books -/

section Books

variable {F : PacketFormat} {size : ℕ} {f : FifoBuffer} {items : List (Item F.packetSize)}
  {s s' : Sys} {h : Sends} {x : Sys × Sends}

/-- What left the queue and the items in it are the packets that found room, and every call was answered
with true. -/
def Booked (items : List (Item F.packetSize)) (h : Sends) : Prop :=
  h.gone ++ items.map Subtype.val = h.queued ∧ ∀ c ∈ h.calls, c.answer = true

/-- The queue is `f`, and the books agree with the items in it. -/
def Settling (size : ℕ) (f : FifoBuffer) (items : List (Item F.packetSize)) (x : Sys × Sends) : Prop :=
  TxIs size f x.1 ∧ Booked items x.2

/-- At every point of every run. -/
def Balanced (F : PacketFormat) (size : ℕ) (x : Sys × Sends) : Prop :=
  ∃ (f : FifoBuffer) (items : List (Item F.packetSize)), f.Holds items ∧ Settling size f items x

theorem Settling.balanced (hf : f.Holds items) (h : Settling size f items x) : Balanced F size x :=
  ⟨f, items, hf, h⟩

/-- Nothing is entered while the queue stays the same. -/
theorem sendRecorder_step (h : Sends) (hs : s'.slave.spiTxFifo = s.slave.spiTxFifo) :
    (sendRecorder F).step s s' h = h := if_neg (by rw [hs]; exact Int.lt_irrefl _)

theorem stable_settling : Stable (sendHistory F).Rely (Settling size f items) := by
  intro x x' hR hx
  obtain ⟨i, -, hst, hh⟩ := Machine.rely_recorded hR
  have hsame : x'.2 = x.2 := hh.elim id id
  unfold Settling
  rw [hst, hsame]
  exact ⟨hx.1.irq i, hx.2⟩

theorem stable_balanced : Stable (sendHistory F).Rely (Balanced F size) :=
  Stable.exists fun _ => Stable.exists fun _ => Stable.const_and _ stable_settling

/-- Code that leaves the queue alone. -/
theorem wp_settling {α : Type} {p : Code α} (hf : f.Holds items) (hp : Keeps (TxIs size f) p)
    (hx : Settling size f items x) :
    wp (sendHistory F).Rely (Balanced F size) (p.beside (sendRecorder F).step)
      (fun _ => Settling size f items) x := by
  have hkeep : Keeps (Settling size f items) (p.beside (sendRecorder F).step) :=
    hp.beside (K := Booked items) fun s s' e hs hs' he => by
      rw [sendRecorder_step e (hs'.2.trans hs.2.symm)]
      exact he
  exact wp_always_mono (wp_frame stable_settling hkeep hx) fun _ => Settling.balanced hf

/-- The oldest packet leaves the queue. -/
theorem Booked.leave {x : Item F.packetSize} (hf : f.Holds (x :: items)) (hb : Booked (x :: items) h)
    {f' : FifoBuffer} (hf' : f'.Holds items) (hs : s.slave.spiTxFifo = f)
    (hs' : s'.slave.spiTxFifo = f') : Booked items ((sendRecorder F).step s s' h) := by
  have hlt : s'.slave.spiTxFifo.numItems < s.slave.spiTxFifo.numItems := by
    rw [hs, hs', hf.numItems, hf'.numItems, List.length_cons]
    omega
  have hstep : (sendRecorder F).step s s' h = { h with gone := h.gone ++ [x.1] } := by
    rw [show (sendRecorder F).step s s' h = { h with gone := h.gone ++ [s.slave.spiTxFifo.peek.2] } from
      if_pos hlt, hs, hf.peek F.packetSize_pos]
  obtain ⟨hgone, hanswers⟩ := hb
  rw [hstep]
  refine ⟨?_, hanswers⟩
  rw [List.map_cons] at hgone
  show h.gone ++ [x.1] ++ items.map Subtype.val = h.queued
  rw [List.append_assoc]
  exact hgone

/-! ### The calls -/

theorem wp_dataOutTx {behind : Bytes} (hf : f.Holds items) (hx : Settling size f items x) :
    wp (sendHistory F).Rely (Balanced F size) ((dataOutProcess F behind).beside (sendRecorder F).step)
      (fun _ => Balanced F size) x := by
  have hbal : ∀ y, Settling size f items y → Balanced F size y := fun _ => Settling.balanced hf
  have hread : ∀ s e, Settling size f items (s, e) →
      Settling size f items (s, (sendRecorder F).step s s e) := fun s e hs => by
    rw [sendRecorder_step e rfl]
    exact hs
  unfold dataOutProcess
  refine wp_recorded_read stable_settling hbal hx fun s e hs => ?_
  refine wp_recorded_read stable_settling hbal (hread s e hs) fun t e ht => ?_
  have ht := hread t e ht
  split
  · exact wp_pure stable_balanced (fun _ h => h) (hbal _ ht)
  · -- the packet is taken; the rest of the call leaves the queue alone
    refine wp_recorded_atomic stable_settling hbal ht fun u e hu => ?_
    obtain ⟨f', items', hf', hu'⟩ : Balanced F size
        ((u.mapSlave fun p => { p with spiTxFifo := u.slave.spiTxFifo.get.2 }).log
          (.txGet u.slave.spiTxFifo.get.1.2),
        (sendRecorder F).step u ((u.mapSlave fun p => { p with spiTxFifo := u.slave.spiTxFifo.get.2 }).log
          (.txGet u.slave.spiTxFifo.get.1.2)) e) := by
      obtain ⟨⟨hB, htx⟩, hbook⟩ := hu
      have hB' : Base size ((u.mapSlave fun p => { p with spiTxFifo := u.slave.spiTxFifo.get.2 }).log
          (.txGet u.slave.spiTxFifo.get.1.2)) := hB.congr rfl rfl rfl
      have htx' : ((u.mapSlave fun p => { p with spiTxFifo := u.slave.spiTxFifo.get.2 }).log
          (.txGet u.slave.spiTxFifo.get.1.2)).slave.spiTxFifo = f.get.2 := by rw [← htx]; rfl
      cases items with
      | nil =>
        have hsame : f.get.2 = f := by rw [hf.get_empty F.packetSize_pos]
        refine ⟨f, [], hf, ⟨hB', htx'.trans hsame⟩, ?_⟩
        rw [sendRecorder_step e (htx'.trans (hsame.trans htx.symm))]
        exact hbook
      | cons y items =>
        have hrest := (hf.get F.packetSize_pos).2
        exact ⟨f.get.2, items, hrest, ⟨hB', htx'⟩, hbook.leave hf hrest htx htx'⟩
    refine wp_mono (wp_settling hf' ?_ hu') fun _ _ => Settling.balanced hf'
    exact .bind (outFrame_tx.assertDygma _ _) fun _ => .bind (keeps_read _) fun _ =>
      .bind (keeps_logTx _) fun _ => .bind (keeps_writeTx fun _ => rfl) fun _ =>
        .bind (outFrame_tx.spilsDataSend fun _ _ hs => hs.log _) fun _ =>
          .bind (outFrame_tx.assertDygma _ _) fun _ => .ite (keeps_writeTx fun _ => rfl) (keeps_pure _)

theorem wp_clearSendRounds (n : ℕ) (hf : f.Holds items) (hx : Settling size f items x) :
    wp (sendHistory F).Rely (Balanced F size) ((clearSendRounds n).beside (sendRecorder F).step)
      (fun _ => Balanced F size) x := by
  induction n generalizing f items x with
  | zero => exact wp_pure stable_balanced (fun _ h => h) (hx.balanced hf)
  | succ n ih =>
    have hbal : ∀ y, Settling size f items y → Balanced F size y := fun _ => Settling.balanced hf
    unfold clearSendRounds
    refine wp_recorded_read stable_settling hbal hx fun s e hs => ?_
    have hs : Settling size f items (s, (sendRecorder F).step s s e) := by
      rw [sendRecorder_step e rfl]
      exact hs
    by_cases hempty : s.slave.spiTxFifo.isEmpty = true
    · rw [if_pos hempty]
      exact wp_pure stable_balanced (fun _ h => h) (hbal _ hs)
    rw [if_neg hempty]
    rw [hs.1.2] at hempty
    obtain ⟨y, rest, rfl⟩ := isEmpty_false hf F.packetSize_pos hempty
    have hrest := hf.forward F.packetSize_pos
    refine wp_recorded_write stable_settling hbal hs fun t e ht => ih hrest ?_
    have htx : (t.mapSlave fun p => { p with spiTxFifo := p.spiTxFifo.removeOne.2 }).slave.spiTxFifo =
        f.forwardFifo.dropCounters := by
      rw [← ht.1.2]
      rfl
    exact ⟨⟨ht.1.1.congr rfl rfl rfl, htx⟩, ht.2.leave hf hrest ht.1.2 htx⟩

/-- The rounds of `clearSend` suffice. -/
theorem run_clearSendRounds {n : ℕ} (h : s.slave.spiTxFifo.Holds items) (hn : items.length ≤ n) :
    ((clearSendRounds n).run s).2.slave.spiTxFifo.Holds ([] : List (Item F.packetSize)) := by
  induction items generalizing n s with
  | nil =>
    cases n with
    | zero => exact h
    | succ n =>
      have hempty : s.slave.spiTxFifo.isEmpty = true := h.isEmpty F.packetSize_pos
      unfold clearSendRounds
      rw [Prog.run_bind, run_readSlave, if_pos hempty]
      exact h
  | cons y items ih =>
    rw [List.length_cons] at hn
    obtain ⟨n, rfl⟩ : ∃ m, n = m + 1 := ⟨n - 1, by omega⟩
    have hfull : ¬s.slave.spiTxFifo.isEmpty = true := by
      rw [h.isEmpty F.packetSize_pos]
      exact Bool.false_ne_true
    unfold clearSendRounds
    rw [Prog.run_bind, run_readSlave, if_neg hfull, Prog.run_bind, run_writeSlave]
    exact ih (h.forward F.packetSize_pos) (by omega)

/-- `clearSend` leaves an empty queue. -/
theorem run_clearSend (h : s.slave.spiTxFifo.Holds items) :
    (clearSend.run s).2.slave.spiTxFifo.Holds ([] : List (Item F.packetSize)) := by
  have hbytes : items.length ≤ s.slave.spiTxFifo.index.toNat := by
    rw [h.index, Int.toNat_natCast]
    exact Nat.le_mul_of_pos_right _ F.packetSize_pos
  exact run_clearSendRounds h hbytes

/-- One call of `sendPacket`. -/
theorem Booked.send (packet : Item F.packetSize) (hf : f.Holds items) (hx : Settling size f items x) :
    Balanced F size (((sendPacket packet.1).run x.1).2,
      (sendRecorder F).step x.1 ((sendPacket packet.1).run x.1).2
        ((sendRecorder F).call (.sendPacket packet) x.1 x.2)) := by
  obtain ⟨⟨hB, htx⟩, hgone, hanswers⟩ := hx
  have hn : F.packetSize ≤ internalBufferSize := by
    have := F.fits
    unfold internalBufferSize
    omega
  have hB' : Base size ((sendPacket packet.1).run x.1).2 := hB.congr rfl rfl rfl
  have htx' : ((sendPacket packet.1).run x.1).2.slave.spiTxFifo = (f.put packet.1).2 := by
    rw [← htx]
    rfl
  have hcall : (sendRecorder F).call (.sendPacket packet) x.1 x.2 =
      { x.2 with calls := x.2.calls ++
        [⟨packet.1, decide (internalBufferSize < (items.length + 1) * F.packetSize), true⟩] } := by
    rw [← hf.isFull hn, ← htx]
    rfl
  have htold : ∀ c ∈ ((sendRecorder F).call (.sendPacket packet) x.1 x.2).calls, c.answer = true := by
    rw [hcall]
    intro c hc
    rcases List.mem_append.mp hc with hc | hc
    · exact hanswers c hc
    · rw [List.mem_singleton.mp hc]
  by_cases hfull : internalBufferSize < (items.length + 1) * F.packetSize
  · rw [hf.put_full hn packet.1 hfull] at htx'
    rw [sendRecorder_step _ (htx'.trans htx.symm)]
    refine ⟨f, items, hf, ⟨hB', htx'⟩, ?_, htold⟩
    rw [hcall, Sends.queued_append, if_pos (decide_eq_true hfull), List.append_nil]
    exact hgone
  · have hput := (hf.put F.packetSize_pos packet (Nat.le_of_not_lt hfull)).2
    have hmore : (sendRecorder F).step x.1 ((sendPacket packet.1).run x.1).2
        ((sendRecorder F).call (.sendPacket packet) x.1 x.2) =
          (sendRecorder F).call (.sendPacket packet) x.1 x.2 := by
      refine if_neg ?_
      rw [htx', htx, hput.numItems, hf.numItems, List.length_append]
      simp
    rw [hmore]
    refine ⟨_, items ++ [packet], hput, ⟨hB', htx'⟩, ?_, htold⟩
    rw [hcall, Sends.queued_append, if_neg (by simpa using Nat.le_of_not_lt hfull), List.map_append,
      ← List.append_assoc, hgone]
    rfl

end Books

/-! ## Every run -/

section Runs

variable {F : PacketFormat} {size : ℕ} {x : Sys × Sends}

/-- The books balance at every point of every interleaving. -/
theorem outline_sends (size : ℕ) :
    (sendHistory F).Outline (Balanced F size) fun _ => Balanced F size where
  stable := stable_balanced
  call := by
    rintro k x ⟨f, items, hf, hx⟩ -
    cases k with
    | run stack =>
      show wp _ _ ((spiSlaveRun F stack).beside (sendRecorder F).step) _ x
      unfold spiSlaveRun
      rw [Prog.beside_bind]
      refine wp_bind (wp_mono (wp_settling hf keeps_pollTx hx) fun _ y hy => ?_)
      rw [Prog.beside_bind]
      exact wp_bind (wp_mono (wp_settling hf (dataInFrame_tx.dataInProcess _) hy) fun _ z hz => wp_dataOutTx hf hz)
    | sendPacket packet =>
      refine wp_step stable_settling (fun _ => Settling.balanced hf) hx fun y hy => ?_
      exact wp_pure stable_balanced (fun _ h => h) (Booked.send packet hf hy)
    | clearSend =>
      show wp _ _ (clearSend.beside (sendRecorder F).step) _ x
      unfold clearSend
      refine wp_recorded_read stable_settling (fun _ => Settling.balanced hf) hx fun s e hs => ?_
      refine wp_clearSendRounds _ hf ?_
      rw [sendRecorder_step e rfl]
      exact hs

theorem balanced_start (hw : Board) :
    Balanced F ((spiSlaveConf F).messageSizeMax + 2) (slaveStart F hw, Sends.none) := by
  have htx : (slaveStart F hw).slave.spiTxFifo = .new F.packetSize := by
    obtain ⟨h, heq, -⟩ := start_eq (spiSlaveConf F) hw (.new F)
    unfold slaveStart
    rw [heq]
    unfold Sys.rearm Sys.answer
    rw [prepared_eq (spiSlaveConf_ok F)]
    rfl
  exact ⟨_, [], FifoBuffer.holds_new _, ⟨base_start (spiSlaveConf_ok F) hw (.new F), htx⟩, rfl,
    fun c hc => by cases hc⟩

theorem Balanced.kept_iff (h : Balanced F size x) : PromiseKept x ↔ AllFitted x := by
  obtain ⟨f, items, hf, ⟨-, htx⟩, hgone, hanswers⟩ := h
  have hpromised : x.2.promised = x.2.calls.map Sent.packet :=
    congrArg (List.map Sent.packet) (List.filter_eq_self.mpr hanswers)
  unfold PromiseKept AllFitted
  rw [htx, hf.contents, hgone, hpromised]
  unfold Sends.queued
  constructor
  · intro heq c hc
    have hlen := congrArg List.length heq
    rw [List.length_map, List.length_map, List.length_filter_eq_length_iff] at hlen
    simpa using hlen c hc
  · intro hfit
    congr 1
    exact List.filter_eq_self.mpr fun c hc => by rw [hfit c hc]; rfl

theorem Balanced.told_iff (h : Balanced F size x) : RefusalsTold x ↔ AllFitted x := by
  obtain ⟨f, items, hf, -, -, hanswers⟩ := h
  constructor
  · intro htold c hc
    cases hfull : c.full with
    | false => rfl
    | true =>
      have hno := htold c hc hfull
      rw [hanswers c hc] at hno
      cases hno
  · intro hfit c hc hfull
    rw [hfit c hc] at hfull
    cases hfull

/-- **Truthful sending**: what left `tx_fifo` and what is in it are the packets promised, each once and in
order, in exactly the runs in which every packet found room; and only in those was no packet that did not
fit answered with true. -/
theorem promise_kept_iff (hw : Board) {c : Cfg (Sys × Sends) (SendCall F)}
    (hc : (sendHistory F).Reach (slaveStart F hw, .none) c) (hq : c.irq = none) :
    (PromiseKept c.st ↔ AllFitted c.st) ∧ (RefusalsTold c.st ↔ AllFitted c.st) := by
  have hbal : Balanced F ((spiSlaveConf F).messageSizeMax + 2) c.st :=
    (outline_sends _).always (balanced_start hw) (fun _ h => h) (fun _ _ h => h) hc hq
  exact ⟨hbal.kept_iff, hbal.told_iff⟩

/-- A schedule, from the start on an idle board. -/
def sendPlay (F : PacketFormat) (acts : List (Act (SendCall F) Irq)) :
    (Sys × Sends) × Option (SendCall F × Prog (Sys × Sends) Unit) :=
  (sendHistory F).play acts ((slaveStart F ⟨8, true, true, 0⟩, .none), none)

theorem reach_sendPlay (F : PacketFormat) (acts : List (Act (SendCall F) Irq)) :
    (sendHistory F).Reach (slaveStart F ⟨8, true, true, 0⟩, .none)
      ⟨(sendPlay F acts).1, (sendPlay F acts).2, none⟩ :=
  .play acts .init (Machine.allowed_of_free (fun _ _ => trivial) (fun _ _ => trivial) acts _)

/-- Three packets: the first is sent, the second removed, and the third stays. -/
def sampleSends : List (Act (SendCall sampleFormat) Irq) :=
  [.call (.sendPacket ⟨[7, 0], rfl⟩), .go 9, .call (.run ⟨fun _ => [], []⟩), .go 60,
    .call (.sendPacket ⟨[8, 0], rfl⟩), .go 9, .call .clearSend, .go 9, .call (.sendPacket ⟨[9, 0], rfl⟩), .go 9]

theorem promise_kept_three : (sendPlay sampleFormat sampleSends).1.2.gone = [[7, 0], [8, 0]] ∧
    PromiseKept (sendPlay sampleFormat sampleSends).1 ∧ RefusalsTold (sendPlay sampleFormat sampleSends).1 := by
  have hfit : AllFitted (sendPlay sampleFormat sampleSends).1 := by decide +kernel
  obtain ⟨hkept, htold⟩ := promise_kept_iff ⟨8, true, true, 0⟩ (reach_sendPlay sampleFormat sampleSends) rfl
  exact ⟨by decide +kernel, hkept.mpr hfit, htold.mpr hfit⟩

/-- Forty-eight packets of 63 bytes, and nobody asks for them. -/
def fullSends : List (Act (SendCall wideFormat) Irq) :=
  (List.replicate 48 [.call (.sendPacket ⟨List.replicate 63 0, rfl⟩), .go 9]).flatten

/-- The queue holds 47 of them; the last one was answered with true and is nowhere. -/
theorem promise_broken : ∃ c : Cfg (Sys × Sends) (SendCall wideFormat),
    (sendHistory wideFormat).Reach (slaveStart wideFormat ⟨8, true, true, 0⟩, .none) c ∧ c.irq = none ∧
      c.main.isNone = true ∧ c.st.2.promised.length = 48 ∧ c.st.2.gone = [] ∧
      c.st.1.slave.spiTxFifo.getNumItems = 47 ∧ ¬PromiseKept c.st ∧ ¬RefusalsTold c.st := by
  refine ⟨_, reach_sendPlay wideFormat fullSends, rfl, by decide +kernel, by decide +kernel,
    by decide +kernel, by decide +kernel, fun h => ?_, fun h => ?_⟩
  · have hlen := congrArg List.length h
    rw [List.length_append, FifoBuffer.contents, length_slices] at hlen
    exact absurd hlen (by decide +kernel)
  · have hlast : ⟨List.replicate 63 0, true, true⟩ ∈ (sendPlay wideFormat fullSends).1.2.calls := by
      decide +kernel
    exact absurd (h _ hlast rfl) (by decide)

end Runs

end NeuronWired
