import NeuronWired.System
import NeuronWired.Wire

/-!
# Frame — which code of the main loop can disturb what

The connection machine, the inbound code and the outbound code write different parts of the state.
Each has its frame: an assertion that meets the frame is kept by every step of that code.  `Frame`
is for assertions that none of the three can disturb.
-/

namespace NeuronWired

open Interrupt

/-- The two input buffers. -/
def BufId.isIn : BufId → Bool
  | .b0 | .b1 => true
  | .b2 | .b3 => false

theorem BufId.ne_of_isIn {i j : BufId} (hi : i.isIn = true) (hj : j.isIn = false) : i ≠ j := by
  rintro rfl
  rw [hi] at hj
  cases hj

/-- Three input buffers are two. -/
theorem BufId.isIn_cases {i j k : BufId} (hi : i.isIn = true) (hj : j.isIn = true)
    (hk : k.isIn = true) (h : j ≠ k) : i = j ∨ i = k := by
  cases i <;> cases j <;> cases k <;> simp_all [BufId.isIn]

/-- A field that an erasure leaves alone is the same in links that agree up to the erasure. -/
theorem Spils.field_eq {β : Type} {l l' : Spils} {e : Spils → Spils} (h : e l' = e l)
    (field : Spils → β) (hf : ∀ l, field (e l) = field l) : field l' = field l := by
  rw [← hf l', h, hf l]

/-! ## The connection machine -/

/-- The link without the fields that the connection machine writes. -/
def Spils.sansCon (l : Spils) : Spils :=
  { l with conState := .unknown, connectionDetected := false, disconnectTimer := 0 }

/-- Assertions that the connection machine cannot disturb. -/
structure ConFrame (P : Sys → Prop) : Prop where
  link : ∀ s f, (f s.link).sansCon = s.link.sansCon → P s → P (s.mapLink f)
  event : ∀ s e, e = .connected ∨ e = .disconnected → P s →
    P ((s.mapSlave (spilsEventHandler e)).log (.event e))

namespace ConFrame

variable {P : Sys → Prop} (F : ConFrame P)
include F

theorem writeLink {f : Spils → Spils} (hf : ∀ l, (f l).sansCon = l.sansCon) : Keeps P (writeLink f) :=
  keeps_write fun s hs => F.link s f (hf _) hs

theorem disconnectTimerReset : Keeps P disconnectTimerReset :=
  .bind (keeps_read _) fun _ => .bind (keeps_read _) fun _ => F.writeLink fun _ => rfl

omit F in
theorem timerCheck : Keeps P timerCheck :=
  .bind (keeps_read _) fun _ => .bind (keeps_read _) fun _ => keeps_pure _

theorem setConnected : Keeps P conStateSetConnected :=
  .bind F.disconnectTimerReset fun _ => .bind (F.writeLink fun _ => rfl) fun _ =>
    keeps_write fun s hs => F.event s _ (.inl rfl) hs

theorem setDisconnected : Keeps P conStateSetDisconnected :=
  .bind (F.writeLink fun _ => rfl) fun _ => .bind (F.writeLink fun _ => rfl) fun _ =>
    keeps_write fun s hs => F.event s _ (.inr rfl) hs

theorem connectedExpire : Keeps P conStateConnectedExpire :=
  .bind timerCheck fun _ => .ite F.setDisconnected (keeps_pure _)

/-- `_con_machine`. -/
theorem conMachine : Keeps P conMachine := by
  refine .bind (keeps_read _) fun c => ?_
  cases c with
  | unknown => exact .bind (keeps_read _) fun _ => .ite F.setConnected F.connectedExpire
  | disconnected => exact .bind (keeps_read _) fun _ => .ite F.setConnected (keeps_pure _)
  | connected =>
    exact .bind (keeps_read _) fun _ => .ite (.bind F.disconnectTimerReset fun _ =>
      .bind (F.writeLink fun _ => rfl) fun _ => F.connectedExpire) F.connectedExpire

end ConFrame

/-! ## The inbound code -/

/-- The link without the fields that the inbound code of the main loop writes. -/
def Spils.sansIn (l : Spils) : Spils :=
  { l with pBufferIn := .b0, pBufferInCache := .b0, mutexIn := false
           dataInAvailable := false, lineInBusy := false }

/-- What the inbound code observes. -/
def Obs.Inbound : Obs → Prop
  | .bufferGet _ _ _ | .readRet _ _ _ => True
  | _ => False

/-- Assertions that `_line_in_busy_process` cannot disturb. -/
structure MoveFrame (P : Sys → Prop) : Prop where
  isIn : ∀ s, P s → s.link.pBufferIn.isIn = true ∧ s.link.pBufferInCache.isIn = true
  link : ∀ s f, (f s.link).sansIn = s.link.sansIn → (f s.link).pBufferIn.isIn = true →
    (f s.link).pBufferInCache.isIn = true → P s → P (s.mapLink f)
  swapIn : ∀ s sw, P s → P (s.mapGhost fun g => { g with swapIn := sw })
  event : ∀ s, P s → P ((s.mapSlave (spilsEventHandler .dataInReady)).log (.event .dataInReady))

namespace MoveFrame

variable {P : Sys → Prop} (F : MoveFrame P)
include F

/-- Assignment to fields other than the pointers. -/
theorem writeLink {f : Spils → Spils} (hf : ∀ l, (f l).sansIn = l.sansIn)
    (hp : ∀ l, (f l).pBufferIn = l.pBufferIn ∧ (f l).pBufferInCache = l.pBufferInCache) :
    Keeps P (writeLink f) := by
  refine keeps_write fun s hs => ?_
  obtain ⟨h1, h2⟩ := F.isIn s hs
  obtain ⟨g1, g2⟩ := hp s.link
  exact F.link s f (hf _) (by rw [g1]; exact h1) (by rw [g2]; exact h2) hs

theorem mutexInTrylock : Keeps P mutexInTrylock := by
  refine keeps_atomic fun s hs => ?_
  obtain ⟨h1, h2⟩ := F.isIn s hs
  by_cases h : s.link.mutexIn = true
  · rw [if_pos h]; exact hs
  · rw [if_neg h]; exact F.link s (fun l => { l with mutexIn := true }) rfl h1 h2 hs

theorem mutexInUnlock : Keeps P mutexInUnlock := F.writeLink (fun _ => rfl) fun _ => ⟨rfl, rfl⟩

theorem bufferInCacheSwap : Keeps P bufferInCacheSwap := by
  refine Keeps.read_bind fun s hs => ?_
  have htemp := (F.isIn s hs).1
  refine .bind (keeps_write fun s hs => F.swapIn s _ hs) fun _ => .bind ?_ fun _ => .bind ?_ fun _ =>
    keeps_write fun s hs => F.swapIn s _ hs
  · exact keeps_write fun s hs => F.link s _ rfl (F.isIn s hs).2 (F.isIn s hs).2 hs
  · exact keeps_write fun s hs => F.link s _ rfl (F.isIn s hs).1 htemp hs

theorem bufferInCacheDataMove : Keeps P bufferInCacheDataMove := by
  have hfin : ∀ r : Result, Keeps P (do NeuronWired.mutexInUnlock; pure r) :=
    fun r => .bind F.mutexInUnlock fun _ => keeps_pure _
  refine .bind F.mutexInTrylock fun _ => .ite (keeps_pure _) (.bind (keeps_read _) fun _ => .ite ?_
    (.bind (keeps_read _) fun _ => .ite (hfin _) ?_))
  · exact .bind (F.writeLink (fun _ => rfl) fun _ => ⟨rfl, rfl⟩) fun _ => hfin _
  · exact .bind F.bufferInCacheSwap fun _ => .bind (F.writeLink (fun _ => rfl) fun _ => ⟨rfl, rfl⟩)
      fun _ => .bind (F.writeLink (fun _ => rfl) fun _ => ⟨rfl, rfl⟩) fun _ => hfin _

theorem lineInBusyProcess : Keeps P lineInBusyProcess :=
  .bind (keeps_read _) fun _ => .ite (keeps_pure _)
    (.bind F.bufferInCacheDataMove fun _ => .ite (keeps_write F.event) (keeps_pure _))

end MoveFrame

/-- Assertions that `_line_in_busy_process` and `spils_data_read` cannot disturb. -/
structure InFrame (P : Sys → Prop) : Prop extends MoveFrame P where
  buf : ∀ s i b, i.isIn = true → (∀ size, (s.pool.get i).Sized size → b.Sized size) → P s →
    P (s.setBuf i b)
  reading : ∀ s r, P s → P (s.mapGhost fun g => { g with reading := r })
  log : ∀ s x, x.Inbound → P s → P (s.log x)

namespace InFrame

variable {P : Sys → Prop} (F : InFrame P)
include F

theorem writeReading (r : Option BufId) :
    Keeps P (writeGhost fun g => { g with reading := r }) :=
  keeps_write fun s hs => F.reading s r hs

theorem bufferGetAndDiscard {i : BufId} (hi : i.isIn = true) (len : ℕ) :
    Keeps P (bufferGetAndDiscard i len) := by
  refine .bind (keeps_read _) fun pos => .bind ?_ fun _ => .ite (keeps_pure _) (.bind ?_ fun _ =>
    keeps_pure _)
  · refine keeps_atomic fun s hs => ?_
    dsimp only
    split_ifs
    · exact F.log s _ trivial hs
    · exact hs
  · exact keeps_write fun s hs => F.buf s i _ hi (fun size h => h.updateReadPos _) hs

theorem returnRead (r : DataRead) : Keeps P (returnRead r) :=
  .bind (keeps_write fun s hs => F.log s _ trivial hs) fun _ => keeps_pure _

theorem spilsDataRead : Keeps P spilsDataRead := by
  have hfin : ∀ r, Keeps P (do NeuronWired.mutexInUnlock; NeuronWired.returnRead r) :=
    fun r => .bind F.mutexInUnlock fun _ => F.returnRead r
  refine .bind (keeps_read _) fun _ => .ite (F.returnRead _) (.bind F.mutexInTrylock fun _ =>
    .ite (F.returnRead _) (Keeps.read_bind fun s hs => ?_))
  have hi := (F.isIn s hs).1
  refine .bind (F.writeReading _) fun _ => .bind (keeps_read _) fun _ =>
    .bind (F.bufferGetAndDiscard hi _) fun _ => .ite ?_ ?_
  · exact .bind (F.writeReading _) fun _ => hfin _
  · exact .bind (keeps_write fun s hs => F.buf s _ _ hi (fun size h => h.recycle) hs) fun _ =>
      .bind (F.writeReading _) fun _ =>
        .bind (F.writeLink (fun _ => rfl) fun _ => ⟨rfl, rfl⟩) fun _ => hfin _

end InFrame

/-! ## The outbound code -/

/-- The link without the fields that the outbound code of the main loop writes. -/
def Spils.sansOut (l : Spils) : Spils := { l with mutexOut := false, dataOutAvailable := false }

/-- The assertions of `_mess_compose_data`. -/
def composeAsserts : List String :=
  ["SPI slave driver output data exceedes maximum message size",
    "SPI slave driver output data exceedes available space"]

/-- Assertions that `spils_data_send` cannot disturb on its way to its return, where none of the code's
own assertions but these two fails. -/
structure SendFrame (P : Sys → Prop) : Prop where
  isOut : ∀ s, P s → s.link.pBufferOut.isIn = false
  link : ∀ s f, (f s.link).sansOut = s.link.sansOut → P s → P (s.mapLink f)
  buf : ∀ s i b, i.isIn = false → (∀ size, (s.pool.get i).Sized size → b.Sized size) → P s →
    P (s.setBuf i b)
  filling : ∀ s r, P s → P (s.mapGhost fun g => { g with filling := r })
  failed : ∀ s msg, msg ∈ composeAsserts → P s → P (s.log (.assertFailed msg))

namespace SendFrame

variable {P : Sys → Prop} (F : SendFrame P)
include F

theorem writeLink {f : Spils → Spils} (hf : ∀ l, (f l).sansOut = l.sansOut) : Keeps P (writeLink f) :=
  keeps_write fun s hs => F.link s f (hf _) hs

theorem writeBuf {i : BufId} (hi : i.isIn = false) {f : Buffer → Buffer}
    (hf : ∀ b size, Buffer.Sized size b → (f b).Sized size) : Keeps P (writeBuf i f) :=
  keeps_write fun s hs => F.buf s i _ hi (hf _) hs

theorem assertDygma (cond : Bool) {msg : String} (h : msg ∈ composeAsserts) :
    Keeps P (assertDygma cond msg) :=
  .ite (keeps_pure _) (keeps_write fun s hs => F.failed s msg h hs)

theorem mutexOutTrylock : Keeps P mutexOutTrylock := by
  refine keeps_atomic fun s hs => ?_
  by_cases h : s.link.mutexOut = true
  · rw [if_pos h]; exact hs
  · rw [if_neg h]; exact F.link s (fun l => { l with mutexOut := true }) rfl hs

theorem messComposeData {i : BufId} (hi : i.isIn = false) (pData : Option Bytes) (dataLen : ℕ) :
    Keeps P (messComposeData i pData dataLen) := by
  refine .bind (keeps_read _) fun _ => .ite
    (.bind (F.assertDygma _ (.head _)) fun _ => keeps_pure _)
    (.bind (F.writeBuf hi fun _ _ h => h.recycle) fun _ =>
      .bind (F.writeBuf hi fun _ _ h => h.setData _ _) fun _ =>
        .bind (F.writeBuf hi fun _ _ h => h.updateWritePos _) fun _ => ?_)
  cases pData with
  | none => exact keeps_pure _
  | some data =>
    refine .ite (keeps_pure _) (.bind ?_ fun _ => .bind (F.assertDygma _ (.tail _ (.head _))) fun _ =>
      .ite (keeps_pure _) (keeps_pure _))
    refine keeps_atomic fun s hs => F.buf s i _ hi (fun size h => ?_) hs
    unfold Buffer.add Buffer.insertData
    split_ifs
    · exact h
    · exact h.updateWritePos _
    · exact (h.setData _ _).updateWritePos _

theorem writeFilling (r : Option BufId) :
    Keeps P (writeGhost fun g => { g with filling := r }) :=
  keeps_write fun s hs => F.filling s r hs

omit F in
theorem returnSend {pData : Option Bytes} {dataSize : ℕ}
    (hret : ∀ s r, P s → P (s.log (.sendRet pData dataSize r))) (r : Result) :
    Keeps P (returnSend pData dataSize r) :=
  .bind (keeps_write fun s hs => hret s r hs) fun _ => keeps_pure _

theorem spilsDataSend {pData : Option Bytes} {dataSize : ℕ}
    (hret : ∀ s r, P s → P (s.log (.sendRet pData dataSize r))) :
    Keeps P (spilsDataSend pData dataSize) := by
  have hfin : ∀ r, Keeps P (do mutexOutUnlock; NeuronWired.returnSend pData dataSize r) :=
    fun r => .bind (F.writeLink fun _ => rfl) fun _ => returnSend hret r
  refine .bind (keeps_read _) fun _ => .ite (returnSend hret _) (.bind F.mutexOutTrylock fun _ =>
    .ite (returnSend hret _) (Keeps.read_bind fun s hs => .bind (F.writeFilling _) fun _ =>
      .bind (F.messComposeData (F.isOut s hs) _ _) fun _ => .bind (F.writeFilling _) fun _ =>
        .ite (hfin _) (.bind (F.writeLink fun _ => rfl) fun _ => hfin _)))

end SendFrame

/-- Assertions that `spils_data_send` cannot disturb, whichever assertion of the code fails. -/
structure OutFrame (P : Sys → Prop) : Prop where
  isOut : ∀ s, P s → s.link.pBufferOut.isIn = false
  link : ∀ s f, (f s.link).sansOut = s.link.sansOut → P s → P (s.mapLink f)
  buf : ∀ s i b, i.isIn = false → (∀ size, (s.pool.get i).Sized size → b.Sized size) → P s →
    P (s.setBuf i b)
  filling : ∀ s r, P s → P (s.mapGhost fun g => { g with filling := r })
  failed : ∀ s msg, P s → P (s.log (.assertFailed msg))

namespace OutFrame

variable {P : Sys → Prop} (F : OutFrame P)
include F

theorem send : SendFrame P where
  isOut := F.isOut
  link := F.link
  buf := F.buf
  filling := F.filling
  failed s msg _ hs := F.failed s msg hs

theorem assertDygma (cond : Bool) (msg : String) : Keeps P (assertDygma cond msg) :=
  .ite (keeps_pure _) (keeps_write fun s hs => F.failed s msg hs)

theorem spilsDataSend {pData : Option Bytes} {dataSize : ℕ}
    (hret : ∀ s r, P s → P (s.log (.sendRet pData dataSize r))) :
    Keeps P (spilsDataSend pData dataSize) := F.send.spilsDataSend hret

end OutFrame

/-! ## `Spi_slave` -/

/-- Assertions that `packet_in_process` cannot disturb. -/
structure PacketFrame (P : Sys → Prop) : Prop where
  crcRange : ∀ s pos len size, P s → P (s.log (.crcRange pos len size))
  put : ∀ s packet, P s → P (s.mapSlave fun p => { p with spiRxFifo := (p.spiRxFifo.put packet).2 })

/-- Assertions that `data_in_process` cannot disturb. -/
structure DataInFrame (P : Sys → Prop) : Prop extends PacketFrame P where
  inFrame : InFrame P
  failed : ∀ s msg, P s → P (s.log (.assertFailed msg))
  availRead : ∀ s a, P s → P (s.mapGhost fun g => { g with availRead := a })
  received : ∀ s b, P s → P (s.mapSlave fun p => { p with spilsDataInReceived := b })

/-- Assertions that `data_out_process` cannot disturb. -/
structure DataOutFrame (P : Sys → Prop) : Prop where
  outFrame : OutFrame P
  txFifo : ∀ s tx, P s → P (s.mapSlave fun p => { p with spiTxFifo := tx })
  txGet : ∀ s packet, P s → P (s.log (.txGet packet))
  crcRange : ∀ s pos len size, P s → P (s.log (.crcRange pos len size))
  sending : ∀ s b, P s → P (s.mapSlave fun p => { p with spilsDataOutSending := b })
  sendRet : ∀ s pData dataSize r, P s → P (s.log (.sendRet pData dataSize r))

section SlaveFrames

variable {P : Sys → Prop} {fmt : PacketFormat}

theorem PacketFrame.packetsInProcess (F : PacketFrame P) (behind : ℕ → Bytes) (n : ℕ) (pData : Bytes)
    (pos : ℕ) : Keeps P (packetsInProcess fmt behind n pData pos) := by
  induction n generalizing pData pos with
  | zero => exact keeps_pure _
  | succ n ih =>
    refine .bind (.bind ?_ fun _ => .ite (.bind ?_ fun _ => keeps_pure _) (keeps_pure _)) fun _ => ih _ _
    · exact keeps_write fun s hs => F.crcRange s _ _ _ hs
    · exact keeps_write fun s hs => F.put s _ hs

theorem DataInFrame.dataInProcess (F : DataInFrame P) (behind : ℕ → Bytes) :
    Keeps P (dataInProcess fmt behind) := by
  refine .bind (keeps_read _) fun _ => .ite (keeps_pure _) (.bind F.inFrame.spilsDataRead fun _ =>
    .bind (.ite (keeps_pure _) ?_) fun _ => .ite (keeps_pure _) (.bind ?_ fun _ => .bind ?_ fun _ =>
      F.packetsInProcess _ _ _ _))
  · exact keeps_write fun s hs => F.failed s _ hs
  · exact keeps_atomic fun s hs => F.availRead s _ hs
  · exact keeps_write fun s hs => F.availRead _ _ (F.received s _ hs)

theorem DataOutFrame.dataOutProcess (F : DataOutFrame P) (behind : Bytes) :
    Keeps P (dataOutProcess fmt behind) := by
  have hsending : ∀ b, Keeps P (writeSlave fun p => { p with spilsDataOutSending := b }) :=
    fun b => keeps_write fun s hs => F.sending s b hs
  refine .bind (keeps_read _) fun _ => .bind (keeps_read _) fun _ => .ite (keeps_pure _)
    (.bind ?_ fun _ => .bind (F.outFrame.assertDygma _ _) fun _ => .bind (keeps_read _) fun _ =>
      .bind ?_ fun _ => .bind (hsending _) fun _ =>
        .bind (F.outFrame.spilsDataSend fun s r hs => F.sendRet s _ _ r hs) fun _ =>
          .bind (F.outFrame.assertDygma _ _) fun _ => .ite (hsending _) (keeps_pure _))
  · exact keeps_atomic fun s hs => F.txGet _ _ (F.txFifo s _ hs)
  · exact keeps_write fun s hs => F.crcRange s _ _ _ hs

end SlaveFrames

/-! ## All of the main loop -/

/-- The link without everything that the main loop writes. -/
def Spils.sansMain (l : Spils) : Spils := l.sansCon.sansIn.sansOut

/-- Assertions that no step of the main loop can disturb. -/
structure Frame (P : Sys → Prop) : Prop where
  isIn : ∀ s, P s → s.link.pBufferIn.isIn = true ∧ s.link.pBufferInCache.isIn = true
  isOut : ∀ s, P s → s.link.pBufferOut.isIn = false
  link : ∀ s f, (f s.link).sansMain = s.link.sansMain → (f s.link).pBufferIn.isIn = true →
    (f s.link).pBufferInCache.isIn = true → P s → P (s.mapLink f)
  buf : ∀ s i b, (∀ size, (s.pool.get i).Sized size → b.Sized size) → P s → P (s.setBuf i b)
  slave : ∀ s f, P s → P (s.mapSlave f)
  ghost : ∀ s f, (f s.ghost).trace = s.ghost.trace → P s → P (s.mapGhost f)
  log : ∀ s x, x.Local → P s → P (s.log x)

namespace Frame

variable {P : Sys → Prop} (F : Frame P)
include F

theorem con : ConFrame P where
  link s f hf hs := by
    have hp := Spils.field_eq hf Spils.pBufferIn fun _ => rfl
    have hc := Spils.field_eq hf Spils.pBufferInCache fun _ => rfl
    obtain ⟨h1, h2⟩ := F.isIn s hs
    exact F.link s f (congrArg (fun l : Spils => l.sansIn.sansOut) hf) (hp ▸ h1) (hc ▸ h2) hs
  event s _ _ hs := F.log _ _ trivial (F.slave s _ hs)

theorem inFrame : InFrame P where
  isIn := F.isIn
  link s f hf h1 h2 hs := F.link s f (congrArg (fun l : Spils => l.sansCon.sansOut) hf) h1 h2 hs
  buf s i b _ hb hs := F.buf s i b hb hs
  swapIn s sw hs := F.ghost s (fun g => { g with swapIn := sw }) rfl hs
  reading s r hs := F.ghost s (fun g => { g with reading := r }) rfl hs
  event s hs := F.log _ _ trivial (F.slave s _ hs)
  log s x hx hs := F.log s x (by cases x <;> trivial) hs

theorem outFrame : OutFrame P where
  isOut := F.isOut
  link s f hf hs := by
    have hp := Spils.field_eq hf Spils.pBufferIn fun _ => rfl
    have hc := Spils.field_eq hf Spils.pBufferInCache fun _ => rfl
    obtain ⟨h1, h2⟩ := F.isIn s hs
    exact F.link s f (congrArg (fun l : Spils => l.sansCon.sansIn) hf) (hp ▸ h1) (hc ▸ h2) hs
  buf s i b _ hb hs := F.buf s i b hb hs
  filling s r hs := F.ghost s (fun g => { g with filling := r }) rfl hs
  failed s msg hs := F.log s _ trivial hs

theorem sendRet (pData : Option Bytes) (dataSize : ℕ) (s : Sys) (r : Result) (hs : P s) :
    P (s.log (.sendRet pData dataSize r)) := F.log s _ trivial hs

theorem spilsPoll : Keeps P spilsPoll := .bind F.con.conMachine fun _ => F.inFrame.lineInBusyProcess

/-- The calls of the link. -/
theorem linkProg (k : LinkCall) : Keeps P (linkProg k) := by
  cases k with
  | poll => exact F.spilsPoll
  | dataRead => exact .bind F.inFrame.spilsDataRead fun _ => keeps_pure _
  | dataSend pData dataSize => exact .bind (F.outFrame.spilsDataSend (F.sendRet _ _)) fun _ => keeps_pure _

section Slave

variable (fmt : PacketFormat)

theorem writeSlave (f : SpiSlave → SpiSlave) : Keeps P (writeSlave f) :=
  keeps_write fun s hs => F.slave s f hs

omit fmt in
theorem dataIn : DataInFrame P where
  crcRange s _ _ _ hs := F.log s _ trivial hs
  put s _ hs := F.slave s _ hs
  inFrame := F.inFrame
  failed s msg hs := F.outFrame.failed s msg hs
  availRead s _ hs := F.ghost s _ rfl hs
  received s _ hs := F.slave s _ hs

omit fmt in
theorem dataOut : DataOutFrame P where
  outFrame := F.outFrame
  txFifo s _ hs := F.slave s _ hs
  txGet s _ hs := F.log s _ trivial hs
  crcRange s _ _ _ hs := F.log s _ trivial hs
  sending s _ hs := F.slave s _ hs
  sendRet s pData dataSize r hs := F.sendRet pData dataSize s r hs

/-- The calls of `Spi_slave`. -/
theorem slaveProg (k : SlaveCall) : Keeps P (slaveProg fmt k) := by
  cases k with
  | run stack =>
    exact .bind F.spilsPoll fun _ => .bind (F.dataIn.dataInProcess stack.pData) fun _ =>
      F.dataOut.dataOutProcess stack.spiPacket
  | sendPacket packet => exact F.writeSlave _
  | readPacket => exact .bind (keeps_read _) fun _ => .ite (keeps_pure _) (F.writeSlave _)

end Slave

end Frame

end NeuronWired
