import NeuronWired.Rearm

/-!
# Handler — everything one run of the chip-select interrupt can do

`Dispatched` and `Processed` list the outcomes of the message handlers: the state in front of
`_transfer_start`, the state asked for, and whether `DATA_IN_READY` is raised afterwards.
`run_transferDataInProcess` says that the code has one of these outcomes; every invariant of the
link is derived from the list and not from the code again.
-/

namespace NeuronWired

open Interrupt

/-! ## What the handlers do to the state -/

/-- A buffer that holds a message header and nothing else. -/
def Buffer.header (b : Buffer) (len type : UInt8) : Buffer :=
  ({ b.recycle with data := memcpy b.data 0 [len, type] } : Buffer).updateWritePos messHeaderSize

namespace Sys

/-- `_mess_compose_result` on the output cache. -/
def answer (s : Sys) (t : UInt8) : Sys :=
  s.setBuf s.link.pBufferOutCache (s.outCacheB.header (UInt8.ofNat messHeaderSize) t)

/-- The dummy message on the output cache. -/
def dummy (s : Sys) : Sys :=
  s.setBuf s.link.pBufferOutCache (s.outCacheB.header (UInt8.ofNat (messHeaderSize + 0)) MessType.data)

/-- The dummy message, when there is nothing to send. -/
def dummyIfEmpty (s : Sys) : Sys := if s.outCacheB.getLoadsize = 0 then s.dummy else s

/-- `_buffer_recycle` of the input cache. -/
def recycleIn (s : Sys) : Sys := s.setBuf s.link.pBufferInCache s.cacheB.recycle

/-- The input cache takes `n` received bytes. -/
def takeIn (s : Sys) (n : ℕ) : Sys :=
  s.setBuf s.link.pBufferInCache (s.cacheB.updateWritePos (i16 n))

/-- The message header in the input cache. -/
def head (s : Sys) : UInt8 × UInt8 :=
  (s.cacheB.data.getD s.cacheB.readPos 0, s.cacheB.data.getD (s.cacheB.readPos + 1) 0)

/-- The input cache cut to the message in it, its header skipped. -/
def shapeIn (s : Sys) : Sys :=
  s.setBuf s.link.pBufferInCache
    (((s.cacheB.updateWritePos (-(s.cacheB.getLoadsize : ℤ))).updateWritePos
      (s.head.1.toNat : ℤ)).updateReadPos messHeaderSize)

/-- `_buffer_in_cache_swap` and the flags after it. -/
def swapIn (s : Sys) : Sys :=
  (s.mapLink fun l => { l with
    pBufferIn := l.pBufferInCache, pBufferInCache := l.pBufferIn
    dataInAvailable := true, lineInBusy := false, mutexIn := false }).mapGhost
  fun g => { g with swapIn := false }

/-- `_buffer_out_cache_swap`. -/
def swapOut (s : Sys) : Sys :=
  (s.mapLink fun l => { l with
    pBufferOut := l.pBufferOutCache, pBufferOutCache := l.pBufferOut }).mapGhost
  fun g => { g with swapOut := false }

/-- `_buffer_out_cache_data_move` with the lock free. -/
def moveOut (s : Sys) : Sys :=
  (if s.outB.getLoadsize ≠ 0 ∧ s.outCacheB.getLoadsize = 0 then s.swapOut else s).mapLink
    fun l => { l with dataOutAvailable := false }

/-- `_event_handler`. -/
def raise (s : Sys) (e : SpilsEventType) : Sys := (s.mapSlave (spilsEventHandler e)).log (.event e)

/-- The state after `_transfer_start`, with or without the event. -/
def finish (s : Sys) (st : SpilsState) (ready : Bool) (h : HalMcuSpi) : Sys :=
  if ready = true then (s.rearm st h).raise .dataInReady else s.rearm st h

end Sys

/-- The outcomes for a message in the input cache. -/
inductive Dispatched (t : Sys) : Sys → SpilsState → Bool → Prop where
  | startErr (type : t.head.2 = MessType.masterDataSendStart)
      (bad : t.head.1.toNat ≠ messHeaderSize ∨ t.cacheB.getLoadsize < t.head.1.toNat) :
      Dispatched t (t.recycleIn.answer MessType.resultErr) .listeningStart false
  | startOk (type : t.head.2 = MessType.masterDataSendStart)
      (good : ¬(t.head.1.toNat ≠ messHeaderSize ∨ t.cacheB.getLoadsize < t.head.1.toNat)) :
      Dispatched t (t.recycleIn.answer MessType.resultOk) .dataReceiveStart false
  | recvErr (type : t.head.2 = MessType.masterDataRecvStart)
      (bad : t.head.1.toNat ≠ messHeaderSize ∨ t.cacheB.getLoadsize < t.head.1.toNat) :
      Dispatched t (t.recycleIn.answer MessType.resultErr) .listeningStart false
  | recvBusy (type : t.head.2 = MessType.masterDataRecvStart)
      (good : ¬(t.head.1.toNat ≠ messHeaderSize ∨ t.cacheB.getLoadsize < t.head.1.toNat))
      (locked : t.link.mutexOut = true) :
      Dispatched t (t.dummyIfEmpty.recycleIn.answer MessType.resultBusy) .listeningStart false
  | recvOk (type : t.head.2 = MessType.masterDataRecvStart)
      (good : ¬(t.head.1.toNat ≠ messHeaderSize ∨ t.cacheB.getLoadsize < t.head.1.toNat))
      (free : t.link.mutexOut = false) :
      Dispatched t t.moveOut.dummyIfEmpty.recycleIn .dataSendStart false
  | dataErr (type : t.head.2 = MessType.data)
      (bad : t.link.state ≠ .dataReceiving ∨ t.cacheB.getLoadsize < t.head.1.toNat) :
      Dispatched t (t.recycleIn.answer MessType.resultErr) .listeningStart false
  | dataBusy (type : t.head.2 = MessType.data) (state : t.link.state = .dataReceiving)
      (whole : t.head.1.toNat ≤ t.cacheB.getLoadsize)
      (full : t.link.mutexIn = true ∨
        t.shapeIn.cacheB.getLoadsize ≠ 0 ∧ t.shapeIn.inB.getLoadsize ≠ 0) :
      Dispatched t
        ((t.shapeIn.mapLink fun l => { l with lineInBusy := true }).answer MessType.resultOkBusy)
        .listeningStart false
  | dataEmpty (type : t.head.2 = MessType.data) (state : t.link.state = .dataReceiving)
      (whole : t.head.1.toNat ≤ t.cacheB.getLoadsize) (free : t.link.mutexIn = false)
      (empty : t.shapeIn.cacheB.getLoadsize = 0) :
      Dispatched t
        ((t.shapeIn.log (.assertFailed
          "Unexpected SPI Link _buffer_in_cache_data_move result")).recycleIn.answer
            MessType.resultOk) .listeningStart true
  | dataOk (type : t.head.2 = MessType.data) (state : t.link.state = .dataReceiving)
      (whole : t.head.1.toNat ≤ t.cacheB.getLoadsize) (free : t.link.mutexIn = false)
      (loaded : t.shapeIn.cacheB.getLoadsize ≠ 0) (room : t.shapeIn.inB.getLoadsize = 0) :
      Dispatched t (t.shapeIn.swapIn.recycleIn.answer MessType.resultOk) .listeningStart true
  | renewed (type : t.head.2 ≠ MessType.masterDataSendStart ∧
        t.head.2 ≠ MessType.masterDataRecvStart ∧ t.head.2 ≠ MessType.data)
      (state : t.link.state = .dataReceiving) :
      Dispatched t (t.recycleIn.answer MessType.resultOk) .dataReceiveStart false
  | dataReady (type : t.head.2 ≠ MessType.masterDataSendStart ∧
        t.head.2 ≠ MessType.masterDataRecvStart ∧ t.head.2 ≠ MessType.data)
      (state : t.link.state ≠ .dataReceiving) (waiting : t.link.dataOutAvailable = true) :
      Dispatched t (t.recycleIn.answer MessType.resultDataReady) .listeningStart false
  | ready (type : t.head.2 ≠ MessType.masterDataSendStart ∧
        t.head.2 ≠ MessType.masterDataRecvStart ∧ t.head.2 ≠ MessType.data)
      (state : t.link.state ≠ .dataReceiving) (none : t.link.dataOutAvailable = false) :
      Dispatched t (t.recycleIn.answer MessType.resultReady) .listeningStart false

/-- The outcomes for a finished transfer of `n` bytes. -/
inductive Processed (n : ℕ) (s : Sys) : Sys → SpilsState → Bool → Prop where
  | refused (busy : (s.link.lineInBusy || s.link.lineInIsSaturated) = true) :
      Processed n s (s.answer MessType.resultBusy) .listeningStart false
  | short (free : (s.link.lineInBusy || s.link.lineInIsSaturated) = false) (len : n < messHeaderSize) :
      Processed n s (s.answer MessType.resultErr) .listeningStart false
  | taken {p : Sys} {st : SpilsState} {ready : Bool}
      (free : (s.link.lineInBusy || s.link.lineInIsSaturated) = false) (len : messHeaderSize ≤ n)
      (dispatched : Dispatched (s.takeIn n) p st ready) : Processed n s p st ready

/-! ## The code has these outcomes -/

theorem Sys.mapLink_eq_self {s : Sys} {f : Spils → Spils} (h : f s.link = s.link) :
    s.mapLink f = s := by
  unfold Sys.mapLink; rw [h]

theorem Pool.set_set (p : Pool) (i : BufId) (b c : Buffer) : (p.set i b).set i c = p.set i c := by
  cases i <;> rfl

theorem Sys.setBuf_setBuf (s : Sys) (i : BufId) (b c : Buffer) :
    (s.setBuf i b).setBuf i c = s.setBuf i c := by
  unfold Sys.setBuf; rw [Pool.set_set]

@[simp] theorem Sys.outCacheB_answer (s : Sys) (t : UInt8) :
    (s.answer t).outCacheB = s.outCacheB.header (UInt8.ofNat messHeaderSize) t := by
  simp [Sys.answer, Sys.outCacheB]

@[simp] theorem Sys.outCacheB_dummy (s : Sys) :
    s.dummy.outCacheB = s.outCacheB.header (UInt8.ofNat (messHeaderSize + 0)) MessType.data := by
  simp [Sys.dummy, Sys.outCacheB]

namespace Buffer

@[simp] theorem getLoadsize_header (b : Buffer) (len type : UInt8) :
    (b.header len type).getLoadsize = 2 := by
  simp [header, Buffer.updateWritePos, messHeaderSize, recycle, clear, getLoadsize, u16, u8, i16]

@[simp] theorem readPos_header (b : Buffer) (len type : UInt8) : (b.header len type).readPos = 0 := by
  simp [header, recycle, clear]

@[simp] theorem writePos_header (b : Buffer) (len type : UInt8) :
    (b.header len type).writePos = 2 := by
  simp [header, Buffer.updateWritePos, messHeaderSize, recycle, clear, u16, i16]

@[simp] theorem data_header (b : Buffer) (len type : UInt8) :
    (b.header len type).data = memcpy b.data 0 [len, type] := by
  simp [header]

end Buffer

section Compose

variable (s : Sys)

theorem run_writeHeader (i : BufId) (len type : UInt8) :
    (do
      writeBuf i Buffer.recycle
      writeHeader i len type
      writeBuf i fun b => b.updateWritePos messHeaderSize).run s =
      ((), s.setBuf i ((s.pool.get i).header len type)) := by
  simp only [Prog.run_bind, run_writeBuf, writeHeader, Sys.pool_setBuf, Pool.get_set_self,
    Sys.setBuf_setBuf]
  rfl

theorem run_messComposeResult (i : BufId) (t : UInt8) :
    (messComposeResult i t).run s =
      ((), s.setBuf i ((s.pool.get i).header (UInt8.ofNat messHeaderSize) t)) :=
  run_writeHeader s i _ t

theorem run_messComposeData_none (i : BufId) :
    (messComposeData i none 0).run s =
      (.ok, s.setBuf i ((s.pool.get i).header (UInt8.ofNat (messHeaderSize + 0)) MessType.data)) := by
  have h := run_writeHeader s i (UInt8.ofNat (messHeaderSize + 0)) MessType.data
  simp only [Prog.run_bind] at h
  simp only [messComposeData, Prog.run_bind, run_readLink, Nat.not_lt_zero, if_false, Prog.run_pure]
  rw [h]

end Compose

section Start

variable {s : Sys}

theorem run_listeningStart (t : UInt8) (hr : Ready s.spi) :
    ∃ h, (listeningStart t).run s = ((), (s.answer t).rearm .listeningStart h) ∧
      ArmedFor (s.answer t) h := by
  obtain ⟨h, hrun, ha⟩ := run_transferStart (s := s.answer t) .listeningStart hr (by simp)
  refine ⟨h, ?_, ha⟩
  unfold listeningStart
  rw [Prog.run_bind_of (run_readLink s _), Prog.run_bind_of (run_messComposeResult s _ t)]
  exact Prog.run_bind_of hrun

theorem run_dataReceiveStart (t : UInt8) (hr : Ready s.spi) :
    ∃ h, (dataReceiveStart t).run s = ((), (s.answer t).rearm .dataReceiveStart h) ∧
      ArmedFor (s.answer t) h := by
  obtain ⟨h, hrun, ha⟩ := run_transferStart (s := s.answer t) .dataReceiveStart hr (by simp)
  refine ⟨h, ?_, ha⟩
  unfold dataReceiveStart
  rw [Prog.run_bind_of (run_readLink s _), Prog.run_bind_of (run_messComposeResult s _ t)]
  exact Prog.run_bind_of hrun

theorem run_dataSendStart (hr : Ready s.spi) (hout : s.outCacheB.getLoadsize ≠ 0) :
    ∃ h, dataSendStart.run s = ((), s.rearm .dataSendStart h) ∧ ArmedFor s h := by
  obtain ⟨h, hrun, ha⟩ := run_transferStart .dataSendStart hr hout
  exact ⟨h, Prog.run_bind_of hrun, ha⟩

end Start

/-! ### The pointer moves -/

namespace Spils

theorem unlockIn_eq {l : Spils} (h : l.mutexIn = false) : { l with mutexIn := false } = l := by
  cases l; cases h; rfl

theorem unlockOut_eq {l : Spils} (h : l.mutexOut = false) : { l with mutexOut := false } = l := by
  cases l; cases h; rfl

theorem notBusy_eq {l : Spils} (h : l.lineInBusy = false) : { l with lineInBusy := false } = l := by
  cases l; cases h; rfl

end Spils

namespace Sys

/-- The input mutex taken. -/
def lockIn (s : Sys) : Sys := s.mapLink fun l => { l with mutexIn := true }

/-- The output mutex taken. -/
def lockOut (s : Sys) : Sys := s.mapLink fun l => { l with mutexOut := true }

theorem relockIn {s : Sys} (h : s.link.mutexIn = false) :
    (s.lockIn.mapLink fun l => { l with mutexIn := false }) = s :=
  mapLink_eq_self (f := fun l => { l with mutexIn := false }) (Spils.unlockIn_eq h)

theorem relockOut {s : Sys} (h : s.link.mutexOut = false) :
    (s.lockOut.mapLink fun l => { l with mutexOut := false }) = s :=
  mapLink_eq_self (f := fun l => { l with mutexOut := false }) (Spils.unlockOut_eq h)

end Sys

section Move

variable {s : Sys}

theorem run_mutexInTrylock (h : s.link.mutexIn = false) : mutexInTrylock.run s = (true, s.lockIn) := by
  simp [mutexInTrylock, h, Sys.lockIn]

theorem run_mutexOutTrylock (h : s.link.mutexOut = false) :
    mutexOutTrylock.run s = (true, s.lockOut) := by
  simp [mutexOutTrylock, h, Sys.lockOut]

theorem run_moveIn_locked (h : s.link.mutexIn = true) : bufferInCacheDataMove.run s = (.busy, s) := by
  simp [bufferInCacheDataMove, mutexInTrylock, h]

theorem run_moveIn_empty (h : s.link.mutexIn = false) (hb : s.link.lineInBusy = false)
    (he : s.cacheB.getLoadsize = 0) : bufferInCacheDataMove.run s = (.err, s) := by
  have hl : (s.lockIn.mapLink fun l => { l with lineInBusy := false }) = s.lockIn :=
    Sys.mapLink_eq_self (f := fun l => { l with lineInBusy := false }) (Spils.notBusy_eq hb)
  unfold bufferInCacheDataMove
  rw [Prog.run_bind_of (run_mutexInTrylock h), if_neg (by simp),
    Prog.run_bind_of (Prog.run_read _ _), if_pos (show s.lockIn.cacheB.getLoadsize = 0 from he),
    Prog.run_bind_of (run_writeLink _ _), hl]
  exact congrArg (Prod.mk Result.err) (Sys.relockIn h)

theorem run_moveIn_full (h : s.link.mutexIn = false) (hc : s.cacheB.getLoadsize ≠ 0)
    (hi : s.inB.getLoadsize ≠ 0) : bufferInCacheDataMove.run s = (.busy, s) := by
  unfold bufferInCacheDataMove
  rw [Prog.run_bind_of (run_mutexInTrylock h), if_neg (by simp),
    Prog.run_bind_of (Prog.run_read _ _),
    if_neg (show ¬s.lockIn.cacheB.getLoadsize = 0 from hc), Prog.run_bind_of (Prog.run_read _ _),
    if_pos (show s.lockIn.inB.getLoadsize ≠ 0 from hi)]
  exact congrArg (Prod.mk Result.busy) (Sys.relockIn h)

theorem run_moveIn_ok (h : s.link.mutexIn = false) (hc : s.cacheB.getLoadsize ≠ 0)
    (hi : s.inB.getLoadsize = 0) : bufferInCacheDataMove.run s = (.ok, s.swapIn) := by
  unfold bufferInCacheDataMove
  rw [Prog.run_bind_of (run_mutexInTrylock h), if_neg (by simp),
    Prog.run_bind_of (Prog.run_read _ _),
    if_neg (show ¬s.lockIn.cacheB.getLoadsize = 0 from hc), Prog.run_bind_of (Prog.run_read _ _),
    if_neg (show ¬s.lockIn.inB.getLoadsize ≠ 0 from not_not.mpr hi)]
  rfl

theorem run_moveOut_locked (h : s.link.mutexOut = true) :
    bufferOutCacheDataMove.run s = (.busy, s) := by
  simp [bufferOutCacheDataMove, mutexOutTrylock, h]

theorem run_moveOut (h : s.link.mutexOut = false) :
    bufferOutCacheDataMove.run s = (.ok, s.moveOut) := by
  have hfree : s.moveOut.link.mutexOut = false := by
    unfold Sys.moveOut
    split_ifs <;> exact h
  rw [← Sys.relockOut hfree]
  unfold bufferOutCacheDataMove
  rw [Prog.run_bind_of (run_mutexOutTrylock h), if_neg (by simp),
    Prog.run_bind_of (Prog.run_read _ _), Prog.run_bind_of (Prog.run_read _ _)]
  unfold Sys.moveOut
  by_cases hc : s.outB.getLoadsize ≠ 0 ∧ s.outCacheB.getLoadsize = 0
  · rw [if_pos hc, if_pos (show s.lockOut.outB.getLoadsize ≠ 0 ∧ s.lockOut.outCacheB.getLoadsize = 0
      from hc)]
    rfl
  · rw [if_neg hc, if_neg (show ¬(s.lockOut.outB.getLoadsize ≠ 0 ∧
      s.lockOut.outCacheB.getLoadsize = 0) from hc)]
    rfl

end Move

/-! ### The message handlers -/

/-- The program `c` ends in one of the outcomes `O`, with the driver armed for it. -/
def Ends (c : Code Unit) (t : Sys) (O : Sys → SpilsState → Bool → Prop) : Prop :=
  ∃ p st ready h, c.run t = ((), p.finish st ready h) ∧ O p st ready ∧ ArmedFor p h

section Messages

variable {t : Sys}

theorem Ends.mono {c : Code Unit} {O O' : Sys → SpilsState → Bool → Prop} (h : Ends c t O)
    (hO : ∀ p st ready, O p st ready → O' p st ready) : Ends c t O' := by
  obtain ⟨p, st, ready, g, hrun, ho, ha⟩ := h
  exact ⟨p, st, ready, g, hrun, hO _ _ _ ho, ha⟩

theorem Ends.bind {α : Type} {c : Code α} {k : α → Code Unit} {t' : Sys} {a : α}
    {O : Sys → SpilsState → Bool → Prop} (hrun : c.run t = (a, t')) (h : Ends (k a) t' O) :
    Ends (c >>= k) t O := by
  obtain ⟨p, st, ready, g, hk, ho, ha⟩ := h
  exact ⟨p, st, ready, g, (Prog.run_bind_of hrun).trans hk, ho, ha⟩

theorem ends_listeningStart (r : UInt8) (hr : Ready t.spi) {O : Sys → SpilsState → Bool → Prop}
    (h : O (t.answer r) .listeningStart false) : Ends (listeningStart r) t O := by
  obtain ⟨g, hrun, ha⟩ := run_listeningStart r hr
  exact ⟨t.answer r, .listeningStart, false, g, hrun, h, ha⟩

theorem ends_dataReceiveStart (r : UInt8) (hr : Ready t.spi) {O : Sys → SpilsState → Bool → Prop}
    (h : O (t.answer r) .dataReceiveStart false) : Ends (dataReceiveStart r) t O := by
  obtain ⟨g, hrun, ha⟩ := run_dataReceiveStart r hr
  exact ⟨t.answer r, .dataReceiveStart, false, g, hrun, h, ha⟩

theorem ends_dataSendStart (hr : Ready t.spi) (hout : t.outCacheB.getLoadsize ≠ 0)
    {O : Sys → SpilsState → Bool → Prop} (h : O t .dataSendStart false) :
    Ends dataSendStart t O := by
  obtain ⟨g, hrun, ha⟩ := run_dataSendStart hr hout
  exact ⟨t, .dataSendStart, false, g, hrun, h, ha⟩

theorem run_readHead (t : Sys) : (readHeader t.link.pBufferInCache).run t = (t.head, t) := rfl

theorem run_recycleInCache (t : Sys) : recycleInCache.run t = ((), t.recycleIn) := rfl

theorem ready_recycleIn (hr : Ready t.spi) : Ready t.recycleIn.spi := hr

theorem ends_transferReceiveDataStart (hr : Ready t.spi)
    (type : t.head.2 = MessType.masterDataSendStart) :
    Ends transferReceiveDataStart t (Dispatched t) := by
  have hr' := ready_recycleIn hr
  unfold transferReceiveDataStart
  refine Ends.bind (run_readLink t _) (Ends.bind (run_readHead t) (Ends.bind (Prog.run_read _ _) ?_))
  by_cases hbad : t.head.1.toNat ≠ messHeaderSize ∨ t.cacheB.getLoadsize < t.head.1.toNat
  · rw [if_pos hbad]
    exact Ends.bind (run_recycleInCache t) (ends_listeningStart _ hr' (.startErr type hbad))
  · rw [if_neg hbad]
    exact Ends.bind (run_recycleInCache t) (ends_dataReceiveStart _ hr' (.startOk type hbad))

/-- After the dummy message there is something to send. -/
theorem outLoad_dummyIfEmpty (s : Sys) : s.dummyIfEmpty.outCacheB.getLoadsize ≠ 0 := by
  unfold Sys.dummyIfEmpty
  split_ifs with h
  · simp
  · exact h

/-- What is not in a buffer, the dummy message leaves alone. -/
theorem field_dummyIfEmpty {β : Type} (field : Sys → β) (h : ∀ s i b, field (s.setBuf i b) = field s)
    (s : Sys) : field s.dummyIfEmpty = field s := by
  unfold Sys.dummyIfEmpty
  split_ifs
  · exact h _ _ _
  · rfl

/-- What the output side of the link does not hold, the move of the output cache leaves alone. -/
theorem field_moveOut {β : Type} (field : Sys → β)
    (h : ∀ s : Sys, field s.swapOut = field s ∧
      field (s.mapLink fun l => { l with dataOutAvailable := false }) = field s) (s : Sys) :
    field s.moveOut = field s := by
  unfold Sys.moveOut
  split_ifs
  · exact (h _).2.trans (h s).1
  · exact (h s).2

theorem spi_moveOut (s : Sys) : s.moveOut.spi = s.spi := field_moveOut Sys.spi (fun _ => ⟨rfl, rfl⟩) s

/-- What neither the buffers nor the output side of the link hold, the handler of the request leaves alone. -/
theorem field_moveOut_dummyIfEmpty {β : Type} (field : Sys → β)
    (hbuf : ∀ s i b, field (s.setBuf i b) = field s)
    (hout : ∀ s : Sys, field s.swapOut = field s ∧
      field (s.mapLink fun l => { l with dataOutAvailable := false }) = field s) (s : Sys) :
    field s.moveOut.dummyIfEmpty = field s :=
  (field_dummyIfEmpty field hbuf s.moveOut).trans (field_moveOut field hout s)

theorem inCache_ne_moveOut (h : t.link.pBufferInCache ≠ t.link.pBufferOutCache ∧
    t.link.pBufferInCache ≠ t.link.pBufferOut) :
    t.moveOut.link.pBufferInCache ≠ t.moveOut.link.pBufferOutCache := by
  unfold Sys.moveOut
  split_ifs
  · exact h.2
  · exact h.1

theorem outCacheB_recycleIn {s : Sys} (h : s.link.pBufferInCache ≠ s.link.pBufferOutCache) :
    s.recycleIn.outCacheB = s.outCacheB := Pool.get_set_of_ne _ _ h

theorem ends_transferSendDataStart (hr : Ready t.spi)
    (hids : t.link.pBufferInCache ≠ t.link.pBufferOutCache ∧ t.link.pBufferInCache ≠ t.link.pBufferOut)
    (type : t.head.2 = MessType.masterDataRecvStart) :
    Ends transferSendDataStart t (Dispatched t) := by
  have hr' := ready_recycleIn hr
  unfold transferSendDataStart
  refine Ends.bind (run_readLink t _) (Ends.bind (run_readHead t) (Ends.bind (Prog.run_read _ _) ?_))
  by_cases hbad : t.head.1.toNat ≠ messHeaderSize ∨ t.cacheB.getLoadsize < t.head.1.toNat
  · rw [if_pos hbad]
    exact Ends.bind (run_recycleInCache t) (ends_listeningStart _ hr' (.recvErr type hbad))
  rw [if_neg hbad]
  cases hm : t.link.mutexOut with
  | true =>
    refine Ends.bind (run_moveOut_locked hm) (Ends.bind (Prog.run_read _ _) ?_)
    have hO := Dispatched.recvBusy type hbad hm
    unfold Sys.dummyIfEmpty at hO
    by_cases he : t.outCacheB.getLoadsize = 0
    · rw [if_pos he] at hO ⊢
      have hrd : Ready t.dummy.recycleIn.spi := hr
      exact Ends.bind (run_readLink t _) (Ends.bind (run_messComposeData_none t _)
        (Ends.bind (run_recycleInCache t.dummy) (ends_listeningStart _ hrd hO)))
    · rw [if_neg he] at hO ⊢
      exact Ends.bind (run_recycleInCache t) (ends_listeningStart _ hr' hO)
  | false =>
    refine Ends.bind (run_moveOut hm) (Ends.bind (Prog.run_read _ _) ?_)
    have hO := Dispatched.recvOk type hbad hm
    have hout := outLoad_dummyIfEmpty t.moveOut
    have hru : Ready t.moveOut.spi := by rw [spi_moveOut]; exact hr
    have hin := inCache_ne_moveOut hids
    generalize t.moveOut = u at *
    unfold Sys.dummyIfEmpty at hO hout
    by_cases he : u.outCacheB.getLoadsize = 0
    · rw [if_pos he] at hO hout ⊢
      rw [← outCacheB_recycleIn (s := u.dummy) hin] at hout
      have hrd : Ready u.dummy.recycleIn.spi := hru
      exact Ends.bind (run_readLink u _) (Ends.bind (run_messComposeData_none u _)
        (Ends.bind (run_recycleInCache u.dummy) (ends_dataSendStart hrd hout hO)))
    · rw [if_neg he] at hO hout ⊢
      rw [← outCacheB_recycleIn hin] at hout
      exact Ends.bind (run_recycleInCache u) (ends_dataSendStart (ready_recycleIn hru) hout hO)

theorem ends_exit_free (r : UInt8) (hb : t.link.lineInBusy = false) (hr : Ready t.spi)
    {O : Sys → SpilsState → Bool → Prop}
    (h : O (t.recycleIn.answer r) .listeningStart (decide (r = MessType.resultOk))) :
    Ends (transferReceiveDataExit r) t O := by
  obtain ⟨g, hrun, ha⟩ := run_listeningStart r (ready_recycleIn hr)
  refine ⟨t.recycleIn.answer r, .listeningStart, _, g, ?_, h, ha⟩
  unfold transferReceiveDataExit
  rw [Prog.run_bind_of (run_readLink t _), if_pos hb, Prog.run_bind_of (run_recycleInCache t),
    Prog.run_bind_of hrun]
  unfold Sys.finish
  by_cases hok : r = MessType.resultOk
  · rw [if_pos hok, if_pos (decide_eq_true hok)]
    rfl
  · rw [if_neg hok, if_neg (by simpa using hok)]
    rfl

theorem ends_exit_busy (hb : t.link.lineInBusy = true) (hr : Ready t.spi)
    {O : Sys → SpilsState → Bool → Prop}
    (h : O (t.answer MessType.resultOkBusy) .listeningStart false) :
    Ends (transferReceiveDataExit MessType.resultOkBusy) t O := by
  obtain ⟨g, hrun, ha⟩ := run_listeningStart MessType.resultOkBusy hr
  refine ⟨_, .listeningStart, false, g, ?_, h, ha⟩
  unfold transferReceiveDataExit
  rw [Prog.run_bind_of (run_readLink t _), if_neg (by simp [hb]), Prog.run_bind_of hrun,
    if_neg (by decide)]
  rfl

theorem run_shapeMessage (t : Sys) :
    (shapeMessage t.link.pBufferInCache t.cacheB.getLoadsize t.head.1.toNat).run t =
      ((), t.shapeIn) := by
  simp only [shapeMessage, Prog.run_bind, run_writeBuf, Sys.pool_setBuf, Pool.get_set_self,
    Sys.setBuf_setBuf]
  rfl

theorem ends_transferReceiveData (hb : t.link.lineInBusy = false) (hr : Ready t.spi)
    (type : t.head.2 = MessType.data) : Ends transferReceiveData t (Dispatched t) := by
  unfold transferReceiveData
  refine Ends.bind (run_readLink t _) ?_
  by_cases hst : t.link.state ≠ .dataReceiving
  · rw [if_pos hst]
    exact ends_exit_free _ hb hr (.dataErr type (.inl hst))
  rw [if_neg hst]
  have state := not_not.mp hst
  refine Ends.bind (run_readLink t _) (Ends.bind (run_readHead t) (Ends.bind (Prog.run_read _ _) ?_))
  by_cases hlen : t.cacheB.getLoadsize < t.head.1.toNat
  · rw [if_pos hlen]
    exact ends_exit_free _ hb hr (.dataErr type (.inr hlen))
  rw [if_neg hlen]
  have whole := Nat.le_of_not_lt hlen
  have hru : Ready t.shapeIn.spi := hr
  have hbu : t.shapeIn.link.lineInBusy = false := hb
  refine Ends.bind (run_shapeMessage t) ?_
  by_cases hfull : t.link.mutexIn = true ∨
      t.shapeIn.cacheB.getLoadsize ≠ 0 ∧ t.shapeIn.inB.getLoadsize ≠ 0
  · have hO := Dispatched.dataBusy type state whole hfull
    have hmove : bufferInCacheDataMove.run t.shapeIn = (.busy, t.shapeIn) := by
      cases hm : t.link.mutexIn with
      | true => exact run_moveIn_locked hm
      | false =>
        rw [hm] at hfull
        obtain hf | ⟨hc, hi⟩ := hfull
        · cases hf
        · exact run_moveIn_full hm hc hi
    refine Ends.bind hmove ?_
    rw [if_pos rfl]
    exact Ends.bind (run_writeLink _ _) (ends_exit_busy (t := t.shapeIn.mapLink _) rfl hru hO)
  · have free : t.link.mutexIn = false := by
      cases hm : t.link.mutexIn with
      | true => exact absurd (.inl hm) hfull
      | false => rfl
    by_cases hc : t.shapeIn.cacheB.getLoadsize = 0
    · refine Ends.bind (run_moveIn_empty free hbu hc) ?_
      rw [if_neg (by decide)]
      exact Ends.bind (run_assertDygma _ _ _) (ends_exit_free (t := t.shapeIn.log _)
        MessType.resultOk hbu hru (Dispatched.dataEmpty type state whole free hc))
    · have room : t.shapeIn.inB.getLoadsize = 0 := by
        by_contra hi
        exact hfull (.inr ⟨hc, hi⟩)
      refine Ends.bind (run_moveIn_ok free hc room) ?_
      rw [if_neg (by decide)]
      exact Ends.bind (run_assertDygma _ _ _) (ends_exit_free (t := t.shapeIn.swapIn)
        MessType.resultOk rfl hru (Dispatched.dataOk type state whole free hc room))

theorem ends_transferUnknown (hr : Ready t.spi)
    (type : t.head.2 ≠ MessType.masterDataSendStart ∧
      t.head.2 ≠ MessType.masterDataRecvStart ∧ t.head.2 ≠ MessType.data) :
    Ends transferUnknown t (Dispatched t) := by
  have hr' := ready_recycleIn hr
  unfold transferUnknown
  refine Ends.bind (run_recycleInCache t) (Ends.bind (run_readLink _ _) ?_)
  by_cases hst : t.link.state = .dataReceiving
  · rw [if_pos (show t.recycleIn.link.state = .dataReceiving from hst)]
    exact ends_dataReceiveStart _ hr' (.renewed type hst)
  · rw [if_neg (show ¬t.recycleIn.link.state = .dataReceiving from hst)]
    refine Ends.bind (run_readLink _ _) ?_
    cases hw : t.link.dataOutAvailable with
    | true =>
      rw [if_pos (show t.recycleIn.link.dataOutAvailable = true from hw)]
      exact ends_listeningStart _ hr' (.dataReady type hst hw)
    | false =>
      rw [if_neg (show ¬t.recycleIn.link.dataOutAvailable = true from by
        rw [show t.recycleIn.link.dataOutAvailable = false from hw]; exact Bool.false_ne_true)]
      exact ends_listeningStart _ hr' (.ready type hst hw)

/-- **Every outcome of `_transfer_data_in_process`**, from a ready driver. -/
theorem ends_transferDataInProcess {s : Sys} (r : TransferResult) (hr : Ready s.spi)
    (hids : s.link.pBufferInCache ≠ s.link.pBufferOutCache ∧
      s.link.pBufferInCache ≠ s.link.pBufferOut) :
    Ends (transferDataInProcess r) s (Processed r.dataInLen s) := by
  unfold transferDataInProcess
  refine Ends.bind (run_readLink s _) ?_
  by_cases hbusy : (s.link.lineInBusy || s.link.lineInIsSaturated) = true
  · rw [if_pos hbusy]
    exact ends_listeningStart _ hr (.refused hbusy)
  rw [if_neg hbusy]
  have free := Bool.eq_false_iff.mpr hbusy
  by_cases hlen : r.dataInLen < messHeaderSize
  · rw [if_pos hlen]
    exact ends_listeningStart _ hr (.short free hlen)
  rw [if_neg hlen]
  have hrt : Ready (s.takeIn r.dataInLen).spi := hr
  have hb : (s.takeIn r.dataInLen).link.lineInBusy = false := (Bool.or_eq_false_iff.mp free).1
  have htake : (writeBuf s.link.pBufferInCache fun b => b.updateWritePos (i16 r.dataInLen)).run s =
    ((), s.takeIn r.dataInLen) := rfl
  refine Ends.bind (run_readLink s _) (Ends.bind htake (Ends.bind (run_readHead _) ?_))
  have hmono : ∀ p st ready, Dispatched (s.takeIn r.dataInLen) p st ready →
      Processed r.dataInLen s p st ready :=
    fun _ _ _ h => .taken free (Nat.le_of_not_lt hlen) h
  by_cases h1 : (s.takeIn r.dataInLen).head.2 = MessType.masterDataSendStart
  · rw [if_pos h1]
    exact (ends_transferReceiveDataStart hrt h1).mono hmono
  rw [if_neg h1]
  by_cases h2 : (s.takeIn r.dataInLen).head.2 = MessType.masterDataRecvStart
  · rw [if_pos h2]
    exact (ends_transferSendDataStart hrt hids h2).mono hmono
  rw [if_neg h2]
  by_cases h3 : (s.takeIn r.dataInLen).head.2 = MessType.data
  · rw [if_pos h3]
    exact (ends_transferReceiveData hb hrt h3).mono hmono
  · rw [if_neg h3]
    exact (ends_transferUnknown hrt ⟨h1, h2, h3⟩).mono hmono

end Messages

/-! ## The whole interrupt -/

/-- The driver when the transfer has been taken down. -/
def HalMcuSpi.idled (h : HalMcuSpi) : HalMcuSpi :=
  { dmaStop (slaveSpiDisable h) with dummyInUsed := false, busy := false }

namespace Sys

/-- The end of the output half of a transfer. -/
def outDone (s : Sys) : Sys :=
  if s.link.state = .dataSending then
    (s.setBuf s.link.pBufferOutCache s.outCacheB.recycle).raise .dataOutSent
  else s.setBuf s.link.pBufferOutCache s.outCacheB.recycle

/-- The state in which the bytes of a valid transfer are processed. -/
def begun (s : Sys) (e : Edge) : Sys :=
  (((s.clockIn e).mapSpi HalMcuSpi.idled).log (.transfer e.wire)).mapLink
    (fun l => { l with connectionDetected := true }) |>.outDone

/-- The number of bytes the driver reports for the transfer. -/
def reported (s : Sys) (e : Edge) : ℕ := if s.spi.dataInLen = 0 then 0 else (s.received e).length

/-- With a buffer armed it is what was received. -/
theorem reported_cases (s : Sys) (e : Edge) :
    s.reported e = 0 ∨ s.spi.dataInLen ≠ 0 ∧ s.reported e = (s.received e).length := by
  unfold reported
  split_ifs with h
  · exact .inl rfl
  · exact .inr ⟨h, rfl⟩

end Sys

/-- The outcomes of one rising edge of chip select. -/
inductive Handled (e : Edge) (s s' : Sys) : Prop where
  | again (h : HalMcuSpi) (silent : s.received e = []) (armed : Armed h) (same : SameConf s.spi h)
      (eq : s' = (s.clockIn e).mapSpi fun _ => h)
  | done (p : Sys) (st : SpilsState) (ready : Bool) (h : HalMcuSpi) (valid : s.received e ≠ [])
      (resend : s.spi.resendRequest = false)
      (processed : Processed (s.reported e) (s.begun e) p st ready) (armed : ArmedFor p h)
      (eq : s' = p.finish st ready h)

section Edge

variable {s : Sys} {e : Edge}

theorem spi_clockIn (s : Sys) (e : Edge) :
    (s.clockIn e).spi.busy = s.spi.busy ∧ (s.clockIn e).spi.resendRequest = s.spi.resendRequest ∧
      (s.clockIn e).spi.dummyInUsed = s.spi.dummyInUsed ∧
      (s.clockIn e).spi.dmaRx.direction = s.spi.dmaRx.direction ∧
      (s.clockIn e).spi.dmaRx.transferBufferSize = s.spi.dmaRx.transferBufferSize ∧
      (s.clockIn e).spi.dmaRx.transferCount = s.spi.dmaRx.transferCount - (s.received e).length ∧
      SameConf s.spi (s.clockIn e).spi := by
  unfold Sys.clockIn Sys.dmaStore Sys.dmaCount
  split <;> exact ⟨rfl, rfl, rfl, rfl, rfl, rfl, rfl, rfl, rfl, rfl⟩

/-- A transfer changes nothing but the buffers, the driver and the record of the pulse. -/
theorem link_clockIn (s : Sys) (e : Edge) :
    (s.clockIn e).link = s.link ∧ (s.clockIn e).slave = s.slave ∧ (s.clockIn e).now = s.now ∧
      (s.clockIn e).ghost = { s.ghost with wire := e.wire } := by
  unfold Sys.clockIn Sys.dmaStore Sys.dmaCount
  split <;> exact ⟨rfl, rfl, rfl, rfl⟩

theorem length_received_le (s : Sys) (e : Edge) :
    (s.received e).length ≤ s.spi.dmaRx.transferCount := by
  unfold Sys.received
  split_ifs
  · rw [List.length_take]; omega
  · exact Nat.zero_le _

theorem length_received_wire (s : Sys) (e : Edge) : (s.received e).length ≤ e.wire.length := by
  unfold Sys.received
  split_ifs
  · rw [List.length_take]; omega
  · exact Nat.zero_le _

/-- With the peripheral off nothing is received. -/
theorem received_of_resend (h : Armed s.spi) (hr : s.spi.resendRequest = true) :
    s.received e = [] := by
  unfold Sys.received
  rw [if_neg]
  intro hc
  have he := h.enabled
  rw [hr, hc.1] at he
  cases he

theorem count_lt (h : Armed s.spi) : s.spi.dmaRx.transferCount < 65536 := by
  by_cases h0 : s.spi.dataInLen = 0
  · rw [(h.dummyRx h0).1]; decide
  · rw [(h.bufferRx h0).1]; exact h.length

theorem slaveTransferResultGet_clockIn (h : Armed s.spi) :
    (slaveTransferResultGet (slaveSpiDisable (s.clockIn e).spi)).1 = decide (s.received e ≠ []) ∧
      (slaveTransferResultGet (slaveSpiDisable (s.clockIn e).spi)).2.dataInLen = s.reported e := by
  obtain ⟨-, -, hdummy, -, hsize, hcount, -⟩ := spi_clockIn s e
  have hlen := length_received_le s e
  have hlt := count_lt h
  have hgot : dmaGetTransferCount (s.clockIn e).spi.dmaRx = (s.received e).length := by
    unfold dmaGetTransferCount u32
    rw [hsize, hcount, h.bufferSize]
    omega
  unfold slaveTransferResultGet
  refine ⟨?_, ?_⟩
  · show decide (dmaGetTransferCount (s.clockIn e).spi.dmaRx ≠ 0) = _
    rw [hgot]
    cases s.received e <;> simp
  · show (if (s.clockIn e).spi.dummyInUsed = true then 0
      else dmaGetTransferCount (s.clockIn e).spi.dmaRx) = _
    rw [hgot, hdummy, h.dummy]
    unfold Sys.reported
    simp only [decide_eq_true_eq]

/-- The driver between the two transfers can be armed again. -/
theorem ready_idled (h : Armed s.spi) (hr : s.spi.resendRequest = false) :
    Ready (s.clockIn e).spi.idled := by
  obtain ⟨-, hres, -, hdir, -, -, -⟩ := spi_clockIn s e
  exact ⟨rfl, rfl, hres.trans hr, hdir.trans h.direction⟩

theorem run_transferDataOutProcess (s : Sys) : transferDataOutProcess.run s = ((), s.outDone) := by
  unfold transferDataOutProcess Sys.outDone
  rw [Prog.run_bind_of (Prog.run_write _ _), Prog.run_bind_of (run_readLink _ _)]
  by_cases h : s.link.state = .dataSending
  · rw [if_pos h, if_pos (show (s.setBuf s.link.pBufferOutCache s.outCacheB.recycle).link.state =
      .dataSending from h)]
    rfl
  · rw [if_neg h, if_neg (show ¬(s.setBuf s.link.pBufferOutCache s.outCacheB.recycle).link.state =
      .dataSending from h)]
    rfl

theorem link_outDone (s : Sys) : s.outDone.link = s.link ∧ s.outDone.spi = s.spi := by
  unfold Sys.outDone; split_ifs <;> exact ⟨rfl, rfl⟩

/-- **Every outcome of the interrupt**, from an armed driver. -/
theorem handled (h : Armed s.spi)
    (hids : s.link.pBufferInCache ≠ s.link.pBufferOutCache ∧
      s.link.pBufferInCache ≠ s.link.pBufferOut) :
    Handled e s ((csEdge transferDoneHandler e).run s).2 := by
  obtain ⟨hbusy, hres, -, hdir, -, -, hpo, hpi, hlo, hli⟩ := spi_clockIn s e
  obtain ⟨hvalid, hlen⟩ := slaveTransferResultGet_clockIn (e := e) h
  have hp : (s.clockIn e).spi.dataInLen ≠ 0 → (s.clockIn e).spi.pDataIn ≠ none := by
    rw [hli, hpi]; exact h.pointer
  have hl : (s.clockIn e).spi.dataInLen < 65536 := by rw [hli]; exact h.length
  unfold csEdge slaveCsDeselectedProcess
  rw [Prog.run_bind_of (Prog.run_write _ _), Prog.run_bind_of (run_readSpi _ _),
    if_neg (by rw [hbusy, h.busy]; decide), Prog.run_bind_of (run_writeSpi _ _),
    Prog.run_bind_of (run_readSpi _ _), Prog.run_bind_of (run_writeSpi _ _),
    Prog.run_bind_of (run_writeSpi _ _), Prog.run_bind_of (run_readSpi _ _)]
  have hresend : (s.clockIn e).spi.idled.resendRequest = s.spi.resendRequest := hres
  by_cases hagain : s.received e = [] ∨ s.spi.resendRequest = true
  · have hsilent : s.received e = [] := by
      obtain hr | hr := hagain
      · exact hr
      · exact received_of_resend h hr
    rw [if_pos (.inl (hvalid.trans (by simp [hsilent]))), Prog.run_bind_of (run_writeSpi _ _)]
    obtain ⟨g, hrun, ha, g1, g2, g3, g4⟩ := run_slaveTransfer_ready
      (s := (s.clockIn e).mapSpi fun h => { h.idled with resendRequest := false })
      ⟨rfl, rfl, rfl, hdir.trans h.direction⟩ hp hl
    refine .again g hsilent ha ⟨g1.trans hpo, g2.trans hpi, g3.trans hlo, g4.trans hli⟩ ?_
    exact congrArg Prod.snd (Prog.run_bind_of hrun)
  · have hrecv : s.received e ≠ [] := fun hr => hagain (.inl hr)
    have hres0 : s.spi.resendRequest = false := by
      cases hr : s.spi.resendRequest
      · rfl
      · exact absurd (.inr hr) hagain
    have hspi : (s.begun e).spi = (s.clockIn e).spi.idled := (link_outDone _).2
    have hlink : (s.begun e).link.pBufferInCache = s.link.pBufferInCache ∧
        (s.begun e).link.pBufferOutCache = s.link.pBufferOutCache ∧
        (s.begun e).link.pBufferOut = s.link.pBufferOut := by
      unfold Sys.begun
      rw [(link_outDone _).1]
      simp only [Sys.link_mapLink, Sys.link_log, Sys.link_mapSpi, (link_clockIn s e).1, and_self]
    have hr : Ready (s.begun e).spi := by rw [hspi]; exact ready_idled h hres0
    obtain ⟨p, st, ready, g, hrun, hproc, ha⟩ := ends_transferDataInProcess
      (slaveTransferResultGet (slaveSpiDisable (s.clockIn e).spi)).2 hr
      (by rw [hlink.1, hlink.2.1, hlink.2.2]; exact hids)
    rw [hlen] at hproc
    refine .done p st ready g hrecv hres0 hproc ha ?_
    have hw : (s.clockIn e).ghost.wire = e.wire := by rw [(link_clockIn s e).2.2.2]
    rw [if_neg (by
      rintro (hf | hf)
      · have hv := hvalid.symm.trans hf
        rw [decide_eq_true hrecv] at hv
        cases hv
      · have hv := hres0.symm.trans (hresend.symm.trans hf)
        cases hv)]
    unfold transferDoneHandler
    rw [Prog.run_bind_of (Prog.run_write _ _), Prog.run_bind_of (run_writeLink _ _),
      Prog.run_bind_of (run_transferDataOutProcess _)]
    unfold Sys.begun at hrun
    rw [← hw] at hrun
    exact congrArg Prod.snd hrun

end Edge

end NeuronWired
