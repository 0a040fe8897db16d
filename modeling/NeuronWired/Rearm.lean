import NeuronWired.Link

/-!
# Rearm — what starting a transfer leaves behind

`Armed` is the state of a driver that waits for the next chip-select edge, whether the peripheral is
on or a resend is due.  `run_transferStart` computes what `_transfer_start` does in terms of it:
whatever the two hardware tests say, the driver is armed with the pointers of the two caches and the
call has returned `RESULT_OK`.
-/

namespace NeuronWired

open Interrupt

/-! ## The driver -/

/-- What a running channel works on is what its pointer points to. -/
structure Aimed (h : HalMcuSpi) : Prop where
  rx : h.dmaRx.running = true → ∀ p, h.dmaRx.writeAddress = .mem p → h.pDataIn = some p
  tx : h.dmaTx.running = true → ∀ p, h.dmaTx.readAddress = .mem p →
    ∃ q, h.pDataOut = some q ∧ q.buf = p.buf

/-- A driver with a transfer prepared. -/
structure Armed (h : HalMcuSpi) : Prop where
  busy : h.busy = true
  enabled : h.sse = !h.resendRequest
  live : h.resendRequest = false → h.dmacr = true ∧ h.dmaRx.running = true
  dummy : h.dummyInUsed = decide (h.dataInLen = 0)
  direction : h.dmaRx.direction = .peripheralToMemory
  bufferSize : h.dmaRx.transferBufferSize = h.dmaRx.transferCount
  dummyRx : h.dataInLen = 0 → h.dmaRx.transferCount = 1 ∧ h.dmaRx.writeAddress = .dummyIn
  bufferRx : h.dataInLen ≠ 0 → h.dmaRx.transferCount = h.dataInLen ∧
    h.dmaRx.writeAddress = .ofPtr h.pDataIn ∧ h.dmaRx.writeIncrement = true
  pointer : h.dataInLen ≠ 0 → h.pDataIn ≠ none
  length : h.dataInLen < 65536
  aimed : Aimed h

/-- A driver that may start a transfer. -/
structure Ready (h : HalMcuSpi) : Prop where
  busy : h.busy = false
  sse : h.sse = false
  resend : h.resendRequest = false
  direction : h.dmaRx.direction = .peripheralToMemory

/-- The two drivers transfer between the same addresses. -/
def SameConf (h h' : HalMcuSpi) : Prop :=
  h'.pDataOut = h.pDataOut ∧ h'.pDataIn = h.pDataIn ∧
    h'.dataOutLen = h.dataOutLen ∧ h'.dataInLen = h.dataInLen

/-- The driver after `_slave_transfer` has set up both channels. -/
def channelsSet (s : Sys) : HalMcuSpi :=
  let rx := rxTransferConfig s.spi
  let tx := txTransferConfig rx.2
  let r := preFill (s.mapSpi fun _ => tx.2).load tx.2.txDepth tx.1.bufferSize
    tx.1.readAddress tx.2.txFifo
  dmaStartChannelsSimultaneously { tx.1 with bufferSize := r.1, readAddress := r.2.1 } rx.1
    { tx.2 with txFifo := r.2.2, busy := true }

/-- The driver after `_slave_transfer`, by what the two tests found. -/
def enabledSet (h : HalMcuSpi) : HalMcuSpi :=
  if h.resetDone = true ∧ h.csInactive = true then { h with dmacr := true, sse := true }
  else if h.resetDone = true then
    { dmaStop (slaveSpiDisable { h with dmacr := true }) with resendRequest := true }
  else { dmaStop h with resendRequest := true }

theorem rxTransferConfig_snd (h : HalMcuSpi) :
    (rxTransferConfig h).2 = { h with dummyInUsed := decide (h.dataInLen = 0) } := by
  unfold rxTransferConfig
  split_ifs with hc
  · rw [decide_eq_false hc]
  · rw [decide_eq_true (not_not.mp hc)]

theorem txTransferConfig_snd (h : HalMcuSpi) :
    (txTransferConfig h).2 =
      { h with dummyOut := if h.dataOutLen ≠ 0 then h.dummyOut else dummyOutValue } := by
  unfold txTransferConfig
  split_ifs <;> rfl

theorem run_slaveTransferEnable (s : Sys) :
    slaveTransferEnable.run s =
      if s.spi.resetDone = true ∧ s.spi.csInactive = true then
        (.ok, s.mapSpi fun h => { h with dmacr := true, sse := true })
      else if s.spi.resetDone = true then
        (.busy, s.mapSpi fun h => slaveSpiDisable { h with dmacr := true })
      else (.busy, s) := by
  cases hr : s.spi.resetDone <;> cases hc : s.spi.csInactive <;>
    simp [slaveTransferEnable, slaveSpiEnable, hr, hc] <;> rfl

theorem run_slaveTransferFinish (s : Sys) :
    slaveTransferFinish.run s = (.ok, s.mapSpi enabledSet) := by
  unfold slaveTransferFinish
  have hrun := run_slaveTransferEnable s
  by_cases h1 : s.spi.resetDone = true ∧ s.spi.csInactive = true
  · rw [if_pos h1] at hrun
    rw [Prog.run_bind_of hrun]
    unfold Sys.mapSpi enabledSet
    rw [if_pos h1]
    rfl
  · rw [if_neg h1] at hrun
    by_cases h2 : s.spi.resetDone = true
    · rw [if_pos h2] at hrun
      rw [Prog.run_bind_of hrun]
      unfold Sys.mapSpi enabledSet
      rw [if_neg h1, if_pos h2]
      rfl
    · rw [if_neg h2] at hrun
      rw [Prog.run_bind_of hrun]
      unfold Sys.mapSpi enabledSet
      rw [if_neg h1, if_neg h2]
      rfl

theorem run_slaveTransfer {s : Sys} (hb : s.spi.busy = false) :
    slaveTransfer.run s = (.ok, s.mapSpi fun _ => enabledSet (channelsSet s)) := by
  have hs : slaveTransfer.run s = slaveTransferFinish.run (s.mapSpi fun _ => channelsSet s) := by
    unfold slaveTransfer
    rw [Prog.run_bind_of (run_readSpi s _), Prog.run_bind_of (run_assertDygma s _ _), hb]
    rfl
  rw [hs, run_slaveTransferFinish]
  rfl

theorem sameConf_channelsSet (s : Sys) : SameConf s.spi (channelsSet s) := by
  simp only [channelsSet, rxTransferConfig_snd, txTransferConfig_snd]
  exact ⟨rfl, rfl, rfl, rfl⟩

theorem sameConf_enabledSet (h : HalMcuSpi) : SameConf h (enabledSet h) := by
  unfold enabledSet
  split_ifs <;> exact ⟨rfl, rfl, rfl, rfl⟩

/-- The receive channel as `_slave_transfer` starts it. -/
theorem dmaRx_channelsSet (s : Sys) :
    (channelsSet s).dmaRx =
      { channelTransferPrepare s.spi.dmaRx (rxTransferConfig s.spi).1 with running := true } := by
  simp only [channelsSet, rxTransferConfig_snd, txTransferConfig_snd]
  rfl

theorem flags_channelsSet (s : Sys) :
    (channelsSet s).busy = true ∧ (channelsSet s).sse = s.spi.sse ∧
      (channelsSet s).resendRequest = s.spi.resendRequest ∧
      (channelsSet s).dummyInUsed = decide (s.spi.dataInLen = 0) := by
  simp only [channelsSet, rxTransferConfig_snd, txTransferConfig_snd]
  exact ⟨rfl, rfl, rfl, rfl⟩

/-! ### Where the channels point -/

theorem rxTransferConfig_aim {h : HalMcuSpi} {p : Ptr}
    (hp : (rxTransferConfig h).1.writeAddress = .mem p) : h.pDataIn = some p := by
  unfold rxTransferConfig at hp
  split_ifs at hp
  cases hin : h.pDataIn with
  | none => rw [hin] at hp; cases hp
  | some q => rw [hin] at hp; cases hp; rfl

theorem txTransferConfig_aim {h : HalMcuSpi} {p : Ptr}
    (hp : (txTransferConfig h).1.readAddress = .mem p) : h.pDataOut = some p := by
  unfold txTransferConfig at hp
  split_ifs at hp
  cases hout : h.pDataOut with
  | none => rw [hout] at hp; cases hp
  | some q => rw [hout] at hp; cases hp; rfl

/-- The pre-fill moves the transmit pointer inside its buffer. -/
theorem preFill_aim {load : Addr → UInt8} {txDepth n : ℕ} {a : Addr} {fifo : Bytes} {p : Ptr}
    (hp : (preFill load txDepth n a fifo).2.1 = .mem p) : ∃ q, a = .mem q ∧ q.buf = p.buf := by
  induction n generalizing a fifo with
  | zero => exact ⟨p, hp, rfl⟩
  | succ n ih =>
    unfold preFill at hp
    split_ifs at hp
    · obtain ⟨q, hq, hbuf⟩ := ih hp
      cases a with
      | mem r =>
        obtain rfl : (⟨r.buf, r.off + 1⟩ : Ptr) = q := Addr.mem.inj hq
        exact ⟨r, rfl, hbuf⟩
      | _ => cases hq
    · exact ⟨p, hp, rfl⟩

/-- Both channels are started on the pointers. -/
theorem aimed_dmaStart {h : HalMcuSpi} {tx rx : DmaTransferConfig}
    (hrx : ∀ p, rx.writeAddress = .mem p → h.pDataIn = some p)
    (htx : ∀ p, tx.readAddress = .mem p → ∃ q, h.pDataOut = some q ∧ q.buf = p.buf) :
    Aimed (dmaStartChannelsSimultaneously tx rx h) :=
  ⟨fun _ p hp => hrx p hp, fun _ p hp => htx p hp⟩

theorem aimed_channelsSet (s : Sys) : Aimed (channelsSet s) := by
  have hin : (txTransferConfig (rxTransferConfig s.spi).2).2.pDataIn = s.spi.pDataIn := by
    rw [rxTransferConfig_snd, txTransferConfig_snd]
  have hout : (txTransferConfig (rxTransferConfig s.spi).2).2.pDataOut =
      (rxTransferConfig s.spi).2.pDataOut := by
    rw [txTransferConfig_snd]
  unfold channelsSet
  refine aimed_dmaStart (fun p hp => hin.trans (rxTransferConfig_aim hp)) fun p hp => ?_
  obtain ⟨q, hq, hbuf⟩ := preFill_aim hp
  exact ⟨q, hout.trans (txTransferConfig_aim hq), hbuf⟩

/-- Channels that are stopped work on nothing. -/
theorem aimed_of_stopped {h : HalMcuSpi} (hrx : h.dmaRx.running = false)
    (htx : h.dmaTx.running = false) : Aimed h :=
  ⟨fun hf => absurd (hf.symm.trans hrx) (by decide),
    fun hf => absurd (hf.symm.trans htx) (by decide)⟩

theorem Aimed.enabledSet {h : HalMcuSpi} (ha : Aimed h) : Aimed (enabledSet h) := by
  unfold NeuronWired.enabledSet
  split_ifs
  · exact ⟨ha.rx, ha.tx⟩
  · exact aimed_of_stopped rfl rfl
  · exact aimed_of_stopped rfl rfl

/-- **Arming**: a ready driver is armed, whatever the two tests find. -/
theorem armed_enabledSet {s : Sys} (hr : Ready s.spi)
    (hp : s.spi.dataInLen ≠ 0 → s.spi.pDataIn ≠ none) (hl : s.spi.dataInLen < 65536) :
    Armed (enabledSet (channelsSet s)) := by
  obtain ⟨hbusy, hsse, hresend, hdummy⟩ := flags_channelsSet s
  obtain ⟨-, hpin, -, hlen⟩ := sameConf_channelsSet s
  have hrx := dmaRx_channelsSet s
  have haim := (aimed_channelsSet s).enabledSet
  have hdir := hr.direction
  rw [hr.sse] at hsse
  rw [hr.resend] at hresend
  generalize channelsSet s = h at *
  have hch : h.dmaRx.direction = .peripheralToMemory ∧
      h.dmaRx.transferBufferSize = h.dmaRx.transferCount ∧
      (h.dataInLen = 0 → h.dmaRx.transferCount = 1 ∧ h.dmaRx.writeAddress = .dummyIn) ∧
      (h.dataInLen ≠ 0 → h.dmaRx.transferCount = h.dataInLen ∧
        h.dmaRx.writeAddress = .ofPtr h.pDataIn ∧ h.dmaRx.writeIncrement = true) := by
    by_cases h0 : s.spi.dataInLen = 0 <;>
      simp [hrx, hlen, hpin, rxTransferConfig, channelTransferPrepare, channelTransferIncrementSet,
        hdir, h0]
  obtain ⟨hd, hs, h0, h1⟩ := hch
  unfold enabledSet at haim ⊢
  split_ifs at haim ⊢ with hc hc'
  · refine ⟨hbusy, by simp [hresend], fun _ => ⟨rfl, ?_⟩, ?_, hd, hs, h0, h1, ?_, ?_, ?_⟩
    · simp [hrx]
    · simpa [hlen] using hdummy
    · simpa [hlen, hpin] using hp
    · simpa [hlen] using hl
    · exact haim
  · refine ⟨hbusy, rfl, fun hf => absurd hf (by simp), ?_, hd, hs, h0, h1, ?_, ?_, ?_⟩
    · simpa [dmaStop, slaveSpiDisable, hlen] using hdummy
    · simpa [dmaStop, slaveSpiDisable, hlen, hpin] using hp
    · simpa [dmaStop, slaveSpiDisable, hlen] using hl
    · exact haim
  · refine ⟨hbusy, by simp [dmaStop, hsse], fun hf => absurd hf (by simp), ?_, hd, hs, h0, h1, ?_, ?_, ?_⟩
    · simpa [dmaStop, hlen] using hdummy
    · simpa [dmaStop, hlen, hpin] using hp
    · simpa [dmaStop, hlen] using hl
    · exact haim

/-- `_slave_transfer` from a ready driver. -/
theorem run_slaveTransfer_ready {s : Sys} (hr : Ready s.spi)
    (hp : s.spi.dataInLen ≠ 0 → s.spi.pDataIn ≠ none) (hl : s.spi.dataInLen < 65536) :
    ∃ h, slaveTransfer.run s = (.ok, s.mapSpi fun _ => h) ∧ Armed h ∧ SameConf s.spi h := by
  refine ⟨_, run_slaveTransfer hr.busy, armed_enabledSet hr hp hl, ?_⟩
  obtain ⟨h1, h2, h3, h4⟩ := sameConf_channelsSet s
  obtain ⟨g1, g2, g3, g4⟩ := sameConf_enabledSet (channelsSet s)
  exact ⟨g1.trans h1, g2.trans h2, g3.trans h3, g4.trans h4⟩

/-! ## The link -/

/-- The state that `_spi_slave_buffers_set_done_handler` makes of a start state. -/
def SpilsState.settled : SpilsState → SpilsState
  | .listeningStart => .listening
  | .dataReceiveStart => .dataReceiving
  | .dataSendStart => .dataSending
  | st => st

namespace Sys

/-- What `_transfer_data_in_prepare` hands to the driver. -/
def rxPtr (s : Sys) : Option Ptr :=
  if s.cacheB.getLoadsize ≠ 0 then none else some ⟨s.link.pBufferInCache, s.cacheB.getFreeSpacePointer⟩

def rxLen (s : Sys) : ℕ :=
  if s.cacheB.getLoadsize ≠ 0 then 0 else s.cacheB.getFreeSpaceLineSize

/-- The message in the output cache. -/
def outMess (s : Sys) : Bytes := (s.outCacheB.data.drop s.outCacheB.readPos).take s.outCacheB.getLoadsize

/-- The state after `_transfer_start`, for the driver `h` it leaves. -/
def rearm (s : Sys) (st : SpilsState) (h : HalMcuSpi) : Sys :=
  ((s.mapSpi fun _ => h).mapLink fun l => { l with
    state := st.settled
    lineInIsSaturated := decide (s.cacheB.getLoadsize ≠ 0) }).log (.armed s.outMess s.rxLen st .ok)

end Sys

/-- The driver is armed between the two caches. -/
structure ArmedFor (s : Sys) (h : HalMcuSpi) : Prop where
  armed : Armed h
  pDataIn : h.pDataIn = s.rxPtr
  dataInLen : h.dataInLen = s.rxLen
  pDataOut : h.pDataOut = some ⟨s.link.pBufferOutCache, s.outCacheB.readPos⟩
  dataOutLen : h.dataOutLen = s.outCacheB.getLoadsize

theorem run_transferDataInPrepare (s : Sys) :
    transferDataInPrepare.run s =
      ((s.rxPtr, s.rxLen), s.mapLink fun l =>
        { l with lineInIsSaturated := decide (s.cacheB.getLoadsize ≠ 0) }) := by
  unfold Sys.rxPtr Sys.rxLen
  by_cases h : s.cacheB.getLoadsize = 0
  · simp only [transferDataInPrepare, Prog.run_bind, Prog.run_read, h]
    rfl
  · simp [transferDataInPrepare, h]

theorem run_transferDataOutPrepare {s : Sys} (h : s.outCacheB.getLoadsize ≠ 0) :
    transferDataOutPrepare.run s =
      ((some ⟨s.link.pBufferOutCache, s.outCacheB.readPos⟩, s.outCacheB.getLoadsize), s) := by
  simp [transferDataOutPrepare, h, Buffer.getLoadSpacePointer]

theorem rxLen_lt (s : Sys) : s.rxLen < 65536 := by
  unfold Sys.rxLen Buffer.getFreeSpaceLineSize u16
  split_ifs <;> omega

theorem rxPtr_ne_none {s : Sys} (h : s.rxLen ≠ 0) : s.rxPtr ≠ none := by
  unfold Sys.rxLen at h
  unfold Sys.rxPtr
  by_cases hc : s.cacheB.getLoadsize = 0
  · simp [hc]
  · simp [hc] at h

/-- `hal_mcu_spi_data_transfer` from a ready driver starts the transfer and calls the handler. -/
theorem run_slaveTransferStart {s : Sys} (conf : TransferConf) (done : Code Unit)
    (hr : Ready s.spi) (hout : conf.dataOutLen ≠ 0)
    (hp : conf.dataInLen ≠ 0 → conf.pDataIn ≠ none) (hl : conf.dataInLen < 65536) :
    ∃ h, (slaveTransferStart conf done).run s = (.ok, (done.run (s.mapSpi fun _ => h)).2) ∧
      Armed h ∧ h.pDataOut = conf.pDataOut ∧ h.pDataIn = conf.pDataIn ∧
      h.dataOutLen = conf.dataOutLen ∧ h.dataInLen = conf.dataInLen := by
  obtain ⟨hb, hs, hres, hd⟩ := hr
  obtain ⟨h, hrun, ha, hsame⟩ := run_slaveTransfer_ready
    (s := s.mapSpi fun h => { h with
      pDataOut := conf.pDataOut, pDataIn := conf.pDataIn
      dataInLen := conf.dataInLen, dataOutLen := conf.dataOutLen })
    ⟨hb, hs, hres, hd⟩ hp hl
  refine ⟨h, ?_, ha, hsame⟩
  simp [slaveTransferStart, hb, hout, hrun]
  rfl

theorem run_setState (s : Sys) (st : SpilsState) :
    (setState st).run s = ((), s.mapLink fun l => { l with state := st }) := rfl

theorem run_buffersSetDoneHandler (s : Sys) :
    buffersSetDoneHandler.run s = ((), s.mapLink fun l => { l with state := l.state.settled }) := by
  unfold buffersSetDoneHandler
  simp only [Prog.run_bind, run_readLink]
  cases h : s.link.state <;>
    simp only [run_setState, Prog.run_pure, Sys.mapLink, h, SpilsState.settled] <;> rw [← h]

/-- **`_transfer_start` succeeds** from a ready driver when there is something to send. -/
theorem run_transferStart {s : Sys} (st : SpilsState) (hr : Ready s.spi)
    (hout : s.outCacheB.getLoadsize ≠ 0) :
    ∃ h, (transferStart st).run s = (.ok, s.rearm st h) ∧ ArmedFor s h := by
  let s₁ := s.mapLink fun l => { l with lineInIsSaturated := decide (s.cacheB.getLoadsize ≠ 0) }
  obtain ⟨h, hrun, ha, h1, h2, h3, h4⟩ := run_slaveTransferStart (s := s₁.mapLink fun l =>
      { l with state := st })
    ⟨some ⟨s.link.pBufferOutCache, s.outCacheB.readPos⟩, s.rxPtr, s.outCacheB.getLoadsize,
      s.rxLen⟩ buffersSetDoneHandler hr hout rxPtr_ne_none (rxLen_lt s)
  refine ⟨h, ?_, ha, h2, h4, h1, h3⟩
  unfold transferStart
  rw [Prog.run_bind_of (run_transferDataInPrepare s),
    Prog.run_bind_of (run_transferDataOutPrepare (s := s₁) hout),
    Prog.run_bind_of (run_readLink s₁ _), Prog.run_bind_of (run_setState s₁ st)]
  refine (Prog.run_bind_of hrun).trans ?_
  rw [run_buffersSetDoneHandler]
  rfl

end NeuronWired
