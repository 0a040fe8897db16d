import Mathlib.Data.List.GetD
import NeuronWired.System
import NeuronWired.Interrupt.History
import NeuronWired.Run.Basic

/-!
# TransmitStream — the bytes of one SPI transfer

`_slave_transfer` splits a message between the transmit FIFO and the transmit channel, and it does so again
after every pulse in which no byte was received and every enabling that was refused.  Each time the channels
are started the two parts are written down; they are the message, whatever the FIFO takes and however often
the transfer is set up.
-/

namespace NeuronWired

open Interrupt

/-! ## The stream -/

/-- The bytes a channel reads from `a` on. -/
def channelReads (load : Addr → UInt8) (increment : Bool) : ℕ → Addr → Bytes
  | 0, _ => []
  | n + 1, a => load a :: channelReads load increment n (if increment = true then a.next else a)

/-- What is in the transmit FIFO, and behind it what the transmit channel is programmed to bring to the data
register. -/
def Sys.stream (s : Sys) : Bytes :=
  s.spi.txFifo ++
    if s.spi.dmaTx.writeAddress = .dr ∧ s.spi.dmaTx.writeIncrement = false then
      channelReads s.load s.spi.dmaTx.readIncrement s.spi.dmaTx.transferCount s.spi.dmaTx.readAddress
    else []

/-- The stream is written down when the transmit channel is started. -/
def attempts (s s' : Sys) (streams : List Bytes) : List Bytes :=
  if s.spi.dmaTx.running = false ∧ s'.spi.dmaTx.running = true then streams ++ [s'.stream] else streams

section Split

variable {s : Sys} {p : Ptr} {n k : ℕ} {message : Bytes}

/-- The pre-fill takes as many bytes as there are and fit. -/
theorem preFill_eq (txDepth n : ℕ) (p : Ptr) (fifo : Bytes)
    (h : p.off + n ≤ (s.pool.get p.buf).data.length) :
    preFill s.load txDepth n (.mem p) fifo =
      (n - min n (txDepth - fifo.length), .mem { p with off := p.off + min n (txDepth - fifo.length) },
        fifo ++ ((s.pool.get p.buf).data.drop p.off).take (min n (txDepth - fifo.length))) := by
  induction n generalizing p fifo with
  | zero => simp [preFill]
  | succ n ih =>
    unfold preFill
    split_ifs with hroom
    · have hlt : p.off < (s.pool.get p.buf).data.length := by omega
      have hhead : s.load (.mem p) = (s.pool.get p.buf).data[p.off] := List.getD_eq_getElem _ _ hlt
      have hcount : min (n + 1) (txDepth - fifo.length) =
          min n (txDepth - (fifo ++ [s.load (.mem p)]).length) + 1 := by
        rw [List.length_append, List.length_singleton]
        omega
      have hnext : p.off + 1 + n ≤ (s.pool.get p.buf).data.length := by omega
      refine (ih { p with off := p.off + 1 } _ hnext).trans ?_
      rw [hcount, List.drop_eq_getElem_cons hlt, List.take_succ_cons, ← hhead, List.append_assoc,
        Nat.add_sub_add_right, Nat.add_assoc, Nat.add_comm 1]
      rfl
    · have hnone : min (n + 1) (txDepth - fifo.length) = 0 := by omega
      rw [hnone, List.take_zero, List.append_nil]
      rfl

/-- Reading a buffer from `p` on. -/
theorem channelReads_mem (s : Sys) (n : ℕ) (p : Ptr) (h : p.off + n ≤ (s.pool.get p.buf).data.length) :
    channelReads s.load true n (.mem p) = ((s.pool.get p.buf).data.drop p.off).take n := by
  induction n generalizing p with
  | zero => rfl
  | succ n ih =>
    have hlt : p.off < (s.pool.get p.buf).data.length := by omega
    have hhead : s.load (.mem p) = (s.pool.get p.buf).data[p.off] := List.getD_eq_getElem _ _ hlt
    have hrest : channelReads s.load true n (.mem { p with off := p.off + 1 }) =
        ((s.pool.get p.buf).data.drop (p.off + 1)).take n :=
      ih { p with off := p.off + 1 } (show p.off + 1 + n ≤ (s.pool.get p.buf).data.length by omega)
    rw [List.drop_eq_getElem_cons hlt, List.take_succ_cons, ← hhead, ← hrest]
    rfl

/-- The message is in memory from `p` on. -/
structure Sys.HasAt (s : Sys) (p : Ptr) (message : Bytes) : Prop where
  inside : p.off + message.length ≤ (s.pool.get p.buf).data.length
  bytes : ((s.pool.get p.buf).data.drop p.off).take message.length = message

/-- `k` bytes of the message are in the FIFO, and the transmit channel is set to the others. -/
structure Split (p : Ptr) (message : Bytes) (k : ℕ) (h : HalMcuSpi) : Prop where
  txFifo : h.txFifo = message.take k
  readAddress : h.dmaTx.readAddress = .mem { p with off := p.off + k }
  transferCount : h.dmaTx.transferCount = message.length - k
  readIncrement : h.dmaTx.readIncrement = true
  writeAddress : h.dmaTx.writeAddress = .dr
  writeIncrement : h.dmaTx.writeIncrement = false

/-- The two parts make up the message. -/
theorem Split.stream (h : Split p message k s.spi) (hk : k ≤ message.length) (hat : s.HasAt p message) :
    s.stream = message := by
  obtain ⟨h1, h2, h3, h4, h5, h6⟩ := h
  obtain ⟨hlen, hbytes⟩ := hat
  have hrest : channelReads s.load true (message.length - k) (.mem { p with off := p.off + k }) = message.drop k := by
    rw [channelReads_mem]
    · show ((s.pool.get p.buf).data.drop (p.off + k)).take (message.length - k) = _
      rw [← List.drop_drop, ← List.drop_take, hbytes]
    · show p.off + k + (message.length - k) ≤ (s.pool.get p.buf).data.length
      omega
  unfold Sys.stream
  rw [if_pos ⟨h5, h6⟩, h1, h2, h3, h4, hrest, List.take_append_drop]

end Split

/-! ## One attempt -/

section Attempt

variable {s : Sys} {p : Ptr}

/-- The transmit half of the two configurations, with something to send. -/
theorem txTransferConfig_some (hout : s.spi.pDataOut = some p) (hn : s.spi.dataOutLen ≠ 0) :
    (txTransferConfig (rxTransferConfig s.spi).2).1 =
      { bufferSize := s.spi.dataOutLen, readAddress := .mem p, writeAddress := .dr,
        readIncrementMode := true, writeIncrementMode := false } := by
  rw [rxTransferConfig_snd]
  unfold txTransferConfig
  rw [if_pos hn, hout]
  rfl

/-- The transmit channel only ever writes to one address. -/
theorem channelTransferPrepare_tx {c : DmaChannel} (h : c.direction = .memoryToPeripheral)
    (conf : DmaTransferConfig) : channelTransferPrepare c conf =
      { c with
        transferBufferSize := conf.bufferSize, readIncrement := conf.readIncrementMode, writeIncrement := false
        readAddress := conf.readAddress, writeAddress := conf.writeAddress, transferCount := conf.bufferSize } := by
  unfold channelTransferPrepare channelTransferIncrementSet
  simp only [h]

/-- **How `_slave_transfer` splits a message** between the empty FIFO and the transmit channel. -/
theorem split_channelsSet {message : Bytes} (hout : s.spi.pDataOut = some p)
    (hn : s.spi.dataOutLen = message.length) (h0 : s.spi.dataOutLen ≠ 0) (hfifo : s.spi.txFifo = [])
    (hdir : s.spi.dmaTx.direction = .memoryToPeripheral) (hat : s.HasAt p message) :
    Split p message (min message.length s.spi.txDepth) (channelsSet s) := by
  have htx := txTransferConfig_some hout h0
  have hset : (txTransferConfig (rxTransferConfig s.spi).2).2.txFifo = [] ∧
      (txTransferConfig (rxTransferConfig s.spi).2).2.dmaTx = s.spi.dmaTx ∧
      (txTransferConfig (rxTransferConfig s.spi).2).2.txDepth = s.spi.txDepth := by
    rw [rxTransferConfig_snd, txTransferConfig_snd]
    exact ⟨hfifo, rfl, rfl⟩
  have hfill := preFill_eq (s := s.mapSpi fun _ => (txTransferConfig (rxTransferConfig s.spi).2).2) s.spi.txDepth
    message.length p [] hat.inside
  rw [List.length_nil, Nat.sub_zero, List.nil_append] at hfill
  have hfront := congrArg (List.take (min message.length s.spi.txDepth)) hat.bytes
  rw [List.take_take, Nat.min_eq_left (Nat.min_le_left _ _)] at hfront
  unfold channelsSet
  simp only [htx, hset.1, hset.2.2, hn, dmaStartChannelsSimultaneously, channelTransferPrepare_tx (hset.2.1 ▸ hdir)]
  rw [show (s.mapSpi fun _ => (txTransferConfig (rxTransferConfig s.spi).2).2).load = _ from rfl, hfill]
  exact ⟨hfront, rfl, rfl, rfl, rfl, rfl⟩

/-- Only a start of the transmit channel is written down. -/
theorem attempts_same {s s' : Sys} (streams : List Bytes)
    (h : s'.spi.dmaTx.running = s.spi.dmaTx.running ∨ s'.spi.dmaTx.running = false) :
    attempts s s' streams = streams := by
  refine if_neg fun hstart => ?_
  rcases h with h | h
  · exact absurd (hstart.1.symm.trans (h.symm.trans hstart.2)) (by decide)
  · exact absurd (h.symm.trans hstart.2) (by decide)

theorem unseen_of_running {α : Type} {p : Code α} (hp : p.Fixes fun s => s.spi.dmaTx.running) :
    Prog.Unseen attempts p := hp.unseen fun _ _ _ h => attempts_same _ (.inl h)

theorem unseen_readSpi {α : Type} (g : HalMcuSpi → α) : Prog.Unseen attempts (readSpi g) :=
  unseen_of_running (Prog.fixes_read _)

theorem unseen_writeSpi {f : HalMcuSpi → HalMcuSpi}
    (hf : ∀ h, (f h).dmaTx.running = h.dmaTx.running ∨ (f h).dmaTx.running = false) :
    Prog.Unseen attempts (writeSpi f) := Prog.unseen_write fun s e => attempts_same e (hf s.spi)

theorem unseen_atomic {α : Type} {f : Sys → α × Sys}
    (hf : ∀ s, (f s).2.spi.dmaTx.running = s.spi.dmaTx.running) : Prog.Unseen attempts (Prog.atomic f) :=
  unseen_of_running (Prog.fixes_atomic hf)

theorem run_atomic_attempts {α β : Type} {f : Sys → α × Sys} {k : α → Code β}
    (hf : ∀ s, (f s).2.spi.dmaTx.running = s.spi.dmaTx.running) (s : Sys) (streams : List Bytes) :
    ((Prog.atomic f >>= k).beside attempts).run (s, streams) =
      ((k (f s).1).beside attempts).run ((f s).2, streams) :=
  Prog.run_unseen_bind (unseen_atomic hf) rfl

theorem run_writeSpi_attempts {β : Type} {f : HalMcuSpi → HalMcuSpi} {k : Unit → Code β}
    (hf : ∀ h, (f h).dmaTx.running = h.dmaTx.running ∨ (f h).dmaTx.running = false) (s : Sys)
    (streams : List Bytes) : ((writeSpi f >>= k).beside attempts).run (s, streams) =
      ((k ()).beside attempts).run (s.mapSpi f, streams) := Prog.run_unseen_bind (unseen_writeSpi hf) rfl

theorem unseen_assertDygma (cond : Bool) (msg : String) : Prog.Unseen attempts (assertDygma cond msg) :=
  .ite (Prog.unseen_pure _) (Prog.unseen_write fun _ e => attempts_same e (.inl rfl))

theorem unseen_slaveTransferEnable : Prog.Unseen attempts slaveTransferEnable := by
  refine .bind (unseen_readSpi _) fun _ => .ite (Prog.unseen_pure _) (.bind (unseen_writeSpi fun _ => .inl rfl)
    fun _ => .bind (unseen_atomic fun s => ?_) fun _ =>
      .ite (.bind (unseen_writeSpi fun _ => .inl rfl) fun _ => Prog.unseen_pure _) (Prog.unseen_pure _))
  split_ifs <;> rfl

/-- A refused enabling stops the channels and starts nothing. -/
theorem unseen_slaveTransferFinish : Prog.Unseen attempts slaveTransferFinish :=
  .bind unseen_slaveTransferEnable fun _ => .ite (.bind (unseen_writeSpi fun _ => .inr rfl) fun _ =>
    .ite (.bind (unseen_writeSpi fun _ => .inl rfl) fun _ => Prog.unseen_pure _)
      (.bind (unseen_writeSpi fun _ => .inl rfl) fun _ => Prog.unseen_pure _)) (Prog.unseen_pure _)

/-- `_slave_transfer` is one attempt. -/
theorem run_slaveTransfer_attempts (hb : s.spi.busy = false) (hstop : s.spi.dmaTx.running = false)
    (streams : List Bytes) :
    (slaveTransfer.beside attempts).run (s, streams) =
      (.ok, s.mapSpi fun _ => enabledSet (channelsSet s),
        streams ++ [(s.mapSpi fun _ => channelsSet s).stream]) := by
  have hassert := run_assertDygma s (!s.spi.busy)
    "The SPI slave must not be busy before starting the new SPI transfer."
  rw [hb, if_pos (by decide)] at hassert
  unfold slaveTransfer
  rw [Prog.run_unseen_bind (unseen_readSpi _) (run_readSpi s _), hb,
    Prog.run_unseen_bind (unseen_assertDygma _ _) hassert,
    run_atomic_attempts fun s => ?_, run_atomic_attempts fun s => ?_, preFillTx, run_atomic_attempts fun s => rfl,
    run_writeSpi_attempts fun h => ?_]
  · have hwrite : ∀ t : Sys, t.spi.dmaTx.running = false → attempts t (s.mapSpi fun _ => channelsSet s) streams =
        streams ++ [(s.mapSpi fun _ => channelsSet s).stream] := fun t ht => if_pos ⟨ht, rfl⟩
    refine (Prog.run_beside_write _ streams).trans ((congrArg (fun l => (slaveTransferFinish.beside attempts).run
      (s.mapSpi fun _ => channelsSet s, l)) (hwrite _ ?_)).trans ?_)
    · show (txTransferConfig (rxTransferConfig s.spi).2).2.dmaTx.running = false
      rw [txTransferConfig_snd, rxTransferConfig_snd]
      exact hstop
    · refine (Prog.run_unseen unseen_slaveTransferFinish _ _).trans ?_
      rw [run_slaveTransferFinish]
      rfl
  · exact .inl rfl
  · show (txTransferConfig s.spi).2.dmaTx.running = _
    rw [txTransferConfig_snd]
  · show (rxTransferConfig s.spi).2.dmaTx.running = _
    rw [rxTransferConfig_snd]

end Attempt

/-! ## The driver between two attempts -/

/-- A driver with nothing to transfer: after its initialisation, and whenever it reports a transfer. -/
structure FreeDriver (h : HalMcuSpi) : Prop where
  ready : Ready h
  txFifo : h.txFifo = []
  txStopped : h.dmaTx.running = false
  txDirection : h.dmaTx.direction = .memoryToPeripheral

/-- The driver in front of the first transfer. -/
theorem freeDriver_prepared {conf : SpilsConf} (hc : conf.Ok) (hw : Board) (slave : SpiSlave) :
    FreeDriver (prepared conf hw slave).spi := by
  rw [prepared_eq hc]
  exact ⟨⟨rfl, rfl, rfl, rfl⟩, rfl, rfl, rfl⟩

namespace TransferConf

variable (conf : TransferConf)

/-- The message to send. -/
def message (s : Sys) : Bytes := s.bytesAt conf.pDataOut conf.dataOutLen

/-- There are bytes to send, and `p_data_out` has as many as `data_out_len` says; `data_in_len` is a `size_t`. -/
structure Proper (s : Sys) : Prop where
  nonempty : 1 ≤ conf.dataOutLen
  whole : (conf.message s).length = conf.dataOutLen
  dataInLen : conf.dataInLen < 4294967296

/-- The driver has taken the configuration over. -/
structure Taken (h : HalMcuSpi) : Prop where
  pDataOut : h.pDataOut = conf.pDataOut
  pDataIn : h.pDataIn = conf.pDataIn
  dataOutLen : h.dataOutLen = conf.dataOutLen
  dataInLen : h.dataInLen = conf.dataInLen

/-- The receive channel waits for the first byte of the input buffer, or for one dummy byte. -/
structure Receives (h : HalMcuSpi) : Prop where
  bufferSize : h.dmaRx.transferBufferSize = h.dmaRx.transferCount
  buffer : conf.dataInLen ≠ 0 → h.dmaRx.writeAddress = .ofPtr conf.pDataIn ∧ h.dmaRx.writeIncrement = true ∧
    h.dmaRx.transferCount = conf.dataInLen
  dummy : conf.dataInLen = 0 → h.dmaRx.writeAddress = .dummyIn ∧ h.dmaRx.transferCount = 1

end TransferConf

/-- A transfer of `bytes` that is set up and has not taken place. -/
structure Pending (conf : TransferConf) (bytes : Bytes) (s : Sys) : Prop where
  busy : s.spi.busy = true
  enabled : s.spi.sse = true → s.spi.resendRequest = false
  dummy : s.spi.dummyInUsed = decide (conf.dataInLen = 0)
  rxDirection : s.spi.dmaRx.direction = .peripheralToMemory
  txDirection : s.spi.dmaTx.direction = .memoryToPeripheral
  taken : conf.Taken s.spi
  receives : conf.Receives s.spi
  proper : conf.Proper s
  message : conf.message s = bytes
  split : s.spi.sse = true → ∃ p k, conf.pDataOut = some p ∧ k ≤ bytes.length ∧ Split p bytes k s.spi

section Pending

variable {conf : TransferConf} {bytes : Bytes} {s t : Sys}

/-- The message is where `p_data_out` points. -/
theorem TransferConf.Proper.at (hc : conf.Proper s) :
    ∃ p, conf.pDataOut = some p ∧ s.HasAt p (conf.message s) := by
  obtain ⟨hpos, hwhole, -⟩ := hc
  cases hp : conf.pDataOut with
  | none =>
    have hnil : conf.message s = [] := by
      unfold TransferConf.message
      rw [hp]
      rfl
    rw [hnil, List.length_nil] at hwhole
    omega
  | some p =>
    have hmess : conf.message s = ((s.pool.get p.buf).data.drop p.off).take conf.dataOutLen := by
      unfold TransferConf.message
      rw [hp]
      rfl
    refine ⟨p, rfl, ?_, ?_⟩
    · rw [hwhole]
      rw [hmess, List.length_take, List.length_drop] at hwhole
      omega
    · rw [hwhole, hmess]

theorem TransferConf.Proper.congr (hc : conf.Proper s) (h : conf.message t = conf.message s) : conf.Proper t := by
  obtain ⟨hpos, hwhole, hin⟩ := hc
  exact ⟨hpos, by rw [h]; exact hwhole, hin⟩

/-- Nothing but the driver and the message matters. -/
theorem Pending.congr (h : Pending conf bytes s) (hs : t.spi = s.spi) (hm : conf.message t = conf.message s) :
    Pending conf bytes t := by
  obtain ⟨h1, h2, h3, h4, h5, h6, h7, h8, h9, h10⟩ := h
  rw [← hs] at h1 h2 h3 h4 h5 h6 h7 h10
  exact ⟨h1, h2, h3, h4, h5, h6, h7, h8.congr hm, hm.trans h9, h10⟩

/-- With the peripheral on, the message is what it will send. -/
theorem Pending.stream (h : Pending conf bytes s) (hon : s.spi.sse = true) : s.stream = bytes := by
  obtain ⟨p, hp, hat⟩ := h.proper.at
  obtain ⟨q, k, hq, hk, hsplit⟩ := h.split hon
  obtain rfl : p = q := Option.some.inj (hp.symm.trans hq)
  rw [h.message] at hat
  exact hsplit.stream hk hat

/-- The driver after both channels have been set up. -/
theorem receives_channelsSet (ht : conf.Taken s.spi) (hdir : s.spi.dmaRx.direction = .peripheralToMemory) :
    conf.Receives (channelsSet s) ∧ (channelsSet s).dmaRx.direction = .peripheralToMemory := by
  have hrx := dmaRx_channelsSet s
  obtain ⟨-, hin, -, hlen⟩ := ht
  unfold rxTransferConfig channelTransferPrepare channelTransferIncrementSet at hrx
  rw [hlen, hin] at hrx
  by_cases h0 : conf.dataInLen = 0
  · simp only [h0, hdir, ne_eq, not_true_eq_false, if_false] at hrx
    rw [hrx]
    exact ⟨⟨by rw [hrx], fun h => absurd h0 h, fun _ => by rw [hrx]; exact ⟨rfl, rfl⟩⟩, rfl⟩
  · simp only [h0, hdir, ne_eq, not_false_eq_true, if_true] at hrx
    rw [hrx]
    exact ⟨⟨by rw [hrx], fun _ => by rw [hrx]; exact ⟨rfl, rfl, rfl⟩, fun h => absurd h h0⟩, rfl⟩

theorem txDirection_channelsSet (s : Sys) : (channelsSet s).dmaTx.direction = s.spi.dmaTx.direction := by
  simp only [channelsSet, rxTransferConfig_snd, txTransferConfig_snd, dmaStartChannelsSimultaneously,
    channelTransferPrepare, channelTransferIncrementSet]
  cases h : s.spi.dmaTx.direction <;> rfl

/-- Enabling changes nothing of what the channels were set to. -/
theorem kept_enabledSet (h : HalMcuSpi) : (enabledSet h).busy = h.busy ∧
    (enabledSet h).dummyInUsed = h.dummyInUsed ∧
    (enabledSet h).dmaRx = { h.dmaRx with running := (enabledSet h).dmaRx.running } ∧
    (enabledSet h).dmaTx = { h.dmaTx with running := (enabledSet h).dmaTx.running } := by
  unfold enabledSet
  split_ifs <;> exact ⟨rfl, rfl, rfl, rfl⟩

/-- When it succeeds it also leaves the FIFO alone. -/
theorem enabledSet_of_sse {h : HalMcuSpi} (hs : h.sse = false) (he : (enabledSet h).sse = true) :
    enabledSet h = { h with dmacr := true, sse := true } := by
  unfold enabledSet at he ⊢
  split_ifs at he ⊢
  · rfl
  · cases he
  · exact absurd (hs.symm.trans he) (by decide)

/-- An attempt, from a free driver that has taken the configuration over. -/
theorem pending_attempt (hf : FreeDriver s.spi) (ht : conf.Taken s.spi) (hc : conf.Proper s) :
    (s.mapSpi fun _ => channelsSet s).stream = conf.message s ∧
      Pending conf (conf.message s) (s.mapSpi fun _ => enabledSet (channelsSet s)) := by
  obtain ⟨⟨hbusy, hsse, hresend, hrx⟩, hfifo, hstop, htx⟩ := hf
  obtain ⟨p, hp, hat⟩ := hc.at
  have hlen : s.spi.dataOutLen = (conf.message s).length := ht.dataOutLen.trans hc.whole.symm
  have hne : s.spi.dataOutLen ≠ 0 := by
    rw [ht.dataOutLen]
    exact Nat.ne_of_gt hc.nonempty
  have hsplit := split_channelsSet (ht.pDataOut.trans hp) hlen hne hfifo htx hat
  have hk : min (conf.message s).length s.spi.txDepth ≤ (conf.message s).length := Nat.min_le_left _ _
  refine ⟨Split.stream (s := s.mapSpi fun _ => channelsSet s) hsplit hk ⟨hat.inside, hat.bytes⟩, ?_⟩
  obtain ⟨hb, hs, hr, hd⟩ := flags_channelsSet s
  obtain ⟨hrec, hdir⟩ := receives_channelsSet ht hrx
  obtain ⟨kb, kd, krx, ktx⟩ := kept_enabledSet (channelsSet s)
  obtain ⟨g1, g2, g3, g4⟩ := sameConf_channelsSet s
  obtain ⟨e1, e2, e3, e4⟩ := sameConf_enabledSet (channelsSet s)
  have hon := enabledSet_of_sse (hs.trans hsse)
  refine ⟨kb.trans hb, fun he => ?_, ?_, ?_, ?_, ?_, ?_, hc.congr rfl, rfl, fun he => ⟨p, _, hp, hk, ?_⟩⟩
  · show (enabledSet (channelsSet s)).resendRequest = false
    rw [hon he]
    exact hr.trans hresend
  · exact kd.trans (hd.trans (by rw [ht.dataInLen]))
  · show (enabledSet (channelsSet s)).dmaRx.direction = _
    rw [krx]
    exact hdir
  · show (enabledSet (channelsSet s)).dmaTx.direction = _
    rw [ktx]
    exact (txDirection_channelsSet s).trans htx
  · exact ⟨e1.trans (g1.trans ht.pDataOut), e2.trans (g2.trans ht.pDataIn), e3.trans (g3.trans ht.dataOutLen),
      e4.trans (g4.trans ht.dataInLen)⟩
  · obtain ⟨r1, r2, r3⟩ := hrec
    show conf.Receives (enabledSet (channelsSet s))
    refine ⟨?_, ?_, ?_⟩ <;> rw [krx]
    · exact r1
    · exact r2
    · exact r3
  · obtain ⟨f1, f2, f3, f4, f5, f6⟩ := hsplit
    rw [show enabledSet (channelsSet s) = _ from hon he]
    exact ⟨f1, f2, f3, f4, f5, f6⟩

end Pending

/-! ## Starting a transfer -/

/-- What an attempt leaves alone: the link, its buffers, the object above it and everything observed. -/
structure Untouched (s t : Sys) : Prop where
  link : t.link = s.link
  pool : t.pool = s.pool
  slave : t.slave = s.slave
  trace : t.ghost.trace = s.ghost.trace

/-- `_slave_transfer_start`, beside the streams written down. -/
def started (conf : TransferConf) (s : Sys) : Result × Sys × List Bytes :=
  ((slaveTransferStart conf buffersSetDoneHandler).beside attempts).run (s, [])

section Start

variable {conf : TransferConf} {s : Sys}

theorem unseen_buffersSetDoneHandler : Prog.Unseen attempts buffersSetDoneHandler := by
  have hset : ∀ st, (setState st).Fixes fun s => s.spi.dmaTx.running := fun st => Prog.fixes_write fun _ => rfl
  refine unseen_of_running (.bind (Prog.fixes_read _) fun st => ?_)
  cases st <;> first | exact hset _ | exact Prog.fixes_pure _

/-- `_slave_transfer` from a free driver: one attempt, with the message as its stream. -/
theorem run_attempt (hf : FreeDriver s.spi) (ht : conf.Taken s.spi) (hc : conf.Proper s) :
    ∃ h, (∀ streams, (slaveTransfer.beside attempts).run (s, streams) =
        (.ok, s.mapSpi fun _ => h, streams ++ [conf.message s])) ∧
      Pending conf (conf.message s) (s.mapSpi fun _ => h) := by
  obtain ⟨hstream, hpending⟩ := pending_attempt hf ht hc
  refine ⟨_, fun streams => ?_, hpending⟩
  rw [run_slaveTransfer_attempts hf.ready.busy hf.txStopped, hstream]

/-- `_slave_transfer_start` makes the first attempt; whether it succeeds or not, the link is as its own handler
leaves it. -/
theorem started_eq (hf : FreeDriver s.spi) (hc : conf.Proper s) :
    ∃ t, started conf s = (.ok, t, [conf.message s]) ∧ Pending conf (conf.message s) t ∧
      Untouched (buffersSetDoneHandler.run s).2 t := by
  have hn : ¬(conf.dataInLen = 0 ∧ conf.dataOutLen = 0) := fun h => by
    have := hc.nonempty
    omega
  set u := s.mapSpi fun h => { h with
    pDataOut := conf.pDataOut, pDataIn := conf.pDataIn, dataInLen := conf.dataInLen
    dataOutLen := conf.dataOutLen } with hu
  obtain ⟨⟨h1, h2, h3, h4⟩, h5, h6, h7⟩ := hf
  have ht : conf.Taken u.spi := ⟨rfl, rfl, rfl, rfl⟩
  obtain ⟨h, hrun, hpending⟩ := run_attempt (s := u) ⟨⟨h1, h2, h3, h4⟩, h5, h6, h7⟩ ht (hc.congr rfl)
  refine ⟨(buffersSetDoneHandler.run (u.mapSpi fun _ => h)).2, ?_, ?_, ?_⟩
  · unfold started slaveTransferStart
    rw [Prog.run_unseen_bind (unseen_readSpi _) (run_readSpi s _), h1, if_neg (by decide), if_neg hn,
      run_writeSpi_attempts fun _ => ?_, Prog.beside_bind, Prog.run_bind_of (hrun []), if_neg (by decide),
      Prog.run_unseen_bind unseen_buffersSetDoneHandler rfl]
    · rfl
    · exact .inl rfl
  · rw [run_buffersSetDoneHandler]
    exact hpending.congr rfl rfl
  · rw [run_buffersSetDoneHandler, run_buffersSetDoneHandler]
    exact ⟨rfl, rfl, rfl, rfl⟩

end Start

/-! ## A chip-select pulse -/

section Pulse

variable {conf : TransferConf} {bytes : Bytes} {s : Sys} {e : Edge}

/-- What a pulse leaves of the transmit channel. -/
theorem dmaTx_clockIn (s : Sys) (e : Edge) :
    (s.clockIn e).spi.dmaTx.running = s.spi.dmaTx.running ∧
      (s.clockIn e).spi.dmaTx.direction = s.spi.dmaTx.direction := by
  unfold Sys.clockIn Sys.dmaStore Sys.dmaCount
  split <;> exact ⟨rfl, rfl⟩

/-- Without a received byte no memory changes. -/
theorem pool_clockIn (h : s.received e = []) : (s.clockIn e).pool = s.pool := by
  have hset : ∀ (q : Pool) (i : BufId), q.set i (q.get i) = q := fun q i => by cases i <;> rfl
  have hcopy : ∀ (b : Buffer) (off : ℕ), { b with data := memcpy b.data off [] } = b := fun b off => by
    unfold memcpy
    rw [List.take_nil, List.append_nil, List.length_nil, Nat.add_zero, List.take_append_drop]
  unfold Sys.clockIn Sys.dmaStore
  rw [h]
  split
  · have hnil : (if s.spi.dmaRx.writeIncrement = true then ([] : Bytes)
        else List.drop (([] : Bytes).length - 1) []) = [] := by split_ifs <;> rfl
    simp only [hnil, hcopy]
    exact hset _ _
  · rfl
  · rfl

/-- The number of bytes the receive channel has taken. -/
theorem Pending.count (h : Pending conf bytes s) (e : Edge) :
    dmaGetTransferCount (s.clockIn e).spi.dmaRx = (s.received e).length := by
  obtain ⟨-, -, -, -, hsize, hcount, -⟩ := spi_clockIn s e
  have hle := length_received_le s e
  have hlt : s.spi.dmaRx.transferCount < 4294967296 := by
    by_cases h0 : conf.dataInLen = 0
    · rw [(h.receives.dummy h0).2]
      decide
    · rw [(h.receives.buffer h0).2.2]
      exact h.proper.dataInLen
  unfold dmaGetTransferCount u32
  rw [hsize, hcount, h.receives.bufferSize]
  omega

/-- The driver that has been taken down is free. -/
theorem Pending.freeDriver (h : Pending conf bytes s) (e : Edge) :
    FreeDriver { (s.clockIn e).spi.idled with resendRequest := false } := by
  obtain ⟨-, -, -, hdir, -⟩ := spi_clockIn s e
  exact ⟨⟨rfl, rfl, rfl, hdir.trans h.rxDirection⟩, rfl, rfl, (dmaTx_clockIn s e).2.trans h.txDirection⟩

theorem Pending.takenDown (h : Pending conf bytes s) (e : Edge) : conf.Taken (s.clockIn e).spi.idled := by
  obtain ⟨-, -, -, -, -, -, h1, h2, h3, h4⟩ := spi_clockIn s e
  obtain ⟨g1, g2, g3, g4⟩ := h.taken
  exact ⟨h1.trans g1, h2.trans g2, h3.trans g3, h4.trans g4⟩

/-- `_slave_cs_deselected_process` up to its decision, for every handler. -/
theorem run_csEdge_attempts (h : Pending conf bytes s) (e : Edge) (done : TransferResult → Code Unit)
    (streams : List Bytes) :
    ((csEdge done e).beside attempts).run (s, streams) =
      ((if s.received e = [] ∨ s.spi.resendRequest = true then do
          writeSpi fun h => { h with resendRequest := false }
          let result ← slaveTransfer
          assertDygma (result = .ok) "Unexpected failure of the SPI slave transfer start"
        else
          done (slaveTransferResultGet (slaveSpiDisable (s.clockIn e).spi)).2 : Code Unit).beside attempts).run
        ((s.clockIn e).mapSpi HalMcuSpi.idled, streams) := by
  have hclock : ∀ (s : Sys) (l : List Bytes), attempts s (s.clockIn e) l = l :=
    fun s l => attempts_same l (.inl (dmaTx_clockIn s e).1)
  obtain ⟨hbusy, hresend, -⟩ := spi_clockIn s e
  have hvalid : ((slaveTransferResultGet (slaveSpiDisable (s.clockIn e).spi)).1 = false ∨
      (s.clockIn e).spi.resendRequest = true) = (s.received e = [] ∨ s.spi.resendRequest = true) := by
    rw [hresend]
    show (decide (dmaGetTransferCount (s.clockIn e).spi.dmaRx ≠ 0) = false ∨ _) = _
    rw [h.count e]
    cases s.received e <;> simp
  unfold csEdge slaveCsDeselectedProcess
  rw [Prog.run_unseen_bind (Prog.unseen_write hclock) (Prog.run_write _ _),
    Prog.run_unseen_bind (unseen_readSpi _) (run_readSpi _ _), if_neg (by rw [hbusy, h.busy]; decide),
    run_writeSpi_attempts fun _ => .inl ?_, Prog.run_unseen_bind (unseen_readSpi _) (run_readSpi _ _),
    run_writeSpi_attempts fun _ => .inr ?_, run_writeSpi_attempts fun _ => .inl ?_,
    Prog.run_unseen_bind (unseen_readSpi _) (run_readSpi _ _)]
  · simp only [← hvalid]
    rfl
  · rfl
  · rfl
  · rfl

/-- **A pulse without a received byte** is one more attempt with the same message, and concerns no handler. -/
theorem Pending.silent (h : Pending conf bytes s) (hsilent : s.received e = []) :
    ∃ t, (∀ done streams, ((csEdge done e).beside attempts).run (s, streams) = ((), t, streams ++ [bytes])) ∧
      Pending conf bytes t ∧ Untouched s t := by
  set u := (s.clockIn e).mapSpi fun h => { h.idled with resendRequest := false } with hu
  have hmess : conf.message u = bytes := by
    rw [← h.message]
    unfold TransferConf.message Sys.bytesAt
    rw [hu, Sys.pool_mapSpi, pool_clockIn hsilent]
  obtain ⟨t1, t2, t3, t4⟩ := h.takenDown e
  have hproper : conf.Proper u := h.proper.congr (hmess.trans h.message.symm)
  obtain ⟨g, hrun, hpending⟩ := run_attempt (s := u) (h.freeDriver e) ⟨t1, t2, t3, t4⟩ hproper
  rw [hmess] at hrun hpending
  obtain ⟨hlink, hslave, -, hghost⟩ := link_clockIn s e
  refine ⟨_, fun done streams => ?_, hpending, hlink, pool_clockIn hsilent, hslave, ?_⟩
  · rw [run_csEdge_attempts h e done, if_pos (.inl hsilent), run_writeSpi_attempts fun _ => .inl ?_,
      Prog.beside_bind]
    · exact Prog.run_bind_of (hrun streams)
    · rfl
  · show (s.clockIn e).ghost.trace = _
    rw [hghost]

/-- **A pulse with received bytes** is reported once, by a free driver; without an input buffer as no bytes. -/
theorem Pending.reported (h : Pending conf bytes s) (hvalid : s.received e ≠ []) :
    ∃ r, (∀ done, (csEdge done e).run s = (done r).run ((s.clockIn e).mapSpi HalMcuSpi.idled)) ∧
      FreeDriver (s.clockIn e).spi.idled ∧
      r.dataInLen = if conf.dataInLen = 0 then 0 else (s.received e).length := by
  have hon : s.spi.sse = true := by
    by_contra hoff
    refine hvalid ?_
    unfold Sys.received
    rw [if_neg fun hc => hoff hc.1]
  have hresend : s.spi.resendRequest = false := h.enabled hon
  have hfree := h.freeDriver e
  obtain ⟨-, hres, hdummy, -⟩ := spi_clockIn s e
  refine ⟨(slaveTransferResultGet (slaveSpiDisable (s.clockIn e).spi)).2, fun done => ?_, ?_, ?_⟩
  · have hrun := run_csEdge_attempts h e done []
    rw [if_neg (not_or.mpr ⟨hvalid, by rw [hresend]; decide⟩)] at hrun
    have hstate := congrArg (fun x : Unit × Sys × List Bytes => x.2.1) hrun
    simp only [Prog.run_recorded_fst] at hstate
    exact Prod.ext rfl hstate
  · obtain ⟨⟨h1, h2, -, h4⟩, h5, h6, h7⟩ := hfree
    exact ⟨⟨h1, h2, hres.trans hresend, h4⟩, h5, h6, h7⟩
  · show (if (s.clockIn e).spi.dummyInUsed = true then 0 else dmaGetTransferCount (s.clockIn e).spi.dmaRx) = _
    rw [hdummy, h.dummy, h.count e]
    simp only [decide_eq_true_eq]

end Pulse

/-! ## Any number of attempts -/

/-- What happens while a transfer waits: a chip-select pulse, or other code runs. -/
inductive LineEvent where
  | pulse (e : Edge)
  | other (u : Sys → Sys)

namespace LineEvent

variable (conf : TransferConf) (done : TransferResult → Code Unit)

/-- One event, beside the streams written down. -/
def happen (x : Sys × List Bytes) : LineEvent → Sys × List Bytes
  | .pulse e => (((csEdge done e).beside attempts).run x).2
  | .other u => (u x.1, x.2)

/-- No byte is received in a pulse, and other code leaves the driver and the message alone. -/
def Uneventful (x : Sys × List Bytes) : LineEvent → Prop
  | .pulse e => x.1.received e = []
  | .other u => (u x.1).spi = x.1.spi ∧ conf.message (u x.1) = conf.message x.1

/-- A pulse calls no handler, whichever is registered, and leaves the link and its buffers alone. -/
def Unnoticed (x : Sys × List Bytes) : LineEvent → Prop
  | .pulse e => Untouched x.1 ((csEdge done e).run x.1).2 ∧
      ∀ done', (csEdge done' e).run x.1 = (csEdge done e).run x.1
  | .other _ => True

/-- The event is an attempt. -/
def isPulse : LineEvent → Bool
  | .pulse _ => true
  | .other _ => false

section Run

variable {conf : TransferConf} {bytes : Bytes} {x : Sys × List Bytes} {ev : LineEvent}

theorem pending_happen (done : TransferResult → Code Unit) (h : Pending conf bytes x.1) (hq : Uneventful conf x ev) :
    Pending conf bytes (happen done x ev).1 ∧
      (happen done x ev).2 = x.2 ++ List.replicate (if ev.isPulse = true then 1 else 0) bytes ∧ Unnoticed done x ev := by
  cases ev with
  | pulse e =>
    obtain ⟨t, hrun, hpending, hsame⟩ := h.silent hq
    have hplain : ∀ done, (csEdge done e).run x.1 = ((), t) := fun done => by
      have hstate := congrArg (fun y : Unit × Sys × List Bytes => y.2.1) (hrun done [])
      simp only [Prog.run_recorded_fst] at hstate
      exact Prod.ext rfl hstate
    have hhappen : happen done x (.pulse e) = (t, x.2 ++ [bytes]) := congrArg Prod.snd (hrun done x.2)
    rw [hhappen]
    refine ⟨hpending, rfl, ?_, fun done' => (hplain done').trans (hplain done).symm⟩
    rw [hplain done]
    exact hsame
  | other u => exact ⟨h.congr hq.1 hq.2, (List.append_nil _).symm, trivial⟩

/-- The streams of a run of uneventful events. -/
theorem pending_after (done : TransferResult → Code Unit) {evs : List LineEvent} (h : Pending conf bytes x.1)
    (hq : Run.Along (happen done) (Uneventful conf) x evs) :
    Pending conf bytes (Run.after (happen done) x evs).1 ∧
      (Run.after (happen done) x evs).2 = x.2 ++ List.replicate (evs.countP isPulse) bytes ∧
      Run.Along (happen done) (Unnoticed done) x evs := by
  induction evs generalizing x with
  | nil => exact ⟨h, (List.append_nil _).symm, trivial⟩
  | cons ev evs ih =>
    obtain ⟨h1, h2, h3⟩ := pending_happen done h hq.1
    obtain ⟨g1, g2, g3⟩ := ih h1 hq.2
    refine ⟨g1, ?_, h3, g3⟩
    rw [Run.after_cons, g2, h2, List.append_assoc, List.replicate_append_replicate, List.countP_cons, Nat.add_comm]

end Run

end LineEvent

section Transfer

open LineEvent

/-- **The transmit stream of one transfer.**  From a free driver, and however often the transfer is set up before
a byte is received: every attempt sends exactly the message, no attempt concerns the link, the input buffer stays
the same, and the one pulse with received bytes is reported with as many, or with none if there is no buffer. -/
theorem transmit_stream (done : TransferResult → Code Unit) {conf : TransferConf} {s : Sys}
    (hf : FreeDriver s.spi) (hc : conf.Proper s) {evs : List LineEvent}
    (hq : Run.Along (happen done) (Uneventful conf) (started conf s).2 evs) :
    (started conf s).1 = .ok ∧ Untouched (buffersSetDoneHandler.run s).2 (started conf s).2.1 ∧
      Run.Along (happen done) (Unnoticed done) (started conf s).2 evs ∧
      ∀ x, x = Run.after (happen done) (started conf s).2 evs →
        x.2 = List.replicate (1 + evs.countP isPulse) (conf.message s) ∧
        (x.1.spi.sse = true → x.1.stream = conf.message s) ∧ conf.Taken x.1.spi ∧ conf.Receives x.1.spi ∧
        ∀ e, x.1.received e ≠ [] → ∃ r,
          (∀ done', (csEdge done' e).run x.1 = (done' r).run ((x.1.clockIn e).mapSpi HalMcuSpi.idled)) ∧
          FreeDriver (x.1.clockIn e).spi.idled ∧
          r.dataInLen = if conf.dataInLen = 0 then 0 else (x.1.received e).length := by
  obtain ⟨t, hstart, hpending, hsame⟩ := started_eq hf hc
  rw [hstart] at hq ⊢
  obtain ⟨h, hstreams, hunnoticed⟩ := pending_after done (x := (t, [conf.message s])) hpending hq
  refine ⟨rfl, hsame, hunnoticed, ?_⟩
  rintro x rfl
  refine ⟨hstreams.trans ?_, h.stream, h.taken, h.receives, fun e he => h.reported he⟩
  rw [← List.replicate_append_replicate]
  rfl

/-- A result message of two bytes in front of a FIFO of one byte, on a board whose chip select is active. -/
def sampleReady : Sys :=
  (prepared ⟨4, 1000⟩ ⟨1, true, false, 0⟩ ⟨false, false, false, .new 4, .new 4⟩).answer MessType.resultReady

/-- The message with the input buffer behind it. -/
def sampleTransfer : TransferConf := ⟨some ⟨.b2, 0⟩, some ⟨.b0, 0⟩, 2, 6⟩

/-- A pulse that is not listened to, a tick, an empty pulse that finds the reset not done, and one more pulse. -/
def sampleWait : List LineEvent :=
  [.pulse ⟨[9, 9], 0, true, true⟩, .other fun s => { s with now := s.now + 1 }, .pulse ⟨[], 1, false, true⟩,
    .pulse ⟨[7], 0, true, true⟩]

theorem transmit_stream_ready :
    (Run.after (happen transferDoneHandler) (started sampleTransfer sampleReady).2 sampleWait).2 =
      [[2, 0x82], [2, 0x82], [2, 0x82], [2, 0x82]] ∧
    (Run.after (happen transferDoneHandler) (started sampleTransfer sampleReady).2 sampleWait).1.received
      (.of [1, 2]) ≠ [] := by
  have hfree : FreeDriver sampleReady.spi := freeDriver_prepared (show SpilsConf.Ok ⟨4, 1000⟩ by decide) _ _
  have hproper : sampleTransfer.Proper sampleReady := ⟨by decide, by decide +kernel, by decide⟩
  have htick : ∀ x, Uneventful sampleTransfer x (.other fun s => { s with now := s.now + 1 }) := fun _ => ⟨rfl, rfl⟩
  have hpulse : ∀ x e, x.1.received e = [] → Uneventful sampleTransfer x (.pulse e) := fun _ _ h => h
  have hquiet : Run.Along (happen transferDoneHandler) (Uneventful sampleTransfer)
      (started sampleTransfer sampleReady).2 sampleWait :=
    ⟨hpulse _ _ (by decide +kernel), htick _, hpulse _ _ (by decide +kernel), hpulse _ _ (by decide +kernel), trivial⟩
  obtain ⟨-, -, -, h⟩ := transmit_stream transferDoneHandler hfree hproper hquiet
  obtain ⟨hstreams, -⟩ := h _ rfl
  have hmess : sampleTransfer.message sampleReady = [2, 0x82] := by decide +kernel
  rw [hmess] at hstreams
  exact ⟨hstreams, by decide +kernel⟩

end Transfer

end NeuronWired
