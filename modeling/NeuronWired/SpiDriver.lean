import NeuronWired.State

/-!
# SpiDriver — the RP20xx SPI slave driver (`hal_ll_rp20xx_spi.c`, `hal_ll_rp20xx_dma.c`)

The driver is only ever run by the chip-select interrupt (and once by the initialisation), so its
register writes are grouped by source statement.  The two handlers of the layer above are
parameters.  `_spi_line_configure` and the DMA calls used here return `RESULT_OK` on every path, and
the calls to them are followed on that path only.
-/

namespace NeuronWired

open Interrupt

/-! ## The DMA channels -/

/-- `_channel_transfer_increment_set`. -/
def channelTransferIncrementSet (c : DmaChannel) (conf : DmaTransferConfig) : DmaChannel :=
  match c.direction with
  | .memoryToMemory =>
    { c with readIncrement := conf.readIncrementMode, writeIncrement := conf.writeIncrementMode }
  | .memoryToPeripheral => { c with readIncrement := conf.readIncrementMode, writeIncrement := false }
  | .peripheralToMemory => { c with readIncrement := false, writeIncrement := conf.writeIncrementMode }
  | .peripheralToPeripheral => { c with readIncrement := false, writeIncrement := false }

/-- `_channel_transfer_prepare`: `dma_channel_configure` sets the addresses and the count and does not
start the channel. -/
def channelTransferPrepare (c : DmaChannel) (conf : DmaTransferConfig) : DmaChannel :=
  { channelTransferIncrementSet { c with transferBufferSize := conf.bufferSize } conf with
    readAddress := conf.readAddress
    writeAddress := conf.writeAddress
    transferCount := conf.bufferSize }

/-- `hal_ll_mcu_dma_start_channels_simultaneously`. -/
def dmaStartChannelsSimultaneously (tx rx : DmaTransferConfig) (h : HalMcuSpi) : HalMcuSpi :=
  { h with
    dmaTx := { channelTransferPrepare h.dmaTx tx with running := true }
    dmaRx := { channelTransferPrepare h.dmaRx rx with running := true } }

/-- `hal_mcu_dma_stop` on both channels. -/
def dmaStop (h : HalMcuSpi) : HalMcuSpi :=
  { h with dmaTx := { h.dmaTx with running := false }, dmaRx := { h.dmaRx with running := false } }

/-- `hal_ll_mcu_dma_get_transfer_count`. -/
def dmaGetTransferCount (c : DmaChannel) : ℕ := u32 ((c.transferBufferSize : ℤ) - c.transferCount)

/-! ## Enabling and disabling the peripheral -/

/-- `_slave_spi_disable`: the reset at its end empties the internal FIFO. -/
def slaveSpiDisable (h : HalMcuSpi) : HalMcuSpi :=
  { h with sse := false, dmacr := false, txFifo := [] }

/-- `_slave_spi_enable`, which runs with interrupts disabled. -/
def slaveSpiEnable : Code Result := Prog.atomic fun s =>
  if s.spi.csInactive = true then (.ok, s.mapSpi fun h => { h with sse := true })
  else (.busy, s)

/-- `_slave_transfer_enable`. -/
def slaveTransferEnable : Code Result := do
  let running ← readSpi (·.resetDone)
  if running = false then
    pure .busy
  else
    writeSpi fun h => { h with dmacr := true }
    let result ← slaveSpiEnable
    if result ≠ .ok then
      writeSpi slaveSpiDisable
      pure result
    else
      pure result

/-! ## One transfer -/

/-- The address a possibly null pointer stands for. -/
def Addr.ofPtr : Option Ptr → Addr
  | none => .null
  | some p => .mem p

/-- The address of the next byte. -/
def Addr.next : Addr → Addr
  | .mem p => .mem { p with off := p.off + 1 }
  | a => a

/-- The byte at an address. -/
def Sys.load (s : Sys) : Addr → UInt8
  | .mem p => (s.pool.get p.buf).data.getD p.off 0
  | .dummyIn => s.spi.dummyIn
  | .dummyOut => s.spi.dummyOut
  | .dr => 0
  | .null => 0

/-- `DUMMY_OUT_VALUE`. -/
def dummyOutValue : UInt8 := 0xFF

/-- The receive half of `_slave_transfer`. -/
def rxTransferConfig (h : HalMcuSpi) : DmaTransferConfig × HalMcuSpi :=
  if h.dataInLen ≠ 0 then
    ({ bufferSize := h.dataInLen, readAddress := .dr, writeAddress := .ofPtr h.pDataIn,
       readIncrementMode := false, writeIncrementMode := true },
     { h with dummyInUsed := false })
  else
    ({ bufferSize := 1, readAddress := .dr, writeAddress := .dummyIn,
       readIncrementMode := false, writeIncrementMode := false },
     { h with dummyInUsed := true })

/-- The transmit half of `_slave_transfer`. -/
def txTransferConfig (h : HalMcuSpi) : DmaTransferConfig × HalMcuSpi :=
  if h.dataOutLen ≠ 0 then
    ({ bufferSize := h.dataOutLen, readAddress := .ofPtr h.pDataOut, writeAddress := .dr,
       readIncrementMode := true, writeIncrementMode := false }, h)
  else
    ({ bufferSize := h.dataOutLen, readAddress := .dummyOut, writeAddress := .dr,
       readIncrementMode := false, writeIncrementMode := false },
     { h with dummyOut := dummyOutValue })

/-- The loop that pre-fills the transmit FIFO: what is left to send, where, and the FIFO. -/
def preFill (load : Addr → UInt8) (txDepth : ℕ) : ℕ → Addr → Bytes → ℕ × Addr × Bytes
  | 0, a, fifo => (0, a, fifo)
  | n + 1, a, fifo =>
    if fifo.length < txDepth then preFill load txDepth n a.next (fifo ++ [load a])
    else (n + 1, a, fifo)

/-- The pre-fill as a step on the transmit configuration. -/
def preFillTx (conf : DmaTransferConfig) : Code DmaTransferConfig := Prog.atomic fun s =>
  let r := preFill s.load s.spi.txDepth conf.bufferSize conf.readAddress s.spi.txFifo
  ({ conf with bufferSize := r.1, readAddress := r.2.1 },
   s.mapSpi fun h => { h with txFifo := r.2.2 })

/-- The end of `_slave_transfer`, with both channels running. -/
def slaveTransferFinish : Code Result := do
  let result ← slaveTransferEnable
  if result ≠ .ok then
    writeSpi dmaStop
    if result = .busy then
      -- the transfer starts at the next chip-select edge
      writeSpi fun h => { h with resendRequest := true }
      pure .ok
    else
      writeSpi fun h => { h with busy := false }
      pure result
  else
    pure result

/-- `_slave_transfer`. -/
def slaveTransfer : Code Result := do
  let busy ← readSpi (·.busy)
  assertDygma (!busy) "The SPI slave must not be busy before starting the new SPI transfer."
  let rx ← Prog.atomic fun s => ((rxTransferConfig s.spi).1, s.mapSpi fun h => (rxTransferConfig h).2)
  let tx ← Prog.atomic fun s => ((txTransferConfig s.spi).1, s.mapSpi fun h => (txTransferConfig h).2)
  let tx ← preFillTx tx
  writeSpi fun h => { h with busy := true }
  writeSpi (dmaStartChannelsSimultaneously tx rx)
  slaveTransferFinish

/-- `hal_mcu_spi_transfer_conf_t`; the handlers are parameters of the functions that call them. -/
structure TransferConf where
  pDataOut : Option Ptr
  pDataIn : Option Ptr
  dataOutLen : ℕ
  dataInLen : ℕ
  deriving DecidableEq, Repr

/-- `_slave_transfer_start`, and `hal_mcu_spi_data_transfer` of a slave. -/
def slaveTransferStart (conf : TransferConf) (buffersSetDone : Code Unit) : Code Result := do
  let busy ← readSpi (·.busy)
  if busy = true then
    pure .busy
  else if conf.dataInLen = 0 ∧ conf.dataOutLen = 0 then
    assertDygma false "SPI Slave zero-length transfer is currently invalid."
    pure .err
  else
    writeSpi fun h => { h with
      pDataOut := conf.pDataOut
      pDataIn := conf.pDataIn
      dataInLen := conf.dataInLen
      dataOutLen := conf.dataOutLen }
    let result ← slaveTransfer
    if result = .err then
      pure result
    else
      buffersSetDone
      pure result

/-! ## The chip-select interrupt -/

/-- `hal_mcu_spi_transfer_result_t`. -/
structure TransferResult where
  dataInLen : ℕ
  dataOutLen : ℕ
  deriving DecidableEq, Repr

/-- `_slave_transfer_result_get`. -/
def slaveTransferResultGet (h : HalMcuSpi) : Bool × TransferResult :=
  let dataInLen := dmaGetTransferCount h.dmaRx
  (decide (dataInLen ≠ 0),
   { dataInLen := if h.dummyInUsed = true then 0 else dataInLen
     dataOutLen := dmaGetTransferCount h.dmaTx })

/-- `_slave_cs_deselected_process`. -/
def slaveCsDeselectedProcess (transferDone : TransferResult → Code Unit) : Code Unit := do
  let busy ← readSpi (·.busy)
  if busy = false then
    pure ()
  else
    writeSpi slaveSpiDisable
    let transferResult ← readSpi slaveTransferResultGet
    writeSpi dmaStop
    writeSpi fun h => { h with dummyInUsed := false, busy := false }
    let resend ← readSpi (·.resendRequest)
    if transferResult.1 = false ∨ resend = true then
      writeSpi fun h => { h with resendRequest := false }
      let result ← slaveTransfer
      assertDygma (result = .ok) "Unexpected failure of the SPI slave transfer start"
    else
      transferDone transferResult.2

/-! ## The environment -/

/-- What happens up to a rising chip-select edge: the bytes the master clocked out, how many bytes the
transmit channel fetched meanwhile, and what the two tests of `_slave_transfer_enable` will find. -/
structure Edge where
  wire : Bytes
  txMoved : ℕ
  resetDone : Bool
  csInactive : Bool
  deriving DecidableEq, Repr

namespace Sys

/-- The bytes of the wire that the receive channel takes. -/
def received (s : Sys) (e : Edge) : Bytes :=
  if s.spi.sse = true ∧ s.spi.dmacr = true ∧ s.spi.dmaRx.running = true then
    e.wire.take s.spi.dmaRx.transferCount
  else []

/-- The store a received string makes: through an incrementing pointer into a buffer, and its last
byte through a fixed one. -/
def dmaStore (s : Sys) (w : Bytes) : Sys :=
  match s.spi.dmaRx.writeAddress with
  | .mem p =>
    let dst := s.pool.get p.buf
    let src := if s.spi.dmaRx.writeIncrement = true then w else w.drop (w.length - 1)
    s.setBuf p.buf { dst with data := memcpy dst.data p.off src }
  | .dummyIn => s.mapSpi fun h => { h with dummyIn := w.getLastD h.dummyIn }
  | _ => s

/-- The counters of both channels after the transfer, and the inputs. -/
def dmaCount (s : Sys) (e : Edge) (n : ℕ) : Sys :=
  (s.mapSpi fun h => { h with
    dmaRx := { h.dmaRx with transferCount := h.dmaRx.transferCount - n }
    dmaTx := { h.dmaTx with transferCount := h.dmaTx.transferCount - e.txMoved }
    resetDone := e.resetDone
    csInactive := e.csInactive }).mapGhost fun g => { g with wire := e.wire }

/-- One chip-select pulse as the hardware sees it. -/
def clockIn (s : Sys) (e : Edge) : Sys :=
  (s.dmaStore (s.received e)).dmaCount e (s.received e).length

end Sys

/-- The interrupt of a rising chip-select edge. -/
def csEdge (transferDone : TransferResult → Code Unit) (e : Edge) : Code Unit := do
  Prog.write fun s => s.clockIn e
  slaveCsDeselectedProcess transferDone

end NeuronWired
