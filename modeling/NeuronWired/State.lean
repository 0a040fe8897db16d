import NeuronWired.Interrupt.Prog
import NeuronWired.Buffer
import NeuronWired.FifoBuffer

/-!
# State — the state shared by the SPI link, its driver and `Spi_slave`

One instance of each: `spils_t` of the link (`spi_link_slave.c`), `hal_mcu_spi_t` of the driver with
the registers of the SPI and of its two DMA channels (`hal_ll_rp20xx_spi.c`, `hal_ll_rp20xx_dma.c`),
and the `Spi_slave` object above them.  The four buffers the link allocates live in a `Pool`, and
everything that is a pointer to one of them in the source is a `BufId` here.

The last part, `Ghost`, is not in the source: the trace of what the outside can observe, and marks
for the points of a run that an invariant has to name.
-/

namespace NeuronWired

/-! ## Buffers and addresses -/

/-- The four allocated buffers. -/
inductive BufId where
  | b0
  | b1
  | b2
  | b3
  deriving DecidableEq, Repr

/-- The heap blocks of the four buffers. -/
structure Pool where
  b0 : Buffer
  b1 : Buffer
  b2 : Buffer
  b3 : Buffer
  deriving DecidableEq, Repr

namespace Pool

/-- The buffer a pointer points to. -/
def get (p : Pool) : BufId → Buffer
  | .b0 => p.b0
  | .b1 => p.b1
  | .b2 => p.b2
  | .b3 => p.b3

/-- Assignment through a pointer. -/
def set (p : Pool) (i : BufId) (b : Buffer) : Pool :=
  match i with
  | .b0 => { p with b0 := b }
  | .b1 => { p with b1 := b }
  | .b2 => { p with b2 := b }
  | .b3 => { p with b3 := b }

@[simp] theorem get_set_self (p : Pool) (i : BufId) (b : Buffer) : (p.set i b).get i = b := by
  cases i <;> rfl

theorem get_set_of_ne (p : Pool) {i j : BufId} (b : Buffer) (h : i ≠ j) :
    (p.set i b).get j = p.get j := by
  cases i <;> cases j <;> first | rfl | exact absurd rfl h

end Pool

/-- A pointer into the data of a link buffer. -/
structure Ptr where
  buf : BufId
  off : ℕ
  deriving DecidableEq, Repr

/-- What a DMA channel can point to. -/
inductive Addr where
  | null
  | dr
  | dummyIn
  | dummyOut
  | mem (p : Ptr)
  deriving DecidableEq, Repr

/-! ## The driver -/

/-- `hal_mcu_dma_direction_t`. -/
inductive DmaDirection where
  | memoryToMemory
  | memoryToPeripheral
  | peripheralToMemory
  | peripheralToPeripheral
  deriving DecidableEq, Repr

/-- `hal_mcu_dma_transfer_config_t`; an increment mode is `true` when enabled. -/
structure DmaTransferConfig where
  bufferSize : ℕ
  readAddress : Addr
  writeAddress : Addr
  readIncrementMode : Bool
  writeIncrementMode : Bool
  deriving DecidableEq, Repr

/-- `hal_mcu_dma_channel_t` and the hardware channel behind it. -/
structure DmaChannel where
  direction : DmaDirection
  transferBufferSize : ℕ
  readIncrement : Bool
  writeIncrement : Bool
  readAddress : Addr
  writeAddress : Addr
  transferCount : ℕ
  running : Bool
  deriving DecidableEq, Repr

/-- `hal_mcu_spi_t`, its slave part, the SPI registers and the two inputs tested when a transfer is
enabled. -/
structure HalMcuSpi where
  busy : Bool
  dmaRx : DmaChannel
  dmaTx : DmaChannel
  pDataOut : Option Ptr
  pDataIn : Option Ptr
  dataOutLen : ℕ
  dataInLen : ℕ
  dummyIn : UInt8
  dummyOut : UInt8
  dummyInUsed : Bool
  resendRequest : Bool
  /-- the transmit FIFO and its capacity -/
  txFifo : Bytes
  txDepth : ℕ
  /-- the SSE bit of `cr1` -/
  sse : Bool
  /-- the two enable bits of `dmacr` -/
  dmacr : Bool
  /-- `resets_hw->reset_done` for this SPI -/
  resetDone : Bool
  /-- the chip-select pin is high -/
  csInactive : Bool
  deriving DecidableEq, Repr

/-! ## The link -/

/-- `spils_state_t`. -/
inductive SpilsState where
  | idle
  | listeningStart
  | listening
  | dataReceiveStart
  | dataReceiving
  | dataSendStart
  | dataSending
  deriving DecidableEq, Repr

/-- `spils_con_state_t`. -/
inductive SpilsConState where
  | unknown
  | disconnected
  | connected
  deriving DecidableEq, Repr

/-- `spils_event_type_t`. -/
inductive SpilsEventType where
  | connected
  | disconnected
  | dataInReady
  | dataOutSent
  deriving DecidableEq, Repr

/-- `spils_t`. -/
structure Spils where
  state : SpilsState
  conState : SpilsConState
  pBufferInCache : BufId
  pBufferIn : BufId
  pBufferOutCache : BufId
  pBufferOut : BufId
  messageSizeMax : ℕ
  /-- the two mutexes are locked -/
  mutexIn : Bool
  mutexOut : Bool
  connectionDetected : Bool
  dataInAvailable : Bool
  dataOutAvailable : Bool
  lineInBusy : Bool
  lineInIsSaturated : Bool
  disconnectTimeoutMs : ℕ
  disconnectTimer : ℕ
  deriving DecidableEq, Repr

/-! ## The object above the link -/

/-- `Spi_slave`. -/
structure SpiSlave where
  isConnected : Bool
  spilsDataInReceived : Bool
  spilsDataOutSending : Bool
  spiRxFifo : FifoBuffer
  spiTxFifo : FifoBuffer
  deriving DecidableEq, Repr

/-! ## What is observed -/

/-- One observation. -/
inductive Obs where
  /-- a chip-select transfer is over and the link handler runs; the bytes the master clocked out -/
  | transfer (wire : Bytes)
  /-- the link called `hal_mcu_spi_data_transfer`: the bytes to send, the receive length, the state it
  asked for and the result -/
  | armed (out : Bytes) (dataInLen : ℕ) (state : SpilsState) (result : Result)
  /-- `spils_data_read` returned -/
  | readRet (result : Result) (dataSize : Option ℕ) (data : Bytes)
  /-- `spils_data_send` returned -/
  | sendRet (pData : Option Bytes) (dataSize : ℕ) (result : Result)
  /-- `buffer_get_from_position` copied `len` bytes out of an array of `size` -/
  | bufferGet (fromPosition len size : ℕ)
  /-- the event handler was called -/
  | event (eventType : SpilsEventType)
  /-- a packet was taken out of `spi_tx_fifo` -/
  | txGet (packet : Bytes)
  /-- `crc8` covered `len` bytes from `pos` on in an array of `size` -/
  | crcRange (pos len size : ℕ)
  /-- a condition of `ASSERT_DYGMA` was false -/
  | assertFailed (msg : String)
  deriving DecidableEq, Repr

/-- Auxiliary state. -/
structure Ghost where
  trace : List Obs
  /-- the bytes of the chip-select pulse being handled -/
  wire : Bytes
  /-- the buffer `spils_data_read` is reading -/
  reading : Option BufId
  /-- the buffer `_mess_compose_data` is filling for `spils_data_send` -/
  filling : Option BufId
  /-- a pointer swap has begun and is not over -/
  swapIn : Bool
  swapOut : Bool
  /-- a value of `data_in_available` read by `data_in_process` and not yet stored -/
  availRead : Option Bool
  deriving DecidableEq, Repr

/-- The state of the firmware; `now` is the millisecond clock before it is cut to 32 bits. -/
structure Sys where
  link : Spils
  pool : Pool
  spi : HalMcuSpi
  slave : SpiSlave
  now : ℕ
  ghost : Ghost
  deriving DecidableEq, Repr

/-- Firmware code. -/
abbrev Code := Interrupt.Prog Sys

namespace Sys

/-- The buffer `p_buffer_in_cache` points to. -/
def cacheB (s : Sys) : Buffer := s.pool.get s.link.pBufferInCache

/-- The buffer `p_buffer_in` points to. -/
def inB (s : Sys) : Buffer := s.pool.get s.link.pBufferIn

/-- The buffer `p_buffer_out_cache` points to. -/
def outCacheB (s : Sys) : Buffer := s.pool.get s.link.pBufferOutCache

/-- The buffer `p_buffer_out` points to. -/
def outB (s : Sys) : Buffer := s.pool.get s.link.pBufferOut

/-- One more observation. -/
def log (s : Sys) (x : Obs) : Sys := { s with ghost := { s.ghost with trace := s.ghost.trace ++ [x] } }

/-- Assignment to a buffer through a pointer. -/
def setBuf (s : Sys) (i : BufId) (b : Buffer) : Sys := { s with pool := s.pool.set i b }

/-- Assignment to fields of the link. -/
def mapLink (s : Sys) (f : Spils → Spils) : Sys := { s with link := f s.link }

/-- Assignment to fields of the driver. -/
def mapSpi (s : Sys) (f : HalMcuSpi → HalMcuSpi) : Sys := { s with spi := f s.spi }

/-- Assignment to fields of `Spi_slave`. -/
def mapSlave (s : Sys) (f : SpiSlave → SpiSlave) : Sys := { s with slave := f s.slave }

/-- Assignment to auxiliary state. -/
def mapGhost (s : Sys) (f : Ghost → Ghost) : Sys := { s with ghost := f s.ghost }

end Sys

/-! ## Single steps -/

open Interrupt

/-- Record an observation. -/
def logObs (x : Obs) : Code Unit := Prog.write fun s => s.log x

/-- `ASSERT_DYGMA`, which is empty in a release build. -/
def assertDygma (cond : Bool) (msg : String) : Code Unit :=
  if cond = true then pure () else logObs (.assertFailed msg)

/-- Read a field of the link. -/
def readLink {α : Type} (g : Spils → α) : Code α := Prog.read fun s => g s.link

/-- Write fields of the link. -/
def writeLink (f : Spils → Spils) : Code Unit := Prog.write fun s => s.mapLink f

/-- Read a field of the driver. -/
def readSpi {α : Type} (g : HalMcuSpi → α) : Code α := Prog.read fun s => g s.spi

/-- Write fields of the driver. -/
def writeSpi (f : HalMcuSpi → HalMcuSpi) : Code Unit := Prog.write fun s => s.mapSpi f

/-- Read a field of `Spi_slave`. -/
def readSlave {α : Type} (g : SpiSlave → α) : Code α := Prog.read fun s => g s.slave

/-- Write fields of `Spi_slave`. -/
def writeSlave (f : SpiSlave → SpiSlave) : Code Unit := Prog.write fun s => s.mapSlave f

/-- Read a buffer through a pointer. -/
def readBuf {α : Type} (i : BufId) (g : Buffer → α) : Code α := Prog.read fun s => g (s.pool.get i)

/-- Call a buffer function on a pointer. -/
def writeBuf (i : BufId) (f : Buffer → Buffer) : Code Unit :=
  Prog.write fun s => s.setBuf i (f (s.pool.get i))

/-- Write auxiliary state. -/
def writeGhost (f : Ghost → Ghost) : Code Unit := Prog.write fun s => s.mapGhost f

section Run

variable {α : Type} (s : Sys)

@[simp] theorem run_readLink (g : Spils → α) : (readLink g).run s = (g s.link, s) := rfl

@[simp] theorem run_writeLink (f : Spils → Spils) : (writeLink f).run s = ((), s.mapLink f) := rfl

@[simp] theorem run_readSpi (g : HalMcuSpi → α) : (readSpi g).run s = (g s.spi, s) := rfl

@[simp] theorem run_writeSpi (f : HalMcuSpi → HalMcuSpi) :
    (writeSpi f).run s = ((), s.mapSpi f) := rfl

@[simp] theorem run_readBuf (i : BufId) (g : Buffer → α) :
    (readBuf i g).run s = (g (s.pool.get i), s) := rfl

@[simp] theorem run_writeBuf (i : BufId) (f : Buffer → Buffer) :
    (writeBuf i f).run s = ((), s.setBuf i (f (s.pool.get i))) := rfl

@[simp] theorem run_writeGhost (f : Ghost → Ghost) :
    (writeGhost f).run s = ((), s.mapGhost f) := rfl

@[simp] theorem run_logObs (x : Obs) : (logObs x).run s = ((), s.log x) := rfl

@[simp] theorem run_readSlave (g : SpiSlave → α) : (readSlave g).run s = (g s.slave, s) := rfl

@[simp] theorem run_writeSlave (f : SpiSlave → SpiSlave) :
    (writeSlave f).run s = ((), s.mapSlave f) := rfl

@[simp] theorem run_assertDygma (cond : Bool) (msg : String) :
    (assertDygma cond msg).run s = ((), if cond = true then s else s.log (.assertFailed msg)) := by
  unfold assertDygma; split_ifs <;> rfl

end Run

/-! ## Projections of the updates -/

namespace Sys

section Projections

variable (s : Sys) (x : Obs) (i : BufId) (b : Buffer) (f : Spils → Spils)
  (g : HalMcuSpi → HalMcuSpi) (h : SpiSlave → SpiSlave) (k : Ghost → Ghost)

@[simp] theorem link_log : (s.log x).link = s.link := rfl
@[simp] theorem pool_log : (s.log x).pool = s.pool := rfl
@[simp] theorem spi_log : (s.log x).spi = s.spi := rfl
@[simp] theorem slave_log : (s.log x).slave = s.slave := rfl
@[simp] theorem trace_log : (s.log x).ghost.trace = s.ghost.trace ++ [x] := rfl

@[simp] theorem link_setBuf : (s.setBuf i b).link = s.link := rfl
@[simp] theorem pool_setBuf : (s.setBuf i b).pool = s.pool.set i b := rfl
@[simp] theorem spi_setBuf : (s.setBuf i b).spi = s.spi := rfl
@[simp] theorem slave_setBuf : (s.setBuf i b).slave = s.slave := rfl
@[simp] theorem ghost_setBuf : (s.setBuf i b).ghost = s.ghost := rfl

@[simp] theorem link_mapLink : (s.mapLink f).link = f s.link := rfl
@[simp] theorem pool_mapLink : (s.mapLink f).pool = s.pool := rfl
@[simp] theorem spi_mapLink : (s.mapLink f).spi = s.spi := rfl
@[simp] theorem slave_mapLink : (s.mapLink f).slave = s.slave := rfl
@[simp] theorem ghost_mapLink : (s.mapLink f).ghost = s.ghost := rfl

@[simp] theorem link_mapSpi : (s.mapSpi g).link = s.link := rfl
@[simp] theorem pool_mapSpi : (s.mapSpi g).pool = s.pool := rfl
@[simp] theorem spi_mapSpi : (s.mapSpi g).spi = g s.spi := rfl
@[simp] theorem slave_mapSpi : (s.mapSpi g).slave = s.slave := rfl
@[simp] theorem ghost_mapSpi : (s.mapSpi g).ghost = s.ghost := rfl

@[simp] theorem link_mapSlave : (s.mapSlave h).link = s.link := rfl
@[simp] theorem pool_mapSlave : (s.mapSlave h).pool = s.pool := rfl
@[simp] theorem spi_mapSlave : (s.mapSlave h).spi = s.spi := rfl
@[simp] theorem slave_mapSlave : (s.mapSlave h).slave = h s.slave := rfl
@[simp] theorem ghost_mapSlave : (s.mapSlave h).ghost = s.ghost := rfl

@[simp] theorem link_mapGhost : (s.mapGhost k).link = s.link := rfl
@[simp] theorem pool_mapGhost : (s.mapGhost k).pool = s.pool := rfl
@[simp] theorem spi_mapGhost : (s.mapGhost k).spi = s.spi := rfl
@[simp] theorem slave_mapGhost : (s.mapGhost k).slave = s.slave := rfl
@[simp] theorem ghost_mapGhost : (s.mapGhost k).ghost = k s.ghost := rfl

end Projections

end Sys

end NeuronWired
