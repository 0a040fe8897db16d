import NeuronWired.Link
import NeuronWired.Crc8

/-!
# SpiSlave — packets over the link (`Spi_slave.cpp`, `SpiPort.cpp`)

The packet format is declared outside this repository (`Communications_protocol.h`), so its sizes and
the accessors of its header fields are parameters.  The read of `data_in_available` and the store to
`spils_data_in_received` in `data_in_process` are two steps.

`crc8` covers as many bytes as `header.size` asks for.  Where these leave the array it goes on through the
stack, so what lies there is an argument of the call, another one for every call and every packet.
-/

namespace NeuronWired

open Interrupt

/-- `Communications_protocol::Packet`: the sizes of a packet and of its header, and the header fields
that the slave reads and writes.  Four packets fit into one link message. -/
structure PacketFormat where
  packetSize : ℕ
  headerSize : ℕ
  size : Bytes → ℕ
  crc : Bytes → UInt8
  setCrc : UInt8 → Bytes → Bytes
  setHasMorePackets : Bool → Bytes → Bytes
  packetSize_pos : 0 < packetSize
  fits : packetSize * 4 ≤ 253
  length_setCrc : ∀ c p, (setCrc c p).length = p.length
  length_setHasMorePackets : ∀ b p, (setHasMorePackets b p).length = p.length

/-- What is on the stack during one `Spi_slave::run`: behind `p_data` of `data_in_process`, when that many
packets are left after the one in process, and behind `spi_packet` of `data_out_process`. -/
structure Stack where
  pData : ℕ → Bytes
  spiPacket : Bytes

section SpiSlave

variable (F : PacketFormat)

/-- `SPILS_MESSAGE_SIZE_MAX`. -/
def spilsMessageSizeMax : ℕ := F.packetSize * 4

/-- `SPILS_DISCONNECT_TIMEOUT_MS`. -/
def spilsDisconnectTimeoutMs : ℕ := 1000

/-- `Spi_slave::packet_in_process` on the packet at `pos` of the array, which `behind` follows; the array
with the cleared `crc` field is returned. -/
def packetInProcess (behind pData : Bytes) (pos : ℕ) : Code Bytes := do
  let packet := (pData.drop pos).take F.packetSize
  let cleared := F.setCrc 0 packet
  let pData' := memcpy pData pos cleared
  let len := F.headerSize + F.size packet
  logObs (.crcRange pos len pData.length)
  if crc8 (pData'.drop pos ++ behind) len = F.crc packet then
    writeSlave fun p => { p with spiRxFifo := (p.spiRxFifo.put cleared).2 }
    pure pData'
  else
    pure pData'

/-- The loop of `data_in_process`, over the packets left in the array. -/
def packetsInProcess (behind : ℕ → Bytes) : ℕ → Bytes → ℕ → Code Unit
  | 0, _, _ => pure ()
  | n + 1, pData, pos => do
    let pData' ← packetInProcess F (behind n) pData pos
    packetsInProcess behind n pData' (pos + F.packetSize)

/-- The size of the message was never written if the read did not return `RESULT_OK`. -/
def sizeIsWhole : Option ℕ → Bool
  | none => true
  | some n => n % F.packetSize = 0

/-- `Spi_slave::data_in_process`. -/
def dataInProcess (behind : ℕ → Bytes) : Code Unit := do
  let received ← readSlave (·.spilsDataInReceived)
  if received = false then
    pure ()
  else
    let r ← spilsDataRead
    assertDygma (sizeIsWhole F r.dataSize) "Invalid size of the SPI slave packet received"
    if r.result ≠ .ok then
      pure ()
    else
      let available ← spilsDataReadAvailable
      Prog.write fun s => (s.mapSlave fun p => { p with spilsDataInReceived := available }).mapGhost
        fun g => { g with availRead := none }
      let len := r.dataSize.getD 0
      packetsInProcess F behind (len / F.packetSize)
        (memcpy (List.replicate (spilsMessageSizeMax F) 0) 0 r.data) 0

/-- `spi_tx_fifo.get`. -/
def txFifoGet : Code (ℕ × Bytes) := Prog.atomic fun s =>
  let r := s.slave.spiTxFifo.get
  (r.1, (s.mapSlave fun p => { p with spiTxFifo := r.2 }).log (.txGet r.1.2))

/-- The header of an outgoing packet, which `behind` follows. -/
def sealPacket (behind : Bytes) (hasMore : Bool) (packet : Bytes) : Bytes :=
  let p := F.setCrc 0 (F.setHasMorePackets hasMore packet)
  F.setCrc (crc8 (p ++ behind) (F.headerSize + F.size p)) p

/-- `Spi_slave::data_out_process`. -/
def dataOutProcess (behind : Bytes) : Code Unit := do
  let sending ← readSlave (·.spilsDataOutSending)
  let empty ← readSlave (·.spiTxFifo.isEmpty)
  if sending = true ∨ empty = true then
    pure ()
  else
    let got ← txFifoGet
    assertDygma (decide (got.1 = F.packetSize)) "Failure: Empty Packet received from FIFO"
    let last ← readSlave (·.spiTxFifo.isEmpty)
    logObs (.crcRange 0 (F.headerSize + F.size (F.setCrc 0 (F.setHasMorePackets (!last) got.2)))
      got.2.length)
    writeSlave fun p => { p with spilsDataOutSending := true }
    let result ← spilsDataSend (some (sealPacket F behind (!last) got.2)) F.packetSize
    assertDygma (decide (result = .ok)) "Failure: spils_data_send failed"
    if result ≠ .ok then
      writeSlave fun p => { p with spilsDataOutSending := false }
    else
      pure ()

/-- `Spi_slave::run`. -/
def spiSlaveRun (stack : Stack) : Code Unit := do
  spilsPoll
  dataInProcess F stack.pData
  dataOutProcess F stack.spiPacket

/-- `SpiPort::sendPacket`. -/
def sendPacket (packet : Bytes) : Code Unit :=
  writeSlave fun p => { p with spiTxFifo := (p.spiTxFifo.put packet).2 }

/-- `SpiPort::readPacket`. -/
def readPacket : Code Unit := do
  let empty ← readSlave (·.spiRxFifo.isEmpty)
  if empty = true then pure ()
  else writeSlave fun p => { p with spiRxFifo := p.spiRxFifo.get.2 }

/-- A constructed `Spi_slave`. -/
def SpiSlave.new : SpiSlave :=
  { isConnected := false, spilsDataInReceived := false, spilsDataOutSending := false,
    spiRxFifo := .new F.packetSize, spiTxFifo := .new F.packetSize }

/-- `Spi_slave::init`: the configuration it hands to `spils_init`. -/
def spiSlaveConf : SpilsConf :=
  { messageSizeMax := u8 (spilsMessageSizeMax F), disconnectTimeoutMs := spilsDisconnectTimeoutMs }

end SpiSlave

end NeuronWired
