import NeuronWired.SpiDriver

/-!
# Link — the SPI link layer of the slave (`spi_link_slave.c`)

Every statement that touches shared state is a step of its own, so that the chip-select interrupt
can come between any two of them.  The pointer swaps take their three assignments apart.  The INT
signal is not enabled in this firmware (`pin_int_enabled` is false), so the calls that would set or
reset it do nothing and are left out.
-/

namespace NeuronWired

open Interrupt

/-! ## Message types (`spi_link_def.h`) -/

namespace MessType

def masterDataSendStart : UInt8 := 0x01
def masterDataRecvStart : UInt8 := 0x02
def data : UInt8 := 0x03
def resultOk : UInt8 := 0x80
def resultErr : UInt8 := 0x81
def resultReady : UInt8 := 0x82
def resultOkBusy : UInt8 := 0x83
def resultBusy : UInt8 := 0x84
def resultDataReady : UInt8 := 0x85

end MessType

/-- `sizeof( spil_mess_header_t )`, which is also the size of the start and result messages. -/
def messHeaderSize : ℕ := 2

/-! ## Timer, events, mutexes -/

/-- `millis`. -/
def Sys.millis (s : Sys) : ℕ := s.now % 4294967296

/-- `timer_set_ms` on the disconnect timer: the sum is a `uint32_t`. -/
def timerSetMs (ms : ℕ) : Code Unit := do
  let t ← Prog.read Sys.millis
  writeLink fun l => { l with disconnectTimer := u32 ((t : ℤ) + ms) }

/-- `timer_check` on the disconnect timer. -/
def timerCheck : Code Bool := do
  let t ← Prog.read Sys.millis
  let timer ← readLink (·.disconnectTimer)
  pure (decide (timer ≤ t))

/-- `_disconnect_timer_reset`. -/
def disconnectTimerReset : Code Unit := do
  let ms ← readLink (·.disconnectTimeoutMs)
  timerSetMs ms

/-- `Spi_slave::spils_event_handler`. -/
def spilsEventHandler (eventType : SpilsEventType) (p : SpiSlave) : SpiSlave :=
  match eventType with
  | .disconnected => { p with isConnected := false }
  | .connected => { p with isConnected := true }
  | .dataInReady => { p with spilsDataInReceived := true }
  | .dataOutSent => { p with spilsDataOutSending := false }

/-- `_event_handler`. -/
def eventHandler (eventType : SpilsEventType) : Code Unit :=
  Prog.write fun s => (s.mapSlave (spilsEventHandler eventType)).log (.event eventType)

/-- `_mutex_in_trylock`. -/
def mutexInTrylock : Code Bool := Prog.atomic fun s =>
  if s.link.mutexIn = true then (false, s)
  else (true, s.mapLink fun l => { l with mutexIn := true })

/-- `_mutex_in_unlock`. -/
def mutexInUnlock : Code Unit := writeLink fun l => { l with mutexIn := false }

/-- `_mutex_out_trylock`. -/
def mutexOutTrylock : Code Bool := Prog.atomic fun s =>
  if s.link.mutexOut = true then (false, s)
  else (true, s.mapLink fun l => { l with mutexOut := true })

/-- `_mutex_out_unlock`. -/
def mutexOutUnlock : Code Unit := writeLink fun l => { l with mutexOut := false }

/-! ## Buffers -/

/-- `buffer_get_from_position` into the array of the caller. -/
def bufferGetFromPosition (i : BufId) (fromPosition len : ℕ) : Code (Result × Bytes) :=
  Prog.atomic fun s =>
    let b := s.pool.get i
    let r := b.getFromPosition fromPosition len
    (r, if r.1 = .ok then s.log (.bufferGet fromPosition len b.data.length) else s)

/-- `buffer_get_and_discard`. -/
def bufferGetAndDiscard (i : BufId) (len : ℕ) : Code (Result × Bytes) := do
  let pos ← readBuf i (·.readPos)
  let r ← bufferGetFromPosition i pos len
  if r.1 = .err then
    pure r
  else
    writeBuf i fun b => b.updateReadPos (i16 len)
    pure r

/-- `_buffer_in_cache_swap`. -/
def bufferInCacheSwap : Code Unit := do
  let tempBuffer ← readLink (·.pBufferIn)
  writeGhost fun g => { g with swapIn := true }
  writeLink fun l => { l with pBufferIn := l.pBufferInCache }
  writeLink fun l => { l with pBufferInCache := tempBuffer }
  writeGhost fun g => { g with swapIn := false }

/-- `_buffer_in_cache_data_move`. -/
def bufferInCacheDataMove : Code Result := do
  let locked ← mutexInTrylock
  if locked = false then
    pure .busy
  else
    let cacheLoad ← Prog.read fun s => s.cacheB.getLoadsize
    if cacheLoad = 0 then
      writeLink fun l => { l with lineInBusy := false }
      mutexInUnlock
      pure .err
    else
      let inLoad ← Prog.read fun s => s.inB.getLoadsize
      if inLoad ≠ 0 then
        mutexInUnlock
        pure .busy
      else
        bufferInCacheSwap
        writeLink fun l => { l with dataInAvailable := true }
        writeLink fun l => { l with lineInBusy := false }
        mutexInUnlock
        pure .ok

/-- `_buffer_out_cache_swap`. -/
def bufferOutCacheSwap : Code Unit := do
  let tempBuffer ← readLink (·.pBufferOut)
  writeGhost fun g => { g with swapOut := true }
  writeLink fun l => { l with pBufferOut := l.pBufferOutCache }
  writeLink fun l => { l with pBufferOutCache := tempBuffer }
  writeGhost fun g => { g with swapOut := false }

/-- `_buffer_out_cache_data_move`. -/
def bufferOutCacheDataMove : Code Result := do
  let locked ← mutexOutTrylock
  if locked = false then
    pure .busy
  else
    let outLoad ← Prog.read fun s => s.outB.getLoadsize
    let cacheLoad ← Prog.read fun s => s.outCacheB.getLoadsize
    if outLoad ≠ 0 ∧ cacheLoad = 0 then
      bufferOutCacheSwap
      writeLink fun l => { l with dataOutAvailable := false }
      mutexOutUnlock
      pure .ok
    else
      writeLink fun l => { l with dataOutAvailable := false }
      mutexOutUnlock
      pure .ok

/-! ## Messages -/

/-- The two bytes of a message header, written at the free space pointer. -/
def writeHeader (i : BufId) (len type : UInt8) : Code Unit :=
  writeBuf i fun b => { b with data := memcpy b.data b.getFreeSpacePointer [len, type] }

/-- The two bytes of a message header, read at the load space pointer. -/
def readHeader (i : BufId) : Code (UInt8 × UInt8) :=
  readBuf i fun b =>
    (b.data.getD (b.getLoadSpacePointer 0) 0, b.data.getD (b.getLoadSpacePointer 0 + 1) 0)

/-- `_mess_compose_result`. -/
def messComposeResult (i : BufId) (transferResult : UInt8) : Code Unit := do
  writeBuf i Buffer.recycle
  writeHeader i (UInt8.ofNat messHeaderSize) transferResult
  writeBuf i fun b => b.updateWritePos messHeaderSize

/-- `_mess_compose_data`; `data_len` is a `uint8_t`. -/
def messComposeData (i : BufId) (pData : Option Bytes) (dataLen : ℕ) : Code Result := do
  let max ← readLink (·.messageSizeMax)
  if max < dataLen then
    assertDygma false "SPI slave driver output data exceedes maximum message size"
    pure .err
  else
    writeBuf i Buffer.recycle
    writeHeader i (UInt8.ofNat (messHeaderSize + dataLen)) MessType.data
    writeBuf i fun b => b.updateWritePos messHeaderSize
    match pData with
    | none => pure .ok
    | some data =>
      if dataLen = 0 then
        pure .ok
      else
        let result ← Prog.atomic fun s =>
          let r := (s.pool.get i).add data dataLen
          (r.1, s.setBuf i r.2)
        assertDygma (result = .ok) "SPI slave driver output data exceedes available space"
        if result = .err then pure result else pure .ok

/-! ## Starting a transfer -/

/-- `_transfer_data_in_prepare`. -/
def transferDataInPrepare : Code (Option Ptr × ℕ) := do
  let loadsize ← Prog.read fun s => s.cacheB.getLoadsize
  if loadsize ≠ 0 then
    writeLink fun l => { l with lineInIsSaturated := true }
    pure (none, 0)
  else
    writeLink fun l => { l with lineInIsSaturated := false }
    Prog.read fun s =>
      (some ⟨s.link.pBufferInCache, s.cacheB.getFreeSpacePointer⟩, s.cacheB.getFreeSpaceLineSize)

/-- `_transfer_data_out_prepare`. -/
def transferDataOutPrepare : Code (Option Ptr × ℕ) := Prog.read fun s =>
  if s.outCacheB.getLoadsize = 0 then (none, 0)
  else (some ⟨s.link.pBufferOutCache, s.outCacheB.getLoadSpacePointer 0⟩, s.outCacheB.getLoadsize)

/-- `_set_state`. -/
def setState (state : SpilsState) : Code Unit := writeLink fun l => { l with state := state }

/-- `_spi_slave_buffers_set_done_handler`. -/
def buffersSetDoneHandler : Code Unit := do
  let state ← readLink (·.state)
  match state with
  | .listeningStart => setState .listening
  | .dataReceiveStart => setState .dataReceiving
  | .dataSendStart => setState .dataSending
  | _ => pure ()

/-- The bytes a transmit pointer and length stand for. -/
def Sys.bytesAt (s : Sys) (p : Option Ptr) (len : ℕ) : Bytes :=
  match p with
  | none => []
  | some p => ((s.pool.get p.buf).data.drop p.off).take len

/-- `_transfer_start`. -/
def transferStart (state : SpilsState) : Code Result := do
  let din ← transferDataInPrepare
  let dout ← transferDataOutPrepare
  let stateBackup ← readLink (·.state)
  setState state
  let result ← slaveTransferStart
    { pDataOut := dout.1, pDataIn := din.1, dataOutLen := dout.2, dataInLen := din.2 }
    buffersSetDoneHandler
  Prog.write fun s => s.log (.armed (s.bytesAt dout.1 dout.2) din.2 state result)
  if result ≠ .ok then
    setState stateBackup
    pure result
  else
    pure result

/-- `_listening_start`. -/
def listeningStart (resultMessType : UInt8) : Code Unit := do
  let cache ← readLink (·.pBufferOutCache)
  messComposeResult cache resultMessType
  let result ← transferStart .listeningStart
  assertDygma (result = .ok) "The start of the SPI slave listening failed. This should not happen."

/-- `_data_receive_start`. -/
def dataReceiveStart (resultMessType : UInt8) : Code Unit := do
  let cache ← readLink (·.pBufferOutCache)
  messComposeResult cache resultMessType
  let result ← transferStart .dataReceiveStart
  assertDygma (result = .ok) "The start of the SPI slave listening failed. This should not happen."

/-- `_data_send_start`. -/
def dataSendStart : Code Unit := do
  let result ← transferStart .dataSendStart
  assertDygma (result = .ok) "The start of the SPI slave listening failed. This should not happen."

/-! ## Processing a transfer -/

/-- `_buffer_recycle( p_spils->p_buffer_in_cache )`. -/
def recycleInCache : Code Unit := Prog.write fun s => s.setBuf s.link.pBufferInCache s.cacheB.recycle

/-- `_transfer_receive_data_start`. -/
def transferReceiveDataStart : Code Unit := do
  let cache ← readLink (·.pBufferInCache)
  let head ← readHeader cache
  let loadsize ← Prog.read fun s => s.cacheB.getLoadsize
  if head.1.toNat ≠ messHeaderSize ∨ loadsize < head.1.toNat then
    recycleInCache
    listeningStart MessType.resultErr
  else
    recycleInCache
    dataReceiveStart MessType.resultOk

/-- `_transfer_send_data_start`. -/
def transferSendDataStart : Code Unit := do
  let cache ← readLink (·.pBufferInCache)
  let head ← readHeader cache
  let loadsize ← Prog.read fun s => s.cacheB.getLoadsize
  if head.1.toNat ≠ messHeaderSize ∨ loadsize < head.1.toNat then
    recycleInCache
    listeningStart MessType.resultErr
  else
    let result ← bufferOutCacheDataMove
    let outLoad ← Prog.read fun s => s.outCacheB.getLoadsize
    if outLoad = 0 then
      -- nothing to send: the dummy message
      let outCache ← readLink (·.pBufferOutCache)
      let _ ← messComposeData outCache none 0
      recycleInCache
      if result ≠ .ok then listeningStart MessType.resultBusy else dataSendStart
    else
      recycleInCache
      if result ≠ .ok then listeningStart MessType.resultBusy else dataSendStart

/-- The end of `_transfer_receive_data`. -/
def transferReceiveDataExit (transferResult : UInt8) : Code Unit := do
  let busy ← readLink (·.lineInBusy)
  if busy = false then
    recycleInCache
    listeningStart transferResult
    if transferResult = MessType.resultOk then eventHandler .dataInReady else pure ()
  else
    listeningStart transferResult
    if transferResult = MessType.resultOk then eventHandler .dataInReady else pure ()

/-- The three position updates of `_transfer_receive_data`: back to the start of the message, over its
`head.len` bytes, and past its header. -/
def shapeMessage (cache : BufId) (loadsize len : ℕ) : Code Unit := do
  writeBuf cache fun b => b.updateWritePos (-(loadsize : ℤ))
  writeBuf cache fun b => b.updateWritePos len
  writeBuf cache fun b => b.updateReadPos messHeaderSize

/-- `_transfer_receive_data`. -/
def transferReceiveData : Code Unit := do
  let state ← readLink (·.state)
  if state ≠ .dataReceiving then
    transferReceiveDataExit MessType.resultErr
  else
    let cache ← readLink (·.pBufferInCache)
    let head ← readHeader cache
    let loadsize ← Prog.read fun s => s.cacheB.getLoadsize
    if loadsize < head.1.toNat then
      transferReceiveDataExit MessType.resultErr
    else
      shapeMessage cache loadsize head.1.toNat
      let result ← bufferInCacheDataMove
      if result = .busy then
        writeLink fun l => { l with lineInBusy := true }
        transferReceiveDataExit MessType.resultOkBusy
      else
        assertDygma (result = .ok) "Unexpected SPI Link _buffer_in_cache_data_move result"
        transferReceiveDataExit MessType.resultOk

/-- The default branch of `_transfer_data_in_process`. -/
def transferUnknown : Code Unit := do
  recycleInCache
  let state ← readLink (·.state)
  if state = .dataReceiving then
    dataReceiveStart MessType.resultOk
  else
    let available ← readLink (·.dataOutAvailable)
    if available = true then listeningStart MessType.resultDataReady
    else listeningStart MessType.resultReady

/-- `_transfer_data_in_process`. -/
def transferDataInProcess (transferResult : TransferResult) : Code Unit := do
  let busy ← readLink fun l => l.lineInBusy || l.lineInIsSaturated
  if busy = true then
    listeningStart MessType.resultBusy
  else if transferResult.dataInLen < messHeaderSize then
    listeningStart MessType.resultErr
  else
    let cache ← readLink (·.pBufferInCache)
    writeBuf cache fun b => b.updateWritePos (i16 transferResult.dataInLen)
    let head ← readHeader cache
    if head.2 = MessType.masterDataSendStart then transferReceiveDataStart
    else if head.2 = MessType.masterDataRecvStart then transferSendDataStart
    else if head.2 = MessType.data then transferReceiveData
    else transferUnknown

/-- `_transfer_data_out_process`. -/
def transferDataOutProcess : Code Unit := do
  Prog.write fun s => s.setBuf s.link.pBufferOutCache s.outCacheB.recycle
  let state ← readLink (·.state)
  if state = .dataSending then eventHandler .dataOutSent else pure ()

/-- `_spi_slave_transfer_done_handler`. -/
def transferDoneHandler (transferResult : TransferResult) : Code Unit := do
  Prog.write fun s => s.log (.transfer s.ghost.wire)
  writeLink fun l => { l with connectionDetected := true }
  transferDataOutProcess
  transferDataInProcess transferResult

/-! ## The connection machine -/

/-- `_con_state_set_connected`. -/
def conStateSetConnected : Code Unit := do
  disconnectTimerReset
  writeLink fun l => { l with conState := .connected }
  eventHandler .connected

/-- `_con_state_set_disconnected`. -/
def conStateSetDisconnected : Code Unit := do
  writeLink fun l => { l with connectionDetected := false }
  writeLink fun l => { l with conState := .disconnected }
  eventHandler .disconnected

/-- `_con_state_unknown`. -/
def conStateUnknown : Code Unit := do
  let detected ← readLink (·.connectionDetected)
  if detected = true then
    conStateSetConnected
  else
    let expired ← timerCheck
    if expired = true then conStateSetDisconnected else pure ()

/-- `_con_state_disconnected`. -/
def conStateDisconnected : Code Unit := do
  let detected ← readLink (·.connectionDetected)
  if detected = true then conStateSetConnected else pure ()

/-- The second test of `_con_state_connected`. -/
def conStateConnectedExpire : Code Unit := do
  let expired ← timerCheck
  if expired = true then conStateSetDisconnected else pure ()

/-- `_con_state_connected`. -/
def conStateConnected : Code Unit := do
  let detected ← readLink (·.connectionDetected)
  if detected = true then
    disconnectTimerReset
    writeLink fun l => { l with connectionDetected := false }
    conStateConnectedExpire
  else
    conStateConnectedExpire

/-- `_con_machine`. -/
def conMachine : Code Unit := do
  let conState ← readLink (·.conState)
  match conState with
  | .unknown => conStateUnknown
  | .disconnected => conStateDisconnected
  | .connected => conStateConnected

/-! ## The interface -/

/-- `_line_in_busy_process`. -/
def lineInBusyProcess : Code Unit := do
  let busy ← readLink (·.lineInBusy)
  if busy = false then
    pure ()
  else
    let result ← bufferInCacheDataMove
    if result = .ok then eventHandler .dataInReady else pure ()

/-- `spils_poll`. -/
def spilsPoll : Code Unit := do
  conMachine
  lineInBusyProcess

/-- `spils_data_read_available`; what it returns is noted until the caller has stored it. -/
def spilsDataReadAvailable : Code Bool := Prog.atomic fun s =>
  (s.link.dataInAvailable, s.mapGhost fun g => { g with availRead := some s.link.dataInAvailable })

/-- What `spils_data_read` leaves in its arguments: the result, the size if it was written, and the
bytes copied to the front of the array. -/
structure DataRead where
  result : Result
  dataSize : Option ℕ
  data : Bytes
  deriving DecidableEq, Repr

/-- A return from `spils_data_read`. -/
def returnRead (r : DataRead) : Code DataRead := do
  logObs (.readRet r.result r.dataSize r.data)
  pure r

/-- `spils_data_read`. -/
def spilsDataRead : Code DataRead := do
  let available ← readLink (·.dataInAvailable)
  if available = false then
    returnRead ⟨.ok, some 0, []⟩
  else
    let locked ← mutexInTrylock
    if locked = false then
      returnRead ⟨.busy, none, []⟩
    else
      let buffer ← readLink (·.pBufferIn)
      writeGhost fun g => { g with reading := some buffer }
      let size ← readBuf buffer Buffer.getLoadsize
      let r ← bufferGetAndDiscard buffer size
      if r.1 = .err then
        writeGhost fun g => { g with reading := none }
        mutexInUnlock
        returnRead ⟨r.1, some size, []⟩
      else
        writeBuf buffer Buffer.recycle
        writeGhost fun g => { g with reading := none }
        writeLink fun l => { l with dataInAvailable := false }
        mutexInUnlock
        returnRead ⟨r.1, some size, r.2⟩

/-- A return from `spils_data_send`. -/
def returnSend (pData : Option Bytes) (dataSize : ℕ) (result : Result) : Code Result := do
  logObs (.sendRet pData dataSize result)
  pure result

/-- `spils_data_send`; the size is cut to 8 bits in the call of `_mess_compose_data`. -/
def spilsDataSend (pData : Option Bytes) (dataSize : ℕ) : Code Result := do
  let available ← readLink (·.dataOutAvailable)
  if available = true then
    returnSend pData dataSize .busy
  else
    let locked ← mutexOutTrylock
    if locked = false then
      returnSend pData dataSize .busy
    else
      let buffer ← readLink (·.pBufferOut)
      writeGhost fun g => { g with filling := some buffer }
      let result ← messComposeData buffer pData (u8 dataSize)
      writeGhost fun g => { g with filling := none }
      if result = .err then
        mutexOutUnlock
        returnSend pData dataSize result
      else
        writeLink fun l => { l with dataOutAvailable := true }
        mutexOutUnlock
        returnSend pData dataSize result

/-! ## Initialisation -/

/-- `spils_conf_t`, as far as the link uses it. -/
structure SpilsConf where
  messageSizeMax : ℕ
  disconnectTimeoutMs : ℕ
  deriving DecidableEq, Repr

/-- A DMA channel after its initialisation. -/
def DmaChannel.init (direction : DmaDirection) : DmaChannel :=
  { direction := direction, transferBufferSize := 0, readIncrement := false,
    writeIncrement := false, readAddress := .null, writeAddress := .null, transferCount := 0,
    running := false }

/-- `_spi_init` and `_slave_init`, on the inputs found there. -/
def spiInit (h : HalMcuSpi) : HalMcuSpi :=
  { h with
    busy := false
    dmaRx := .init .peripheralToMemory
    dmaTx := .init .memoryToPeripheral
    pDataOut := none, pDataIn := none, dataOutLen := 0, dataInLen := 0
    dummyIn := 0x00, dummyOut := dummyOutValue
    dummyInUsed := false, resendRequest := false
    txFifo := [], sse := false, dmacr := false }

/-- `_buffers_init`: four blocks of the heap, in the order of the allocations. -/
def buffersInit (conf : SpilsConf) : Code Unit := do
  assertDygma (decide (conf.messageSizeMax ≤ 255 - messHeaderSize))
    "FATAL: SPI link message_size_max exceeds the maximum possible value"
  Prog.write fun s =>
    let b := Buffer.init (u8 (conf.messageSizeMax + messHeaderSize))
    { s with
      pool := ⟨b, b, b, b⟩
      link := { s.link with
        pBufferInCache := .b0, pBufferIn := .b1, pBufferOutCache := .b2, pBufferOut := .b3 } }

/-- `_init`. -/
def linkInit (conf : SpilsConf) : Code Unit := do
  writeSpi spiInit
  buffersInit conf
  writeLink fun l => { l with
    messageSizeMax := conf.messageSizeMax
    mutexIn := false, mutexOut := false
    connectionDetected := false
    dataInAvailable := false, dataOutAvailable := false
    lineInBusy := false, lineInIsSaturated := false
    disconnectTimeoutMs := conf.disconnectTimeoutMs, disconnectTimer := 0 }
  disconnectTimerReset
  writeLink fun l => { l with state := .idle, conState := .unknown }

/-- `spils_init`. -/
def spilsInit (conf : SpilsConf) : Code Result := do
  linkInit conf
  listeningStart MessType.resultReady
  pure .ok

end NeuronWired
