import NeuronWired.Base
import NeuronWired.FifoQueue
import NeuronWired.PacketLayout

/-!
# SpiPort — packets on their way to the reader (`Spi_slave.cpp`, `SpiPort.cpp`)

A `Port` is the firmware with two ledgers: what `spils_data_read` gave `data_in_process`, and the packets
that left `rx_fifo`.  Between two calls of the main loop any interrupt may come.
-/

namespace NeuronWired

open Interrupt

/-! ## The calls of the reader -/

/-- `SpiPort::peekPacket`: the packet, or nothing when the call returns false. -/
def peekPacket : Code (Option Bytes) := do
  let empty ← readSlave (·.spiRxFifo.isEmpty)
  if empty = true then pure none
  else
    let packet ← readSlave (·.spiRxFifo.peek.2)
    pure (some packet)

/-- `SpiPort::clearRead`, at most `n` rounds of it, and the packets that are removed. -/
def clearRead : ℕ → Code (List Bytes)
  | 0 => pure []
  | n + 1 => do
    let empty ← readSlave (·.spiRxFifo.isEmpty)
    if empty = true then pure []
    else
      let packet ← readSlave (·.spiRxFifo.peek.2)
      writeSlave fun p => { p with spiRxFifo := p.spiRxFifo.removeOne.2 }
      let packets ← clearRead n
      pure (packet :: packets)

/-- `clearRead` writes fields of `Spi_slave` only. -/
theorem keeps_clearRead {P : Sys → Prop} (hP : ∀ s f, P s → P (s.mapSlave f)) (n : ℕ) :
    Keeps P (clearRead n) := by
  induction n with
  | zero => exact keeps_pure _
  | succ n ih =>
    exact .bind (keeps_read _) fun _ => .ite (keeps_pure _) (.bind (keeps_read _) fun _ =>
      .bind (keeps_write fun s hs => hP s _ hs) fun _ => .bind ih fun _ => keeps_pure _)

/-- What `SpiPort::readPacket` copies to its argument; nothing when it returns false. -/
def readable (s : Sys) : Option Bytes :=
  if s.slave.spiRxFifo.isEmpty = true then none else some s.slave.spiRxFifo.get.1.2

/-! ## What `Spi_slave::run` is given -/

/-- A payload that `spils_data_read` gave `data_in_process`, and what was behind `p_data` at each packet. -/
structure Payload where
  read : DataRead
  behind : ℕ → Bytes

/-- What `data_in_process` is given in this state. -/
def dataReceived (behind : ℕ → Bytes) (s : Sys) : Option Payload :=
  if s.slave.spilsDataInReceived = false then none
  else
    let r := (spilsDataRead.run s).1
    if r.result ≠ .ok then none else some ⟨r, behind⟩

/-- The packet that `data_out_process` takes in this state. -/
def packetTaken (s : Sys) : Option Bytes :=
  if s.slave.spilsDataOutSending = true ∨ s.slave.spiTxFifo.isEmpty = true then none
  else some s.slave.spiTxFifo.get.1.2

/-- `n` slices of an array, of `size` bytes each. -/
def slices (size : ℕ) : ℕ → Bytes → List Bytes
  | 0, _ => []
  | n + 1, rest => rest.take size :: slices size n (rest.drop size)

section Run

variable (F : PacketFormat)

/-- What a `Spi_slave::run` in this state receives. -/
def runReceived (stack : Stack) (s : Sys) : Option Payload :=
  dataReceived stack.pData (spilsPoll.run s).2

/-- The packet that a `Spi_slave::run` in this state sends. -/
def runSends (stack : Stack) (s : Sys) : Option Bytes :=
  packetTaken ((dataInProcess F stack.pData).run (spilsPoll.run s).2).2

/-- `p_data` of `data_in_process`, with a payload in it. -/
def payloadArray (p : Payload) : Bytes := memcpy (List.replicate (spilsMessageSizeMax F) 0) 0 p.read.data

/-- The number of packets that the loop of `data_in_process` runs over. -/
def payloadPackets (p : Payload) : ℕ := p.read.dataSize.getD 0 / F.packetSize

/-! ## The slices of a payload -/

/-- The packet at the start of `rest`, the end of the array that `behind` follows, passes the check of
`packet_in_process`.  The range of the checksum is the one `header.size` asks for, also where it leaves
the packet and the array. -/
def CrcValid (behind rest : Bytes) : Prop :=
  crc8 (F.setCrc 0 (rest.take F.packetSize) ++ rest.drop F.packetSize ++ behind)
    (F.headerSize + F.size (rest.take F.packetSize)) = F.crc (rest.take F.packetSize)

instance (behind rest : Bytes) : Decidable (CrcValid F behind rest) := inferInstanceAs (Decidable (_ = _))

/-- Those of the first `n` packets of an array that pass the check, with `header.crc` cleared. -/
def validPackets (behind : ℕ → Bytes) : ℕ → Bytes → List Bytes
  | 0, _ => []
  | n + 1, rest =>
    let others := validPackets behind n (rest.drop F.packetSize)
    if CrcValid F (behind n) rest then F.setCrc 0 (rest.take F.packetSize) :: others else others

theorem validPackets_succ (behind : ℕ → Bytes) (n : ℕ) (rest : Bytes) : validPackets F behind (n + 1) rest =
    if CrcValid F (behind n) rest then
      F.setCrc 0 (rest.take F.packetSize) :: validPackets F behind n (rest.drop F.packetSize)
    else validPackets F behind n (rest.drop F.packetSize) := rfl

variable {F} in
/-- Inside the packet the check sees nothing of what is behind it. -/
theorem crcValid_iff {behind rest : Bytes} (hlen : (rest.take F.packetSize).length = F.packetSize)
    (hfits : SizeFits F (rest.take F.packetSize)) :
    CrcValid F behind rest ↔ crc8 (F.setCrc 0 (rest.take F.packetSize))
      (F.headerSize + F.size (rest.take F.packetSize)) = F.crc (rest.take F.packetSize) := by
  have htake : (F.setCrc 0 (rest.take F.packetSize) ++ rest.drop F.packetSize ++ behind).take
      (F.headerSize + F.size (rest.take F.packetSize)) =
        (F.setCrc 0 (rest.take F.packetSize)).take (F.headerSize + F.size (rest.take F.packetSize)) := by
    rw [List.append_assoc]
    refine List.take_append_of_le_length ?_
    rw [F.length_setCrc, hlen]
    exact hfits
  unfold CrcValid crc8
  rw [htake]

/-- The valid packets of a payload. -/
def payloadValid (p : Payload) : List Bytes :=
  validPackets F p.behind (payloadPackets F p) (payloadArray F p)

/-- The slices of a payload. -/
def payloadSlices (p : Payload) : List Bytes := slices F.packetSize (payloadPackets F p) (payloadArray F p)

end Run

/-- Packets put one after another; a queue without room leaves a packet out. -/
def FifoBuffer.putAll (f : FifoBuffer) (packets : List Bytes) : FifoBuffer :=
  packets.foldl (fun f packet => (f.put packet).2) f

/-! ## The port -/

/-- A packet that left `rx_fifo`, to the reader or by `clearRead`. -/
inductive Departure where
  | read (packet : Bytes)
  | cleared (packet : Bytes)
  deriving DecidableEq, Repr

/-- The packet that left. -/
def Departure.packet : Departure → Bytes
  | .read packet => packet
  | .cleared packet => packet

/-- The firmware and the two ledgers. -/
structure Port where
  sys : Sys
  payloads : List Payload
  gone : List Departure

/-- What happens to a port. -/
inductive PortEvent where
  | irq (i : Irq)
  | run (stack : Stack)
  | sendPacket (packet : Bytes)
  | readPacket
  | peekPacket
  | clearRead

namespace Port

variable (F : PacketFormat)

/-- One event; the rounds of `clearRead` are as many as there are bytes in the queue, at most. -/
def step (p : Port) : PortEvent → Port
  | .irq i => { p with sys := ((irqProg i).run p.sys).2 }
  | .run stack =>
    { p with
      sys := ((spiSlaveRun F stack).run p.sys).2
      payloads := p.payloads ++ (runReceived stack p.sys).toList }
  | .sendPacket packet => { p with sys := ((sendPacket packet).run p.sys).2 }
  | .readPacket =>
    { p with
      sys := (readPacket.run p.sys).2
      gone := p.gone ++ (readable p.sys).toList.map .read }
  | .peekPacket => { p with sys := (peekPacket.run p.sys).2 }
  | .clearRead =>
    let r := (clearRead p.sys.slave.spiRxFifo.index.toNat).run p.sys
    { p with sys := r.2, gone := p.gone ++ r.1.map .cleared }

/-- After `Spi_slave::init`. -/
def start (hw : Board) : Port := { sys := slaveStart F hw, payloads := [], gone := [] }

end Port

theorem run_peekPacket (s : Sys) : (peekPacket.run s).2 = s := by
  unfold peekPacket
  rw [Prog.run_bind, run_readSlave, Prog.run_ite, Prog.run_bind, run_readSlave, Prog.run_pure,
    Prog.run_pure]
  split_ifs <;> rfl

/-- The master announces a message and sends `bytes` in it, and `Spi_slave::run` is called. -/
def deliver (stack : Stack) (bytes : Bytes) : List PortEvent :=
  [.irq (.edge (.of [2, 1])), .irq (.edge (.of (UInt8.ofNat (bytes.length + 2) :: 3 :: bytes))),
    .run stack]

/-! ## What the link leaves alone -/

/-- The length of an observed checksum. -/
def Obs.crcLength : Obs → Option ℕ
  | .crcRange _ len _ => some len
  | _ => none

/-- The lengths of the checksums made so far. -/
def crcLengths (trace : List Obs) : List ℕ := trace.filterMap Obs.crcLength

/-- The received packets and the checksums, which only `Spi_slave` itself touches. -/
structure Aside (size : ℕ) (rx : FifoBuffer) (lens : List ℕ) (s : Sys) : Prop where
  base : Base size s
  rx : s.slave.spiRxFifo = rx
  lens : crcLengths s.ghost.trace = lens

section Aside

variable {size : ℕ} {rx : FifoBuffer} {lens : List ℕ} {s : Sys}

theorem Base.aside (h : Base size s) : Aside size s.slave.spiRxFifo (crcLengths s.ghost.trace) s :=
  ⟨h, rfl, rfl⟩

theorem Aside.log (h : Aside size rx lens s) {x : Obs} (hx : x.crcLength = none) :
    Aside size rx lens (s.log x) := by
  refine ⟨h.base.congr rfl rfl rfl, h.rx, ?_⟩
  rw [Sys.trace_log, crcLengths, List.filterMap_append, List.filterMap_cons_none hx]
  exact (List.append_nil _).trans h.lens

theorem Aside.event (h : Aside size rx lens s) (e : SpilsEventType) :
    Aside size rx lens ((s.mapSlave (spilsEventHandler e)).log (.event e)) := by
  have hs : Aside size rx lens (s.mapSlave (spilsEventHandler e)) :=
    ⟨h.base.congr rfl rfl rfl, by rw [← h.rx]; cases e <;> rfl, h.lens⟩
  exact hs.log rfl

theorem Aside.mapSlave (h : Aside size rx lens s) (f : SpiSlave → SpiSlave)
    (hf : (f s.slave).spiRxFifo = s.slave.spiRxFifo) : Aside size rx lens (s.mapSlave f) :=
  ⟨h.base.congr rfl rfl rfl, hf.trans h.rx, h.lens⟩

theorem conFrame_aside : ConFrame (Aside size rx lens) where
  link s f hf h := ⟨(frame_base_only size).con.link s f hf h.base, h.rx, h.lens⟩
  event _ e _ h := h.event e

theorem inFrame_aside : InFrame (Aside size rx lens) where
  isIn s h := (frame_base_only size).isIn s h.base
  link s f hf hp hc h := ⟨(frame_base_only size).inFrame.link s f hf hp hc h.base, h.rx, h.lens⟩
  buf s i b _ hb h := ⟨(frame_base_only size).buf s i b hb h.base, h.rx, h.lens⟩
  swapIn _ _ h := ⟨h.base.congr rfl rfl rfl, h.rx, h.lens⟩
  reading _ _ h := ⟨h.base.congr rfl rfl rfl, h.rx, h.lens⟩
  event _ h := h.event _
  log _ x hx h := h.log (by cases x <;> first | rfl | exact hx.elim)

theorem outFrame_aside : OutFrame (Aside size rx lens) where
  isOut s h := (frame_base_only size).isOut s h.base
  link s f hf h := ⟨(frame_base_only size).outFrame.link s f hf h.base, h.rx, h.lens⟩
  buf s i b _ hb h := ⟨(frame_base_only size).buf s i b hb h.base, h.rx, h.lens⟩
  filling _ _ h := ⟨h.base.congr rfl rfl rfl, h.rx, h.lens⟩
  failed _ _ h := h.log rfl

theorem keeps_spilsPoll : Keeps (Aside size rx lens) spilsPoll :=
  .bind conFrame_aside.conMachine fun _ => inFrame_aside.lineInBusyProcess

theorem keeps_writeAside {f : SpiSlave → SpiSlave} (hf : ∀ p, (f p).spiRxFifo = p.spiRxFifo) :
    Keeps (Aside size rx lens) (writeSlave f) :=
  keeps_write fun _ h => h.mapSlave f (hf _)

theorem Aside.irq (h : Aside size rx lens s) (i : Irq) : Aside size rx lens ((irqProg i).run s).2 := by
  refine ⟨h.base.run_irq i, ?_, ?_⟩
  · rw [← h.rx]
    exact h.base.field_irq SpiSlave.spiRxFifo (fun e _ => by cases e <;> rfl) i
  · cases i with
    | tick ms => exact h.lens
    | edge e =>
      have hnote : ∀ l : List Obs, (∀ x ∈ l, x.Note) → crcLengths l = [] := by
        intro l hl
        refine List.filterMap_eq_nil_iff.mpr fun x hx => ?_
        have hx := hl x hx
        cases x <;> first | rfl | exact hx.elim
      cases h.base.run_edge e with
      | again g silent armed same eq =>
        rw [eq, Sys.ghost_mapSpi, (link_clockIn s e).2.2.2]
        exact h.lens
      | done p st ready g valid resend processed armed eq =>
        obtain ⟨l₁, l₂, htrace, hl⟩ := trace_done processed g
        have h1 := hnote l₁ fun x hx => hl x (List.mem_append_left _ hx)
        have h2 := hnote l₂ fun x hx => hl x (List.mem_append_right _ hx)
        rw [eq, htrace, ← h.lens]
        unfold crcLengths at h1 h2 ⊢
        simp [List.filterMap_append, List.filterMap_cons, h1, h2, Obs.crcLength]

end Aside

/-! ## `data_in_process` -/

section DataIn

variable {F : PacketFormat} {size : ℕ} {rx : FifoBuffer} {lens : List ℕ} {s : Sys}

/-- Behind the packet under check nothing changes, and its `crc` field is cleared. -/
theorem drop_cleared (pData : Bytes) (pos : ℕ) :
    (memcpy pData pos (F.setCrc 0 ((pData.drop pos).take F.packetSize))).drop pos =
        F.setCrc 0 ((pData.drop pos).take F.packetSize) ++ (pData.drop pos).drop F.packetSize ∧
      (memcpy pData pos (F.setCrc 0 ((pData.drop pos).take F.packetSize))).drop (pos + F.packetSize) =
        (pData.drop pos).drop F.packetSize := by
  have hlen : (F.setCrc 0 ((pData.drop pos).take F.packetSize)).length =
      min F.packetSize (pData.length - pos) := by
    rw [F.length_setCrc, List.length_take, List.length_drop]
  generalize F.setCrc 0 ((pData.drop pos).take F.packetSize) = cleared at hlen ⊢
  have hfirst : (memcpy pData pos cleared).drop pos = cleared ++ (pData.drop pos).drop F.packetSize := by
    by_cases hpos : pos ≤ pData.length
    · rw [drop_memcpy_append (by omega), List.drop_drop]
      congr 1
      by_cases hshort : pData.length ≤ pos + F.packetSize
      · rw [List.drop_of_length_le (by omega), List.drop_of_length_le hshort]
      · congr 1
        omega
    · obtain rfl : cleared = [] := List.eq_nil_of_length_eq_zero (by omega)
      rw [List.drop_of_length_le (by rw [length_memcpy]; omega),
        List.drop_of_length_le (l := pData) (by omega)]
      simp
  refine ⟨hfirst, ?_⟩
  rw [← List.drop_drop, hfirst]
  by_cases hshort : F.packetSize ≤ pData.length - pos
  · rw [List.drop_append_of_le_length (by omega), List.drop_of_length_le (by omega), List.nil_append]
  · rw [List.drop_of_length_le (by simp; omega), List.drop_of_length_le (by simp; omega)]

theorem run_packetInProcess (behind pData : Bytes) (pos : ℕ) (s : Sys) :
    (packetInProcess F behind pData pos).run s =
      (memcpy pData pos (F.setCrc 0 ((pData.drop pos).take F.packetSize)),
        if CrcValid F behind (pData.drop pos) then
          (s.log (.crcRange pos (F.headerSize + F.size ((pData.drop pos).take F.packetSize))
            pData.length)).mapSlave fun p =>
              { p with spiRxFifo := (p.spiRxFifo.put
                (F.setCrc 0 ((pData.drop pos).take F.packetSize))).2 }
        else s.log (.crcRange pos (F.headerSize + F.size ((pData.drop pos).take F.packetSize))
          pData.length)) := by
  have hcheck : CrcValid F behind (pData.drop pos) ↔
      crc8 ((memcpy pData pos (F.setCrc 0 ((pData.drop pos).take F.packetSize))).drop pos ++ behind)
        (F.headerSize + F.size ((pData.drop pos).take F.packetSize)) =
          F.crc ((pData.drop pos).take F.packetSize) := by
    rw [(drop_cleared pData pos).1]
    rfl
  unfold packetInProcess
  simp only [Prog.run_bind, run_logObs, Prog.run_ite, Prog.run_pure, run_writeSlave, ← hcheck]
  split_ifs <;> rfl

theorem Aside.packetIn (h : Aside size rx lens s) (behind pData : Bytes) (pos : ℕ) :
    Aside size
      (if CrcValid F behind (pData.drop pos) then
        (rx.put (F.setCrc 0 ((pData.drop pos).take F.packetSize))).2 else rx)
      (lens ++ [F.headerSize + F.size ((pData.drop pos).take F.packetSize)])
      ((packetInProcess F behind pData pos).run s).2 := by
  rw [run_packetInProcess]
  generalize hlen : F.headerSize + F.size ((pData.drop pos).take F.packetSize) = len
  have hlog : Aside size rx (lens ++ [len]) (s.log (.crcRange pos len pData.length)) := by
    refine ⟨h.base.congr rfl rfl rfl, h.rx, ?_⟩
    rw [Sys.trace_log, crcLengths, List.filterMap_append, ← h.lens]
    rfl
  dsimp only
  by_cases hvalid : CrcValid F behind (pData.drop pos)
  · rw [if_pos hvalid, if_pos hvalid]
    refine ⟨hlog.base.congr rfl rfl rfl, ?_, hlog.lens⟩
    rw [← h.rx]
    rfl
  · rw [if_neg hvalid, if_neg hvalid]
    exact hlog

theorem Aside.packetsIn (h : Aside size rx lens s) (behind : ℕ → Bytes) (n : ℕ) (pData : Bytes) (pos : ℕ) :
    Aside size (rx.putAll (validPackets F behind n (pData.drop pos)))
      (lens ++ (slices F.packetSize n (pData.drop pos)).map fun p => F.headerSize + F.size p)
      ((packetsInProcess F behind n pData pos).run s).2 := by
  induction n generalizing rx lens s pData pos with
  | zero => simpa [packetsInProcess, validPackets, slices, FifoBuffer.putAll] using h
  | succ n ih =>
    have hnext := ih (h.packetIn (F := F) (behind n) pData pos) ((packetInProcess F (behind n) pData pos).run s).1
      (pos + F.packetSize)
    unfold packetsInProcess
    rw [Prog.run_bind]
    rw [run_packetInProcess] at hnext ⊢
    rw [(drop_cleared pData pos).2] at hnext
    have hrx : (if CrcValid F (behind n) (pData.drop pos) then
          (rx.put (F.setCrc 0 ((pData.drop pos).take F.packetSize))).2 else rx).putAll
            (validPackets F behind n ((pData.drop pos).drop F.packetSize)) =
        rx.putAll (validPackets F behind (n + 1) (pData.drop pos)) := by
      rw [validPackets_succ]
      split_ifs <;> rfl
    rw [hrx, List.append_assoc] at hnext
    exact hnext

/-- `data_in_process` puts the valid packets of the payload it is given. -/
theorem Aside.dataIn (h : Aside size rx lens s) (behind : ℕ → Bytes) :
    Aside size (rx.putAll ((dataReceived behind s).toList.flatMap (payloadValid F)))
      (lens ++
        ((dataReceived behind s).toList.flatMap (payloadSlices F)).map fun p => F.headerSize + F.size p)
      ((dataInProcess F behind).run s).2 := by
  unfold dataInProcess dataReceived
  rw [Prog.run_bind, run_readSlave]
  by_cases hflag : s.slave.spilsDataInReceived = false
  · rw [if_pos hflag, if_pos hflag]
    simpa [FifoBuffer.putAll] using h
  rw [if_neg hflag, if_neg hflag, Prog.run_bind, Prog.run_bind]
  have hread : Aside size rx lens (spilsDataRead.run s).2 := inFrame_aside.spilsDataRead.run h
  generalize spilsDataRead.run s = read at hread ⊢
  obtain ⟨r, t⟩ := read
  have hassert := (outFrame_aside.assertDygma (sizeIsWhole F r.dataSize)
    "Invalid size of the SPI slave packet received").run hread
  generalize ((assertDygma _ _).run t).2 = t at hassert ⊢
  dsimp only at hassert ⊢
  by_cases hok : r.result ≠ .ok
  · rw [if_pos hok, if_pos hok]
    simpa [FifoBuffer.putAll] using hassert
  rw [if_neg hok, if_neg hok, spilsDataReadAvailable, Prog.run_bind, Prog.run_atomic, Prog.run_bind,
    Prog.run_write]
  have hstored : Aside size rx lens (((t.mapGhost fun g =>
      { g with availRead := some t.link.dataInAvailable }).mapSlave fun p =>
        { p with spilsDataInReceived := t.link.dataInAvailable }).mapGhost fun g =>
          { g with availRead := none }) :=
    ⟨hassert.base.congr rfl rfl rfl, hassert.rx, hassert.lens⟩
  have hall := hstored.packetsIn (F := F) behind (payloadPackets F ⟨r, behind⟩) (payloadArray F ⟨r, behind⟩) 0
  rw [List.drop_zero] at hall
  simpa [payloadValid, payloadSlices, payloadPackets, payloadArray] using hall

end DataIn

/-! ## `data_out_process` -/

section DataOut

variable {F : PacketFormat} {size : ℕ} {rx : FifoBuffer} {lens : List ℕ} {s : Sys}

/-- `data_out_process` makes one checksum, of the packet that it takes. -/
theorem Aside.dataOut (h : Aside size rx lens s) (behind : Bytes) : ∃ more : Bool,
    Aside size rx
      (lens ++ (packetTaken s).toList.map fun p =>
        F.headerSize + F.size (F.setCrc 0 (F.setHasMorePackets more p)))
      ((dataOutProcess F behind).run s).2 := by
  unfold dataOutProcess packetTaken
  rw [Prog.run_bind, run_readSlave, Prog.run_bind, run_readSlave]
  by_cases hidle : s.slave.spilsDataOutSending = true ∨ s.slave.spiTxFifo.isEmpty = true
  · rw [if_pos hidle, if_pos hidle]
    exact ⟨true, by simpa using h⟩
  rw [if_neg hidle, if_neg hidle, Prog.run_bind]
  have hget : Aside size rx lens (txFifoGet.run s).2 :=
    (h.mapSlave (fun p => { p with spiTxFifo := s.slave.spiTxFifo.get.2 }) rfl).log
      (x := .txGet s.slave.spiTxFifo.get.1.2) rfl
  have hgot : (txFifoGet.run s).1 = s.slave.spiTxFifo.get.1 := rfl
  rw [hgot]
  generalize s.slave.spiTxFifo.get.1 = got
  generalize (txFifoGet.run s).2 = t at hget ⊢
  rw [Prog.run_bind]
  have hassert := (outFrame_aside.assertDygma (decide (got.1 = F.packetSize))
    "Failure: Empty Packet received from FIFO").run hget
  generalize ((assertDygma _ _).run t).2 = t at hassert ⊢
  rw [Prog.run_bind, run_readSlave, Prog.run_bind, run_logObs]
  generalize (!t.slave.spiTxFifo.isEmpty) = more
  refine ⟨more, ?_⟩
  have hrange : Aside size rx
      (lens ++ [F.headerSize + F.size (F.setCrc 0 (F.setHasMorePackets more got.2))])
      (t.log (.crcRange 0 (F.headerSize + F.size (F.setCrc 0 (F.setHasMorePackets more got.2)))
        got.2.length)) := by
    refine ⟨hassert.base.congr rfl rfl rfl, hassert.rx, ?_⟩
    rw [Sys.trace_log, crcLengths, List.filterMap_append, ← hassert.lens]
    rfl
  refine Keeps.run (P := Aside size rx _) ?_ hrange
  exact .bind (keeps_writeAside fun _ => rfl) fun _ =>
    .bind (outFrame_aside.spilsDataSend fun _ _ hs => hs.log rfl) fun _ =>
      .bind (outFrame_aside.assertDygma _ _) fun _ =>
        .ite (keeps_writeAside fun _ => rfl) (keeps_pure _)

/-- One `Spi_slave::run`. -/
theorem Aside.slaveRun (h : Aside size rx lens s) (stack : Stack) : ∃ more : Bool,
    Aside size (rx.putAll ((runReceived stack s).toList.flatMap (payloadValid F)))
      (lens ++
          (((runReceived stack s).toList.flatMap (payloadSlices F)).map fun p => F.headerSize + F.size p) ++
        (runSends F stack s).toList.map fun p =>
          F.headerSize + F.size (F.setCrc 0 (F.setHasMorePackets more p)))
      ((spiSlaveRun F stack).run s).2 := by
  have hpoll : Aside size rx lens (spilsPoll.run s).2 := keeps_spilsPoll.run h
  unfold spiSlaveRun runReceived runSends
  rw [Prog.run_bind, Prog.run_bind]
  exact (hpoll.dataIn (F := F) stack.pData).dataOut (F := F) stack.spiPacket

end DataOut

end NeuronWired
