import NeuronWired.Interrupt.Machine
import NeuronWired.Handler
import NeuronWired.SpiSlave

/-!
# System — the machines whose runs are verified

The interrupts are the rising edges of chip select and the passing of time.  `linkMachine` lets the
main loop make any calls of the link's interface in any order, `slaveMachine` those of `Spi_slave` and
`SpiPort` above it.  Both start after an undisturbed `spils_init`.
-/

namespace NeuronWired

open Interrupt

/-! ## Interrupts -/

/-- What can come between two steps of the main loop. -/
inductive Irq where
  | edge (e : Edge)
  | tick (ms : ℕ)
  deriving DecidableEq, Repr

/-- The program of an interrupt. -/
def irqProg : Irq → Code Unit
  | .edge e => csEdge transferDoneHandler e
  | .tick ms => Prog.write fun s => { s with now := s.now + ms }

/-! ## The two machines -/

/-- The calls of the link's interface. -/
inductive LinkCall where
  | poll
  | dataRead
  | dataSend (pData : Option Bytes) (dataSize : ℕ)
  deriving DecidableEq, Repr

/-- The program of a call. -/
def linkProg : LinkCall → Code Unit
  | .poll => spilsPoll
  | .dataRead => do let _ ← spilsDataRead
  | .dataSend pData dataSize => do let _ ← spilsDataSend pData dataSize

/-- The link under any calls that meet `callOk` and any interrupts that meet `irqOk`. -/
def linkMachine (callOk : LinkCall → Sys → Prop) (irqOk : Irq → Sys → Prop) :
    Machine Sys LinkCall Irq :=
  { call := linkProg, irq := irqProg, callOk := callOk, irqOk := irqOk }

instance (callOk : LinkCall → Sys → Prop) (irqOk : Irq → Sys → Prop) [h : ∀ k s, Decidable (callOk k s)]
    (k : LinkCall) (s : Sys) : Decidable ((linkMachine callOk irqOk).callOk k s) := h k s

instance (callOk : LinkCall → Sys → Prop) (irqOk : Irq → Sys → Prop) [h : ∀ i s, Decidable (irqOk i s)]
    (i : Irq) (s : Sys) : Decidable ((linkMachine callOk irqOk).irqOk i s) := h i s

/-- The calls of `Spi_slave` and `SpiPort`. -/
inductive SlaveCall where
  | run (stack : Stack)
  | sendPacket (packet : Bytes)
  | readPacket

/-- The program of a call. -/
def slaveProg (F : PacketFormat) : SlaveCall → Code Unit
  | .run stack => spiSlaveRun F stack
  | .sendPacket packet => sendPacket packet
  | .readPacket => readPacket

/-- `Spi_slave` under any calls and any interrupts that meet `irqOk`. -/
def slaveMachine (F : PacketFormat) (irqOk : Irq → Sys → Prop) : Machine Sys SlaveCall Irq :=
  { call := slaveProg F, irq := irqProg, callOk := fun _ _ => True, irqOk := irqOk }

instance (F : PacketFormat) (irqOk : Irq → Sys → Prop) (k : SlaveCall) (s : Sys) :
    Decidable ((slaveMachine F irqOk).callOk k s) := .isTrue trivial

instance (F : PacketFormat) (irqOk : Irq → Sys → Prop) [h : ∀ i s, Decidable (irqOk i s)]
    (i : Irq) (s : Sys) : Decidable ((slaveMachine F irqOk).irqOk i s) := h i s

/-- The main loop is not executing `Spi_slave::run`. -/
def OutsideRun (c : Cfg Sys SlaveCall) : Prop := ∀ stack p, c.main ≠ some (.run stack, p)

theorem outsideRun_of_idle {c : Cfg Sys SlaveCall} (h : c.main = none) : OutsideRun c := by
  intro stack p hp
  rw [h] at hp
  cases hp

/-! ## The start -/

/-- The hardware a start finds. -/
structure Board where
  txDepth : ℕ
  resetDone : Bool
  csInactive : Bool
  now : ℕ
  deriving DecidableEq, Repr

/-- The state before the initialisation: every memory block is zero. -/
def powerOn (hw : Board) (slave : SpiSlave) : Sys :=
  { link :=
      { state := .idle, conState := .unknown
        pBufferInCache := .b0, pBufferIn := .b0, pBufferOutCache := .b0, pBufferOut := .b0
        messageSizeMax := 0, mutexIn := false, mutexOut := false
        connectionDetected := false, dataInAvailable := false, dataOutAvailable := false
        lineInBusy := false, lineInIsSaturated := false
        disconnectTimeoutMs := 0, disconnectTimer := 0 }
    pool := ⟨.init 0, .init 0, .init 0, .init 0⟩
    spi := spiInit
      { busy := false, dmaRx := .init .memoryToMemory, dmaTx := .init .memoryToMemory
        pDataOut := none, pDataIn := none, dataOutLen := 0, dataInLen := 0
        dummyIn := 0, dummyOut := 0, dummyInUsed := false, resendRequest := false
        txFifo := [], txDepth := hw.txDepth, sse := false, dmacr := false
        resetDone := hw.resetDone, csInactive := hw.csInactive }
    slave := slave
    now := hw.now
    ghost :=
      { trace := [], wire := [], reading := none, filling := none
        swapIn := false, swapOut := false, availRead := none } }

/-- The configurations that `_buffers_init` asserts. -/
def SpilsConf.Ok (conf : SpilsConf) : Prop := conf.messageSizeMax ≤ 253

instance (conf : SpilsConf) : Decidable conf.Ok := inferInstanceAs (Decidable (_ ≤ _))

/-- The state after `spils_init`. -/
def start (conf : SpilsConf) (hw : Board) (slave : SpiSlave) : Sys :=
  ((spilsInit conf).run (powerOn hw slave)).2

/-- A state that an undisturbed `spils_init` with an admitted configuration returns in. -/
def Initial (s : Sys) : Prop := ∃ conf hw slave, SpilsConf.Ok conf ∧ s = start conf hw slave

/-- A link with four-byte messages on an idle board, for runs on fixed inputs. -/
def sampleLink : Sys :=
  start ⟨4, 1000⟩ ⟨8, true, true, 0⟩ ⟨false, false, false, .new 4, .new 4⟩

theorem sampleLink_initial : Initial sampleLink := ⟨_, _, _, by decide, rfl⟩

/-- The state after `Spi_slave::init`. -/
def slaveStart (F : PacketFormat) (hw : Board) : Sys := start (spiSlaveConf F) hw (.new F)

theorem spiSlaveConf_ok (F : PacketFormat) : (spiSlaveConf F).Ok := by
  have h := F.fits
  show u8 (F.packetSize * 4) ≤ 253
  rw [u8_of_lt (by omega)]
  exact h

/-- Packets of two bytes: a checksum, and whether more are to come. -/
def sampleFormat : PacketFormat where
  packetSize := 2
  headerSize := 2
  size _ := 0
  crc p := p.getD 0 0
  setCrc c p := p.set 0 c
  setHasMorePackets b p := p.set 1 (if b then 1 else 0)
  packetSize_pos := by decide
  fits := by decide
  length_setCrc _ _ := List.length_set
  length_setHasMorePackets _ _ := List.length_set

/-- `Spi_slave` after its start on an idle board. -/
def sampleSlave : Sys := slaveStart sampleFormat ⟨8, true, true, 0⟩

/-- A chip-select pulse with `wire` on it, on an idle board. -/
def Edge.of (wire : Bytes) : Edge := ⟨wire, 0, true, true⟩

/-- The state in front of the first `_listening_start`. -/
def prepared (conf : SpilsConf) (hw : Board) (slave : SpiSlave) : Sys :=
  ((linkInit conf).run (powerOn hw slave)).2

/-- What `_init` leaves, with a configuration that `_buffers_init` admits. -/
theorem prepared_eq {conf : SpilsConf} (hc : conf.Ok) (hw : Board) (slave : SpiSlave) :
    prepared conf hw slave =
      { powerOn hw slave with
        link :=
          { state := .idle, conState := .unknown
            pBufferInCache := .b0, pBufferIn := .b1, pBufferOutCache := .b2, pBufferOut := .b3
            messageSizeMax := conf.messageSizeMax, mutexIn := false, mutexOut := false
            connectionDetected := false, dataInAvailable := false, dataOutAvailable := false
            lineInBusy := false, lineInIsSaturated := false
            disconnectTimeoutMs := conf.disconnectTimeoutMs
            disconnectTimer := u32 ((hw.now % 4294967296 : ℕ) + conf.disconnectTimeoutMs) }
        pool := ⟨.init (conf.messageSizeMax + 2), .init (conf.messageSizeMax + 2),
          .init (conf.messageSizeMax + 2), .init (conf.messageSizeMax + 2)⟩ } := by
  have hmax : conf.messageSizeMax ≤ 253 := hc
  have h8 : u8 (conf.messageSizeMax + messHeaderSize) = conf.messageSizeMax + 2 :=
    u8_of_lt (by unfold messHeaderSize; omega)
  have hassert : decide (conf.messageSizeMax ≤ 255 - messHeaderSize) = true :=
    decide_eq_true (by unfold messHeaderSize; omega)
  unfold prepared linkInit buffersInit
  simp only [Prog.run_bind, disconnectTimerReset, timerSetMs, run_readLink, run_writeLink,
    Prog.run_read, Prog.run_write, run_writeSpi, run_assertDygma, h8, hassert, if_true]
  rfl

/-- `spils_init` leaves the link listening, with the first transfer prepared. -/
theorem start_eq (conf : SpilsConf) (hw : Board) (slave : SpiSlave) :
    ∃ h, start conf hw slave =
        ((prepared conf hw slave).answer MessType.resultReady).rearm .listeningStart h ∧
      ArmedFor ((prepared conf hw slave).answer MessType.resultReady) h := by
  have hr : Ready (prepared conf hw slave).spi := by
    unfold prepared linkInit buffersInit
    simp only [Prog.run_bind, disconnectTimerReset, timerSetMs, run_readLink, run_writeLink,
      Prog.run_read, Prog.run_write, run_writeSpi, run_assertDygma]
    split_ifs <;> exact ⟨rfl, rfl, rfl, rfl⟩
  obtain ⟨h, hrun, ha⟩ := run_listeningStart MessType.resultReady hr
  refine ⟨h, ?_, ha⟩
  unfold start spilsInit
  rw [Prog.run_bind, Prog.run_bind]
  exact congrArg Prod.snd hrun

end NeuronWired
