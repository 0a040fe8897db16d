import NeuronWired.Interrupt.Shadow
import NeuronWired.System

/-!
# Ports — both halves of the keyboard under one main loop

The firmware has two `Spi_slave`s, one for each SPI, behind `SpiPort` objects (`SpiPort.cpp`).  They share
the main loop, the millisecond clock and one callback for all pins, which finds the SPI behind a
chip-select pin by a search in the table of peripherals (`hal_ll_rp20xx_spi.c`).  A pulse on one pin may
come at any point of a call for the other half.
-/

namespace NeuronWired

open Interrupt

/-! ## The table of peripherals -/

/-- `hal_mcu_spi_periph_def_t`. -/
inductive SpiPeriph where
  | spi0
  | spi1
  deriving DecidableEq, Repr

/-- `PIN_CS0` and `PIN_CS1`, which `_slave_init` stores as `slave.pin_cs`. -/
def SpiPeriph.pinCs : SpiPeriph → ℕ
  | .spi0 => 21
  | .spi1 => 9

/-- `p_periph_def_array`, in its order. -/
def periphDefArray : List SpiPeriph := [.spi0, .spi1]

/-- `_slave_cs_instance_get`: the first peripheral with this chip-select pin. -/
def slaveCsInstanceGet (gpio : ℕ) : Option SpiPeriph := periphDefArray.find? fun d => d.pinCs = gpio

/-- The instance that the constructor of `SpiPort` stores; there is no third port. -/
def spiPortSlave (spiPortUsed : ℕ) : Option SpiPeriph :=
  if spiPortUsed = 0 then some .spi0 else if spiPortUsed = 1 then some .spi1 else none

/-- The state of both ports; the clock is kept in each. -/
structure Ports where
  spi0 : Sys
  spi1 : Sys
  deriving DecidableEq, Repr

namespace Ports

/-- The state of one port. -/
def get (t : Ports) : SpiPeriph → Sys
  | .spi0 => t.spi0
  | .spi1 => t.spi1

/-- Assignment to the state of one port. -/
def set (t : Ports) (s : Sys) : SpiPeriph → Ports
  | .spi0 => { t with spi0 := s }
  | .spi1 => { t with spi1 := s }

/-- Where the state of a port lies. -/
def port (d : SpiPeriph) : Lens Ports Sys where
  get t := t.get d
  set s t := t.set s d
  get_set _ _ := by cases d <;> rfl
  set_get _ := by cases d <;> rfl
  set_set _ _ _ := by cases d <;> rfl

theorem get_set_of_ne {d d' : SpiPeriph} (h : d ≠ d') (t : Ports) (s : Sys) :
    (t.set s d').get d = t.get d := by
  cases d <;> cases d' <;> first | rfl | exact absurd rfl h

end Ports

/-! ## The programs -/

/-- The edges that `event_mask` names. -/
structure EdgeMask where
  fall : Bool
  rise : Bool
  deriving DecidableEq, Repr

/-- The mask that `_slave_init` enables. -/
def slaveEdges : EdgeMask := ⟨false, true⟩

/-- `_slave_cs_selected_process`. -/
def slaveCsSelectedProcess : Code Unit := assertDygma false "Unexpected SPI Slave Chip select behavior."

/-- What `_slave_cs_irq_handler` does with the instance it found. -/
def slaveCsProcess (eventMask : EdgeMask) : Code Unit := do
  if eventMask.fall = true then slaveCsSelectedProcess else pure ()
  if eventMask.rise = true then slaveCsDeselectedProcess transferDoneHandler else pure ()

/-- `_slave_cs_irq_handler`; without an instance it dereferences a null pointer. -/
def slaveCsIrqHandler (gpio : ℕ) (eventMask : EdgeMask) : Prog Ports Unit :=
  match slaveCsInstanceGet gpio with
  | none => pure ()
  | some d => (slaveCsProcess eventMask).zoom (Ports.port d)

/-- What can come between two steps of the main loop: a pulse on the wires of one SPI, which ends with the
interrupt of its pin, or the passing of time. -/
inductive PortsIrq where
  | edge (d : SpiPeriph) (e : Edge)
  | tick (ms : ℕ)
  deriving DecidableEq, Repr

/-- The program of an interrupt. -/
def portsIrqProg : PortsIrq → Prog Ports Unit
  | .edge d e => do
    (Prog.write fun s : Sys => s.clockIn e).zoom (Ports.port d)
    slaveCsIrqHandler d.pinCs slaveEdges
  | .tick ms => Prog.write fun t =>
    { spi0 := { t.spi0 with now := t.spi0.now + ms }, spi1 := { t.spi1 with now := t.spi1.now + ms } }

/-- A call on the `SpiPort` that was made with this number. -/
def portsProg (F : PacketFormat) : ℕ × SlaveCall → Prog Ports Unit
  | (spiPortUsed, k) =>
    match spiPortSlave spiPortUsed with
    | none => pure ()
    | some d => (slaveProg F k).zoom (Ports.port d)

/-- What an interrupt is for one port. -/
def PortsIrq.of (d : SpiPeriph) : PortsIrq → Option Irq
  | .edge d' e => if d = d' then some (.edge e) else none
  | .tick ms => some (.tick ms)

/-- What a call is for one port. -/
def portCall (d : SpiPeriph) (k : ℕ × SlaveCall) : Option SlaveCall :=
  if spiPortSlave k.1 = some d then some k.2 else none

/-- Both ports under any calls that meet `callOk` and interrupts that meet `irqOk` at the port they are
for. -/
def portsMachine (F : PacketFormat) (irqOk : SpiPeriph → Irq → Sys → Prop) :
    Machine Ports (ℕ × SlaveCall) PortsIrq where
  call := portsProg F
  irq := portsIrqProg
  callOk _ _ := True
  irqOk i t := ∀ d i', i.of d = some i' → irqOk d i' (t.get d)

/-- After `Spi_slave::init` of both. -/
def portsStart (F : PacketFormat) (hw : SpiPeriph → Board) : Ports :=
  ⟨slaveStart F (hw .spi0), slaveStart F (hw .spi1)⟩

theorem get_portsStart (F : PacketFormat) (hw : SpiPeriph → Board) (d : SpiPeriph) :
    (portsStart F hw).get d = slaveStart F (hw d) := by
  cases d <;> rfl

/-! ## One port among two -/

/-- The search finds the port of the pin, since the pins are different. -/
theorem slaveCsInstanceGet_pinCs (d : SpiPeriph) : slaveCsInstanceGet d.pinCs = some d := by
  cases d <;> decide

/-- A rising edge at the pin of a port is the chip-select interrupt of its `Spi_slave`. -/
theorem portsIrqProg_edge (d : SpiPeriph) (e : Edge) :
    portsIrqProg (.edge d e) = (csEdge transferDoneHandler e).zoom (Ports.port d) := by
  have hfound : slaveCsIrqHandler d.pinCs slaveEdges =
      (slaveCsDeselectedProcess transferDoneHandler).zoom (Ports.port d) := by
    unfold slaveCsIrqHandler
    rw [slaveCsInstanceGet_pinCs]
    rfl
  simp only [portsIrqProg, hfound, csEdge, Prog.zoom_bind]

theorem portsProg_none {F : PacketFormat} {n : ℕ} (h : spiPortSlave n = none) (k : SlaveCall) :
    portsProg F (n, k) = pure () := by
  simp only [portsProg, h]

theorem portsProg_some {F : PacketFormat} {n : ℕ} {d : SpiPeriph} (h : spiPortSlave n = some d)
    (k : SlaveCall) : portsProg F (n, k) = (slaveProg F k).zoom (Ports.port d) := by
  simp only [portsProg, h]

/-- The machine of both ports, seen from one. -/
theorem portsMachine_shadowing (F : PacketFormat) (irqOk : SpiPeriph → Irq → Sys → Prop) (d : SpiPeriph) :
    (portsMachine F irqOk).Shadowing (slaveMachine F (irqOk d)) (fun t => t.get d) (portCall d)
      (PortsIrq.of d) where
  call k := by
    obtain ⟨n, k⟩ := k
    show (portsProg F (n, k)).Shows _ _
    unfold portCall
    cases hn : spiPortSlave n with
    | none =>
      rw [portsProg_none hn, if_neg (by rintro ⟨⟩)]
      exact .ret
    | some d' =>
      rw [portsProg_some hn]
      by_cases hd : d' = d
      · subst hd
        rw [if_pos rfl]
        exact Prog.shows_zoom (Ports.port d') _
      · rw [if_neg fun h => hd (Option.some.inj h)]
        exact Prog.shows_zoom_other (fun s t => Ports.get_set_of_ne (Ne.symm hd) t s) _
  irq i := by
    cases i with
    | edge d' e =>
      show (portsIrqProg (.edge d' e)).Shows _ _
      rw [portsIrqProg_edge]
      by_cases hd : d = d'
      · subst hd
        have hof : PortsIrq.of d (.edge d e) = some (.edge e) := if_pos rfl
        rw [hof]
        exact Prog.shows_zoom (Ports.port d) _
      · have hof : PortsIrq.of d (.edge d' e) = none := if_neg hd
        rw [hof]
        exact Prog.shows_zoom_other (fun s t => Ports.get_set_of_ne hd t s) _
    | tick ms => exact Prog.shows_write fun t => by cases d <;> rfl
  callOk _ _ _ _ _ := trivial
  irqOk i i' t hof hi := hi d i' hof

/-- **Each half by itself**: whatever the two halves do between each other's steps, the state of either one
is a state of its `Spi_slave` alone, under its own calls and its own chip-select edges, and it is idle when
the firmware is. -/
theorem port_reached {F : PacketFormat} {irqOk : SpiPeriph → Irq → Sys → Prop} {hw : SpiPeriph → Board}
    {c : Cfg Ports (ℕ × SlaveCall)} (hc : (portsMachine F irqOk).Reach (portsStart F hw) c)
    (d : SpiPeriph) : ∃ c' : Cfg Sys SlaveCall,
      (slaveMachine F (irqOk d)).Reach (slaveStart F (hw d)) c' ∧ c'.st = c.st.get d ∧
      (c.irq = none → c'.irq = none) ∧ c'.main.map Prod.fst = c.main.bind fun m => portCall d m.1 := by
  obtain ⟨c', hreach, hshadow⟩ := hc.shadow (portsMachine_shadowing F irqOk d)
  rw [get_portsStart] at hreach
  refine ⟨c', hreach, hshadow.st, hshadow.noIrq, ?_⟩
  obtain ⟨t, m, q⟩ := c
  cases m with
  | none =>
    rw [hshadow.idle rfl]
    rfl
  | some kp => exact (hshadow.main kp.1 kp.2 rfl).1

/-- Both ports on idle boards. -/
def samplePorts : Ports := portsStart sampleFormat fun _ => ⟨8, true, true, 0⟩

/-- A message for one half arrives while the main loop runs the other, which is addressed as well. -/
def sampleInterleaved : Cfg Ports (ℕ × SlaveCall) :=
  let c := (portsMachine sampleFormat fun _ _ _ => True).play
    [.irq (.edge .spi0 (.of [2, 1])), .call (1, .run ⟨fun _ => [], []⟩), .go 3,
      .irq (.edge .spi0 (.of [4, 3, 7, 9])), .irq (.edge .spi1 (.of [2, 1])), .go 20] (samplePorts, none)
  ⟨c.1, c.2, none⟩

theorem port_reached_interleaved :
    sampleInterleaved.st.spi0.inB.content = [7, 9] ∧
    sampleInterleaved.st.spi1.link.state = .dataReceiving ∧
    ∃ c' : Cfg Sys SlaveCall, (slaveMachine sampleFormat fun _ _ => True).Reach sampleSlave c' ∧
      c'.st = sampleInterleaved.st.spi0 := by
  have hfree := Machine.allowed_of_free (M := portsMachine sampleFormat fun _ _ _ => True)
    (fun _ _ => trivial) fun _ _ _ _ _ => trivial
  have hreach : (portsMachine sampleFormat fun _ _ _ => True).Reach
      (portsStart sampleFormat fun _ => ⟨8, true, true, 0⟩) sampleInterleaved :=
    .play (c := (samplePorts, none)) _ .init (hfree _ _)
  obtain ⟨c', hc', hst, -⟩ := port_reached hreach .spi0
  exact ⟨by decide +kernel, by decide +kernel, c', hc', hst⟩

end NeuronWired
