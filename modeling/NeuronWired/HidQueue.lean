import NeuronWired.Interrupt.Logic
import NeuronWired.Keyboard
import NeuronWired.Queue.ByteRing
import NeuronWired.Run.Basic

/-!
# HidQueue — the queue of reports in front of the host (`hidDefy.cpp`)

`SendReport_` frames a report by hand, with its id and length in front, and writes it to the byte ring
`tx_ff_hid`; `SendLastReport` takes the oldest frame apart again.
-/

namespace NeuronWired

open Interrupt

/-! ## State -/

/-- `HID_REPORTID_MOUSE`. -/
def hidReportidMouse : UInt8 := 2

/-- The size of `tx_ff_buf_hid`. -/
abbrev hidDepth : ℕ := 8000

/-- A report: its id, and as many bytes as its length says. -/
structure HidReport where
  id : UInt8
  data : Bytes
  deriving DecidableEq, Repr

/-- What the code finds around it and does not decide: `TinyUSBDevice.mounted`, `TinyUSBDevice.suspended`,
the answer of `usb_hid.sendReport`, the byte between the fields of a new `NextReport`, and what is left on
the stack where `nextReportWithData` is. -/
structure Surroundings where
  mounted : Bool
  suspended : Bool
  accepts : Bool
  pad : UInt8
  stack : Vector UInt8 260
  deriving DecidableEq, Repr

/-- What happens to reports. -/
inductive HidEvent where
  /-- `SendReport_` has queued the report. -/
  | enqueued (r : HidReport)
  /-- `SendReport_` has left the report out. -/
  | dropped (r : HidReport)
  /-- A write has taken the place of bytes that were still queued. -/
  | overflowed
  /-- The second peek has copied `n` bytes. -/
  | peeked (n : ℕ)
  /-- `usb_hid.sendReport` was called with the report; and its answer. -/
  | handed (r : HidReport) (success : Bool)
  /-- `SendLastReport` has removed a report, successfully sent or not. -/
  | removed (success : Bool)
  deriving DecidableEq, Repr

/-- `tx_ff_hid`, the keyboard, the surroundings, and what has happened. -/
structure HidState where
  keyboard : Keyboard
  txFifo : Queue.ByteRing hidDepth
  around : Surroundings
  log : List HidEvent

namespace HidState

/-- Something happens. -/
def emit (s : HidState) (e : HidEvent) : HidState := { s with log := s.log ++ [e] }

/-- `tu_fifo_write_n` on `tx_ff_hid`. -/
def writeN (s : HidState) (data : Bytes) : HidState :=
  { s with
    txFifo := s.txFifo.write data
    log := if s.txFifo.count + data.length ≤ hidDepth then s.log else s.log ++ [.overflowed] }

end HidState

/-! ## `SendReport_` -/

/-- The bytes of a `NextReport`. -/
def nextReport (pad id : UInt8) (len : ℕ) : Bytes := [id, pad, UInt8.ofNat len, UInt8.ofNat (len / 256)]

/-- `usb_hid.sendReport`, which takes the length as a `uint8_t`. -/
def usbSendReport (id : UInt8) (data : Bytes) (len : ℕ) : Prog HidState Bool :=
  Prog.atomic fun s =>
    (s.around.accepts, s.emit (.handed ⟨id, data.take (u8 len)⟩ s.around.accepts))

/-- What `SendReport_` does with the mutex. -/
def HidState.enqueue (s : HidState) (r : HidReport) : HidState :=
  let len := u16 r.data.length
  ((s.writeN (nextReport s.around.pad r.id len)).writeN (r.data.take len)).emit (.enqueued r)

/-- `SendReport_`. -/
def sendReport_ (r : HidReport) : Prog HidState Unit := do
  let suspended ← Prog.read fun s => s.around.suspended
  if suspended = true then
    -- `remoteWakeup`
    Prog.write fun s => s.emit (.dropped r)
  else
    let mounted ← Prog.read fun s => s.around.mounted
    if mounted = true then
      if r.id = hidReportidMouse then
        let _ ← usbSendReport r.id r.data r.data.length
        pure ()
      else
        Prog.write fun s => s.enqueue r
    else
      Prog.write fun s => s.emit (.dropped r)

/-! ## `SendLastReport` -/

/-- `nextReportWithData.nextReport.id`. -/
def reportId (next : Bytes) : UInt8 := next.getD 0 0

/-- `nextReportWithData.nextReport.len`. -/
def reportLen (next : Bytes) : ℕ := (next.getD 2 0).toNat + 256 * (next.getD 3 0).toNat

/-- The size of the frame of a report, as `tu_fifo_peek_n` takes it. -/
def frameSize (next : Bytes) : ℕ := u16 ((4 + reportLen next : ℕ) : ℤ)

/-- The two peeks into `nextReportWithData`.  What the second one copies past its end is not kept. -/
def HidState.peekReport (s : HidState) : Bytes × HidState :=
  let first := memcpy s.around.stack.toList 0 (s.txFifo.peek 4)
  let copied := s.txFifo.peek (frameSize first)
  (memcpy first 0 copied, s.emit (.peeked copied.length))

/-- `tu_fifo_advance_read_pointer` over a report. -/
def HidState.removeReport (s : HidState) (next : Bytes) (success : Bool) : HidState :=
  { s with txFifo := s.txFifo.advance (frameSize next) }.emit (.removed success)

/-- `SendLastReport`.  Nothing else reaches the queue while the mutex is held. -/
def sendLastReport : Prog HidState Bool := do
  let count ← Prog.read fun s => s.txFifo.count
  if count ≠ 0 then
    let next ← Prog.atomic HidState.peekReport
    let success ← usbSendReport (reportId next) (next.drop 4) (reportLen next)
    let done ← if success = true then pure true else Prog.read fun s => s.around.suspended
    if done = true then
      Prog.write fun s => s.removeReport next success
      pure success
    else pure success
  else pure true

/-! ## What the log says -/

namespace HidEvent

/-- The reports that were queued. -/
def queued (log : List HidEvent) : List HidReport :=
  log.filterMap fun
    | .enqueued r => some r
    | _ => none

/-- Whether the reports of `SendReport_` were queued or left out. -/
def outcomes (log : List HidEvent) : List Bool :=
  log.filterMap fun
    | .enqueued _ => some true
    | .dropped _ => some false
    | _ => none

/-- The reports that `usb_hid.sendReport` was called with. -/
def offered (log : List HidEvent) : List HidReport :=
  log.filterMap fun
    | .handed r _ => some r
    | _ => none

/-- The reports that `usb_hid.sendReport` has accepted. -/
def accepted (log : List HidEvent) : List HidReport :=
  log.filterMap fun
    | .handed r true => some r
    | _ => none

/-- The numbers of bytes that the second peek has copied. -/
def peeks (log : List HidEvent) : List ℕ :=
  log.filterMap fun
    | .peeked n => some n
    | _ => none

/-- Whether the reports that left the queue had been sent. -/
def removals (log : List HidEvent) : List Bool :=
  log.filterMap fun
    | .removed success => some success
    | _ => none

end HidEvent

end NeuronWired
