import NeuronWired.HidFraming
import NeuronWired.Interrupt.Zoom
import NeuronWired.TuFifoQueue
import NeuronWired.UsbHid

/-!
# HidDelivery — reports on their way to the host (`hidDefy.cpp` over TinyUSB)

`SendReport_` and `SendLastReport` once more, with `tx_ff_hid` as the FIFO of the USB stack and with the IN
endpoint behind `usb_hid.sendReport`.  The host takes reports, and `tud_task` runs, at any moment.

The runs are those of one configuration of the device.  A bus reset, an unplugging or a `SET_CONFIGURATION` that
changes the configuration drops the packet that the controller holds and opens the endpoint anew, and a halt by
the host marks it as busy; neither is among the events.
-/

namespace NeuronWired

open Interrupt HidEvent

/-! ## The device -/

/-- `tx_ff_hid`, the endpoint, what else the code finds around it, and what has happened to reports. -/
structure HidDevice where
  txFifo : TuFifo
  usb : UsbHid
  mounted : Bool
  suspended : Bool
  pad : UInt8
  stack : Vector UInt8 260
  log : List HidEvent

namespace HidDevice

/-- The endpoint in the device. -/
def usbLens : Lens HidDevice UsbHid where
  get s := s.usb
  set u s := { s with usb := u }
  get_set _ _ := rfl
  set_get _ := rfl
  set_set _ _ _ := rfl

/-- Something happens to a report. -/
def emit (s : HidDevice) (e : HidEvent) : HidDevice := { s with log := s.log ++ [e] }

/-- `usb_hid.sendReport`, which takes the length as a `uint8_t`. -/
def usbSendReport (id : UInt8) (data : Bytes) (len : ℕ) : Prog HidDevice Bool :=
  (tudHidNReport id (data.take (u8 len))).zoom usbLens

/-- What `SendReport_` does with the mutex. -/
def enqueue (s : HidDevice) (r : HidReport) : HidDevice :=
  let len := u16 r.data.length
  let header := nextReport s.pad r.id len
  let first := (s.txFifo.writeN header header.length).2
  { s with txFifo := (first.writeN (r.data.take len) len).2 }.emit (.enqueued r)

/-- `SendReport_`. -/
def sendReport_ (r : HidReport) : Prog HidDevice Unit := do
  let suspended ← Prog.read fun s => s.suspended
  if suspended = true then
    -- `remoteWakeup`
    Prog.write fun s => s.emit (.dropped r)
  else
    let mounted ← Prog.read fun s => s.mounted
    if mounted = true then
      if r.id = hidReportidMouse then
        let _ ← usbSendReport r.id r.data r.data.length
        pure ()
      else
        Prog.write fun s => s.enqueue r
    else
      Prog.write fun s => s.emit (.dropped r)

/-- The two peeks into `nextReportWithData`. -/
def peekReport (s : HidDevice) : Bytes × HidDevice :=
  let header := s.txFifo.peekN 4
  let first := memcpy s.stack.toList 0 header.1.2
  let whole := header.2.peekN (frameSize first)
  (memcpy first 0 whole.1.2, { s with txFifo := whole.2 })

/-- `tu_fifo_advance_read_pointer` over a report. -/
def removeReport (s : HidDevice) (next : Bytes) (success : Bool) : HidDevice :=
  { s with txFifo := s.txFifo.advanceReadPointer (frameSize next) }.emit (.removed success)

/-- `SendLastReport`. -/
def sendLastReport : Prog HidDevice Bool := do
  let count ← Prog.read fun s => s.txFifo.count
  if count ≠ 0 then
    let next ← Prog.atomic peekReport
    let success ← usbSendReport (reportId next) (next.drop 4) (reportLen next)
    let done ← if success = true then pure true else Prog.read fun s => s.suspended
    if done = true then
      Prog.write fun s => s.removeReport next success
      pure success
    else pure success
  else pure true

end HidDevice

/-- A call of the main loop. -/
inductive DeviceCall where
  | sendReport (r : HidReport)
  | sendLastReport
  deriving DecidableEq, Repr

/-- What happens around the main loop: the host configures the device, which then stays mounted; it suspends or
resumes it; it takes what the controller holds; `tud_task` handles a completion. -/
inductive DeviceEvent where
  | mount
  | surroundings (suspended : Bool) (pad : UInt8) (stack : Vector UInt8 260)
  | takeTransfer
  | tudTask

/-- The program of a call. -/
def DeviceCall.prog : DeviceCall → Prog HidDevice Unit
  | .sendReport r => HidDevice.sendReport_ r
  | .sendLastReport => do
    let _ ← HidDevice.sendLastReport
    pure ()

/-- What an event does. -/
def DeviceEvent.act : DeviceEvent → HidDevice → HidDevice
  | .mount, s => { s with mounted := true }
  | .surroundings suspended pad stack, s => { s with suspended := suspended, pad := pad, stack := stack }
  | .takeTransfer, s => { s with usb := s.usb.takeTransfer }
  | .tudTask, s => { s with usb := s.usb.handleComplete }

/-- The device, with `ok` for the reports that `SendReport` may be called with. -/
def deviceMachine (ok : HidReport → HidDevice → Prop) : Machine HidDevice DeviceCall DeviceEvent where
  call := DeviceCall.prog
  irq e := Prog.write e.act
  callOk
    | .sendReport r, s => ok r s
    | .sendLastReport, _ => True
  irqOk
    | .mount, _ | .surroundings .., _ => True
    | .takeTransfer, s => s.usb.transfer ≠ none
    | .tudTask, s => s.usb.xferComplete = true

/-- Reports with an id that fit the endpoint, the mouse's and, as long as there is room, all others. -/
def FitsEndpoint (r : HidReport) (s : HidDevice) : Prop :=
  r.id ≠ 0 ∧ 1 ≤ r.data.length ∧ r.data.length ≤ 63 ∧
    (r.id ≠ hidReportidMouse → s.txFifo.count + (4 + r.data.length) ≤ hidDepth)

/-- The device after `HID_::begin`. -/
def HidDevice.start (buffer : Vector UInt8 hidDepth) (mounted suspended : Bool) (pad : UInt8)
    (stack : Vector UInt8 260) : HidDevice where
  txFifo := (tuFifoConfig ⟨[], 0, false, 0, 0⟩ buffer.toList hidDepth true).2
  usb := ⟨⟨false, false⟩, List.replicate hidEpBufsize 0, none, false, []⟩
  mounted := mounted
  suspended := suspended
  pad := pad
  stack := stack
  log := []

/-- The reports that `SendReport_` has queued or left out. -/
def submitted (log : List HidEvent) : List HidReport :=
  log.filterMap fun
    | .enqueued r => some r
    | .dropped r => some r
    | _ => none

/-! ## The queue -/

/-- The reports `gone` have left the queue, each with or without success, and `queue` are in it. -/
structure Shelved (f : TuFifo) (log : List HidEvent) (gone : List (HidReport × Bool))
    (queue : List HidReport) : Prop where
  sound : f.Sound
  depth : f.depth = hidDepth
  mode : f.overwritable = true
  stored : Frames f.contents queue
  fits : ∀ r ∈ queue, r.id ≠ 0 ∧ r.id ≠ hidReportidMouse ∧ r.data.length ≤ 63
  queued : HidEvent.queued log = gone.map Prod.fst ++ queue
  removed : removals log = gone.map Prod.snd

section Shelved

variable {f : TuFifo} {log : List HidEvent} {gone : List (HidReport × Bool)} {queue : List HidReport}
  {r : HidReport}

theorem Shelved.dropped (h : Shelved f log gone queue) (r : HidReport) :
    Shelved f (log ++ [.dropped r]) gone queue := by
  refine ⟨h.sound, h.depth, h.mode, h.stored, h.fits, ?_, ?_⟩
  · rw [queued_snoc, ← h.queued]
    exact List.append_nil _
  · rw [removals_snoc, ← h.removed]
    exact List.append_nil _

/-- A write that finds room. -/
theorem writeN_room (data : Bytes) (h : f.Sound) (hdepth : f.depth = hidDepth) (hmode : f.overwritable = true)
    (hroom : f.contents.length + data.length ≤ hidDepth) (hdata : data.length ≠ 0) :
    (f.writeN data data.length).2.Sound ∧ (f.writeN data data.length).2.depth = hidDepth ∧
      (f.writeN data data.length).2.overwritable = true ∧
      (f.writeN data data.length).2.contents = f.contents ++ data := by
  have hlen := h.length_contents
  have hover : ¬ f.Overruns data.length := by
    unfold TuFifo.Overruns
    rw [hdepth] at hlen ⊢
    omega
  obtain ⟨-, hwrote⟩ := h.writeN_overwritable hmode hover
  refine ⟨hwrote.sound, hwrote.depth.trans hdepth, hwrote.mode.trans hmode, ?_⟩
  rw [hwrote.contents, List.length_append, hdepth, Nat.sub_eq_zero_of_le hroom, List.drop_zero]

/-- A report that finds room. -/
theorem Shelved.enqueue {s : HidDevice} (h : Shelved s.txFifo s.log gone queue) (hid : r.id ≠ 0)
    (hmouse : r.id ≠ hidReportidMouse) (hr : 1 ≤ r.data.length) (hle : r.data.length ≤ 63)
    (hroom : s.txFifo.count + (4 + r.data.length) ≤ hidDepth) :
    Shelved (s.enqueue r).txFifo (s.enqueue r).log gone (queue ++ [r]) ∧
      (s.enqueue r).txFifo.count = s.txFifo.count + (4 + r.data.length) := by
  have hlen : u16 (r.data.length : ℤ) = r.data.length := u16_of_lt (by omega)
  have hcount := h.sound.count_eq
  obtain ⟨hsound, hdepth, hmode, hfirst⟩ := writeN_room (nextReport s.pad r.id r.data.length) h.sound
    h.depth h.mode (by rw [length_nextReport]; omega) (by rw [length_nextReport]; omega)
  obtain ⟨hsound', hdepth', hmode', hsecond⟩ := writeN_room r.data hsound hdepth hmode
    (by rw [hfirst, List.length_append, length_nextReport]; omega) (by omega)
  have htxFifo : (s.enqueue r).txFifo = ((s.txFifo.writeN (nextReport s.pad r.id r.data.length)
      (nextReport s.pad r.id r.data.length).length).2.writeN r.data r.data.length).2 := by
    unfold HidDevice.enqueue
    simp only [hlen, List.take_length]
    rfl
  have hlog : (s.enqueue r).log = s.log ++ [.enqueued r] := rfl
  rw [htxFifo, hlog]
  refine ⟨⟨hsound', hdepth', hmode', ?_, ?_, ?_, ?_⟩, ?_⟩
  · rw [hsecond, hfirst, List.append_assoc]
    exact h.stored.snoc ⟨hr, by omega⟩ s.pad
  · intro r' hr'
    rcases List.mem_append.mp hr' with hr' | hr'
    · exact h.fits r' hr'
    · rw [List.mem_singleton.mp hr']
      exact ⟨hid, hmouse, hle⟩
  · rw [queued_snoc, h.queued, List.append_assoc]
    rfl
  · rw [removals_snoc, ← h.removed]
    exact List.append_nil _
  · rw [hsound'.count_eq, hsecond, hfirst, List.length_append, List.length_append, length_nextReport, hcount,
      Nat.add_assoc]

/-- The FIFO with its read index right. -/
theorem Shelved.settle (h : Shelved f log gone queue) :
    Shelved f.settle log gone queue ∧ f.settle.span ≤ f.settle.depth := by
  obtain ⟨hsound, hspan, hcontents⟩ := h.sound.settle
  have hdepth := f.depth_settle
  have hmode : f.settle.overwritable = f.overwritable := by
    unfold TuFifo.settle
    split_ifs <;> rfl
  refine ⟨⟨hsound, hdepth.trans h.depth, hmode.trans h.mode, ?_, h.fits, h.queued, h.removed⟩, by omega⟩
  rw [hcontents]
  exact h.stored

/-- The oldest report leaves the queue. -/
theorem Shelved.remove (h : Shelved f log gone (r :: queue)) (hspan : f.span ≤ f.depth) (pad : UInt8)
    (rest : Bytes) (success : Bool) :
    Shelved (f.advanceReadPointer (frameSize (r.frame pad ++ rest))) (log ++ [.removed success])
      (gone ++ [(r, success)]) queue := by
  obtain ⟨pad', bs, hbytes, hr, hrest⟩ := h.stored.uncons
  have hlen := h.sound.length_contents
  have hframe : frameSize (r.frame pad ++ rest) = (r.frame pad').length := by
    rw [frameSize_frame rest hr, HidReport.length_frame]
  have hle : (r.frame pad').length ≤ f.contents.length := by
    rw [hbytes, List.length_append]
    exact Nat.le_add_right _ _
  obtain ⟨hsound, -, hcontents⟩ := h.sound.advanceReadPointer (n := (r.frame pad').length) hspan (by omega)
  rw [hframe]
  refine ⟨hsound, h.depth, h.mode, ?_, fun r' hr' => h.fits r' (List.mem_cons_of_mem _ hr'), ?_, ?_⟩
  · rw [hcontents, hbytes, List.drop_left]
    exact hrest
  · rw [queued_snoc, h.queued]
    simp [HidEvent.queued]
  · rw [removals_snoc, h.removed, List.map_append]
    rfl

/-- `nextReportWithData` begins with the frame of the oldest report. -/
theorem peekReport_device {s : HidDevice} (h : s.txFifo.Sound) (hstored : Frames s.txFifo.contents (r :: queue)) :
    ∃ pad rest, s.peekReport = (r.frame pad ++ rest, { s with txFifo := s.txFifo.settle }) := by
  obtain ⟨pad, bs, hbytes, hr, -⟩ := hstored.uncons
  obtain ⟨hsettle, hspan, hcontents⟩ := h.settle
  have hle := hr.2
  have hstack : s.stack.toList.length = 260 := Vector.length_toList
  have hagain : s.txFifo.settle.settle = s.txFifo.settle :=
    TuFifo.settle_of_le (by rw [hspan, TuFifo.depth_settle]; omega)
  have hsame : s.txFifo.settle.contents = r.frame pad ++ bs := hcontents.trans hbytes
  have hheader : s.txFifo.peekN 4 =
      ((min 4 s.txFifo.contents.length, nextReport pad r.id r.data.length), s.txFifo.settle) := by
    rw [h.peekN_eq, hbytes]
    rfl
  have hfirst : memcpy s.stack.toList 0 (nextReport pad r.id r.data.length) =
      nextReport pad r.id r.data.length ++ s.stack.toList.drop 4 :=
    memcpy_zero (by rw [hstack, length_nextReport]; omega)
  have hwhole : s.txFifo.settle.peekN (4 + r.data.length) =
      ((min (4 + r.data.length) s.txFifo.settle.contents.length, r.frame pad), s.txFifo.settle) := by
    rw [hsettle.peekN_eq, hagain, hsame, ← HidReport.length_frame r pad, List.take_left]
  have hlen : (nextReport pad r.id r.data.length ++ s.stack.toList.drop 4).length = 260 := by
    rw [List.length_append, List.length_drop, hstack, length_nextReport]
  refine ⟨pad, (nextReport pad r.id r.data.length ++ s.stack.toList.drop 4).drop (r.frame pad).length, ?_⟩
  unfold HidDevice.peekReport
  simp only [hheader, hfirst, frameSize_header _ hr, hwhole]
  refine Prod.ext (memcpy_zero ?_) rfl
  rw [hlen, HidReport.length_frame]
  omega

end Shelved

/-- `SendLastReport` offers the oldest report to the endpoint, and goes on from what that answers. -/
theorem run_deviceSendLastReport {s : HidDevice} (h : s.txFifo.Sound)
    (hstored : Frames s.txFifo.contents (r :: queue)) :
    ∃ pad rest, ∀ {ok : Bool} {u : UsbHid}, (tudHidNReport r.id r.data).run s.usb = (ok, u) →
      HidDevice.sendLastReport.run s = Prog.run (do
        let done ← if ok = true then pure true else Prog.read fun s : HidDevice => s.suspended
        if done = true then
          Prog.write fun s : HidDevice => s.removeReport (r.frame pad ++ rest) ok
          pure ok
        else pure ok) { s with txFifo := s.txFifo.settle, usb := u } := by
  obtain ⟨pad, rest, hpeek⟩ := peekReport_device h hstored
  obtain ⟨-, -, -, hr, -⟩ := hstored.uncons
  refine ⟨pad, rest, fun {ok u} hanswer => ?_⟩
  have hcount : s.txFifo.count ≠ 0 := by
    rw [h.count_eq]
    exact fun hnil => List.cons_ne_nil _ _ (hstored.eq_nil_iff.mp (List.length_eq_zero_iff.mp hnil))
  have hoffered : (⟨reportId (r.frame pad ++ rest), _⟩ : HidReport) = r := offered_frame rest hr
  have hid := congrArg HidReport.id hoffered
  have hdata := congrArg HidReport.data hoffered
  dsimp only at hid hdata
  have hsend : (HidDevice.usbSendReport (reportId (r.frame pad ++ rest)) ((r.frame pad ++ rest).drop 4)
      (reportLen (r.frame pad ++ rest))).run { s with txFifo := s.txFifo.settle } =
      (ok, { s with txFifo := s.txFifo.settle, usb := u }) := by
    unfold HidDevice.usbSendReport
    rw [Prog.run_zoom, hid, hdata]
    show (((tudHidNReport r.id r.data).run s.usb).1, _) = _
    rw [hanswer]
    show (ok, HidDevice.usbLens.set ((tudHidNReport r.id r.data).run s.usb).2 _) = _
    rw [hanswer]
    rfl
  unfold HidDevice.sendLastReport
  rw [Prog.run_bind, Prog.run_read, if_pos hcount, Prog.run_bind, Prog.run_atomic, hpeek, Prog.run_bind_of hsend]

/-- What `SendLastReport` keeps, if the transfer, the peek and the removal do. -/
theorem keeps_deviceSendLastReport {P : HidDevice → Prop}
    (hsend : ∀ id data len, Keeps P (HidDevice.usbSendReport id data len))
    (hpeek : ∀ s f, P s → P { s with txFifo := f })
    (hremove : ∀ s next success, P s → P (s.removeReport next success)) :
    Keeps P HidDevice.sendLastReport := by
  have hwrite : ∀ next success, Keeps P (Prog.write fun s : HidDevice => s.removeReport next success) :=
    fun next success => keeps_write fun s hs => hremove s next success hs
  unfold HidDevice.sendLastReport
  refine Keeps.bind (keeps_read _) fun count => Keeps.ite ?_ (keeps_pure _)
  refine Keeps.bind (keeps_atomic fun s hs => hpeek s _ hs) fun next => Keeps.bind (hsend _ _ _) fun success => ?_
  cases success with
  | true =>
    refine Keeps.bind (keeps_pure true) fun done => ?_
    exact Keeps.ite (Keeps.bind (hwrite _ _) fun _ => keeps_pure _) (keeps_pure _)
  | false =>
    refine Keeps.bind (keeps_read _) fun done => ?_
    exact Keeps.ite (Keeps.bind (hwrite _ _) fun _ => keeps_pure _) (keeps_pure _)

/-! ## The endpoint behind it -/

/-- What an event does to the device. -/
def DeviceMoves (s s' : HidDevice) : Prop :=
  s'.txFifo = s.txFifo ∧ s'.log = s.log ∧ (s'.usb = s.usb ∨ s.usb.Moves s'.usb)

theorem moves_of_rely {ok : HidReport → HidDevice → Prop} {s s' : HidDevice}
    (h : (deviceMachine ok).Rely s s') : DeviceMoves s s' := by
  obtain ⟨e, he, rfl⟩ := h
  cases e with
  | mount => exact ⟨rfl, rfl, .inl rfl⟩
  | surroundings suspended pad stack => exact ⟨rfl, rfl, .inl rfl⟩
  | takeTransfer => exact ⟨rfl, rfl, .inr (.inl ⟨he, rfl⟩)⟩
  | tudTask => exact ⟨rfl, rfl, .inr (.inr ⟨he, rfl⟩)⟩

/-- What depends on the FIFO, the log and the endpoint, and survives what happens to the endpoint. -/
theorem stable_device {P : TuFifo → List HidEvent → UsbHid → Prop}
    (h : ∀ f log, Stable UsbHid.Moves (P f log)) : Stable DeviceMoves fun s => P s.txFifo s.log s.usb := by
  rintro s s' ⟨hfifo, hlog, husb⟩ hs
  show P s'.txFifo s'.log s'.usb
  rw [hfifo, hlog]
  rcases husb with hsame | hmoves
  · rw [hsame]
    exact hs
  · exact h _ _ _ _ hmoves hs

theorem wp_usbSendReport {id : UInt8} {data : Bytes} {len : ℕ} {s : HidDevice} (h : s.usb.Settled) :
    wp DeviceMoves (fun _ => True) (HidDevice.usbSendReport id data len)
      (fun ok t => UsbHid.Answered id (data.take (u8 len)) s.usb.outgoing ok t.usb ∧
        t.txFifo = s.txFifo ∧ t.log = s.log) s := by
  have hframe : ∀ t t', DeviceMoves t t' → t.txFifo = s.txFifo ∧ t.log = s.log →
      Relation.ReflTransGen UsbHid.Moves (HidDevice.usbLens.get t) (HidDevice.usbLens.get t') ∧
        t'.txFifo = s.txFifo ∧ t'.log = s.log := by
    rintro t t' ⟨hfifo, hlog, husb⟩ ⟨hf, hl⟩
    refine ⟨?_, hfifo.trans hf, hlog.trans hl⟩
    rcases husb with hsame | hmoves
    · show Relation.ReflTransGen UsbHid.Moves t.usb t'.usb
      rw [hsame]
    · exact .single hmoves
  exact wp_always_mono (wp_zoom hframe (fun _ _ ht => ht) (wp_tudHidNReport h) ⟨rfl, rfl⟩) fun _ _ => trivial

/-- The packet is a report of the queue. -/
def fromQueue (packet : Bytes) : Bool := packet.head? ≠ some hidReportidMouse

/-- The packets of the reports that left the queue with success. -/
def packets (gone : List (HidReport × Bool)) : List Bytes :=
  (gone.filter Prod.snd).map fun g => wire g.1.id g.1.data

/-- Between two calls: the host has got, or is going to get, what left the queue with success. -/
structure Conveyed (gone : List (HidReport × Bool)) (queue : List HidReport) (f : TuFifo)
    (log : List HidEvent) (u : UsbHid) : Prop where
  shelved : Shelved f log gone queue
  settled : u.Settled
  sent : u.outgoing.filter fromQueue = packets gone

section Conveyed

variable {gone : List (HidReport × Bool)} {queue : List HidReport}

theorem stable_conveyed (f : TuFifo) (log : List HidEvent) :
    Stable UsbHid.Moves (Conveyed gone queue f log) := by
  rintro u u' hm ⟨hshelved, hsettled, hsent⟩
  obtain ⟨hsettled', hsame⟩ := hsettled.moves hm
  exact ⟨hshelved, hsettled', by rw [hsame, hsent]⟩

theorem fromQueue_wire {id : UInt8} {data : Bytes} (hid : id ≠ 0) :
    fromQueue (wire id data) = decide (id ≠ hidReportidMouse) := by
  unfold fromQueue
  rw [wire_of_ne hid, List.head?_cons]
  simp

theorem transferable_of_le {id : UInt8} {data : Bytes} (hle : data.length ≤ 63) : Transferable id data := by
  unfold Transferable wire
  split_ifs
  · exact Nat.succ_le_succ hle
  · exact Nat.le_succ_of_le hle

/-- Some reports have gone, the others are in the queue. -/
def Underway (s : HidDevice) : Prop := ∃ gone queue, Conveyed gone queue s.txFifo s.log s.usb

theorem stable_underway : Stable DeviceMoves Underway :=
  .exists fun _ => .exists fun _ => stable_device fun f log => stable_conveyed f log

/-- A report of the mouse leaves the queue alone, whether it is sent or not. -/
theorem Conveyed.mouse {f : TuFifo} {log : List HidEvent} {u u' : UsbHid} {data : Bytes} {ok : Bool}
    (h : Conveyed gone queue f log u) (hle : data.length ≤ 63)
    (hreported : UsbHid.Answered hidReportidMouse data u.outgoing ok u') : Conveyed gone queue f log u' := by
  cases hreported with
  | sent hsettled _ hout =>
    have hmouse : fromQueue (wire hidReportidMouse data) = false := by
      rw [fromQueue_wire (by decide)]
      rfl
    refine ⟨h.shelved, hsettled, ?_⟩
    rw [hout, List.filter_append, h.sent, List.filter_cons_of_neg (by rw [hmouse]; exact Bool.noConfusion)]
    exact List.append_nil _
  | busy hsettled hout => exact ⟨h.shelved, hsettled, by rw [hout, h.sent]⟩
  | tooLong _ hlong _ => exact absurd (transferable_of_le hle) hlong

/-- What `SendReport_` leaves: the report is submitted, and at most its bytes are new in the queue. -/
structure Submits (r : HidReport) (s t : HidDevice) : Prop where
  underway : Underway t
  count_le : t.txFifo.count ≤ s.txFifo.count + (4 + r.data.length)
  submitted : NeuronWired.submitted t.log = NeuronWired.submitted s.log ++ [r] ∨
    r.id = hidReportidMouse ∧ NeuronWired.submitted t.log = NeuronWired.submitted s.log

theorem stable_submits (r : HidReport) (s : HidDevice) : Stable DeviceMoves (Submits r s) := by
  rintro t t' hm ⟨hunderway, hcount, hsubmitted⟩
  exact ⟨stable_underway t t' hm hunderway, by rw [hm.1]; exact hcount, by rw [hm.2.1]; exact hsubmitted⟩

@[simp] theorem submitted_snoc (log : List HidEvent) (e : HidEvent) :
    submitted (log ++ [e]) = submitted log ++ submitted [e] := List.filterMap_append

theorem wp_deviceSendReport {r : HidReport} {s : HidDevice} (h : Conveyed gone queue s.txFifo s.log s.usb)
    (hr : FitsEndpoint r s) :
    wp DeviceMoves (fun _ => True) (HidDevice.sendReport_ r) (fun _ => Submits r s) s := by
  obtain ⟨hid, hpos, hle, hroom⟩ := hr
  have htrue : ∀ {P : HidDevice → Prop} (t : HidDevice), P t → True := fun _ _ => trivial
  generalize hpre : (fun t : HidDevice => Conveyed gone queue t.txFifo t.log t.usb ∧
    t.txFifo = s.txFifo ∧ t.log = s.log) = Pre
  have hstable : Stable DeviceMoves Pre := hpre ▸ stable_device
    (P := fun f log u => Conveyed gone queue f log u ∧ f = s.txFifo ∧ log = s.log)
    fun f log => (stable_conveyed f log).and fun _ _ _ ht => ht
  have hleft : ∀ t, Pre t →
      wp DeviceMoves (fun _ => True) (Prog.write fun s => s.emit (.dropped r)) (fun _ => Submits r s) t := by
    refine fun t ht => wp_write_last hstable htrue ht (stable_submits r s) htrue fun u hu => ?_
    subst hpre
    obtain ⟨hconveyed, hfifo, hlog⟩ := hu
    refine ⟨⟨gone, queue, hconveyed.shelved.dropped r, hconveyed.settled, hconveyed.sent⟩, ?_, .inl ?_⟩
    · show u.txFifo.count ≤ _
      rw [hfifo]
      exact Nat.le_add_right _ _
    · show submitted (u.log ++ [.dropped r]) = _
      rw [submitted_snoc, hlog]
      rfl
  have hs : Pre s := hpre ▸ ⟨h, rfl, rfl⟩
  unfold HidDevice.sendReport_
  refine wp_read hstable htrue hs fun t ht => ?_
  cases t.suspended with
  | true => exact hleft t ht
  | false =>
    refine wp_read hstable htrue ht fun t ht => ?_
    cases t.mounted with
    | false => exact hleft t ht
    | true =>
      subst hpre
      by_cases hmouse : r.id = hidReportidMouse
      · have hlen : u8 r.data.length = r.data.length := u8_of_lt (by omega)
        rw [if_pos rfl, if_pos hmouse]
        refine wp_bind (wp_mono (wp_usbSendReport ht.1.settled) ?_)
        rintro ok u ⟨hreported, hfifo, hlog⟩
        rw [hlen, List.take_length, hmouse] at hreported
        refine wp_pure (stable_submits r s) htrue ⟨⟨gone, queue, ?_⟩, ?_, .inr ⟨hmouse, ?_⟩⟩
        · rw [hfifo, hlog]
          exact ht.1.mouse hle hreported
        · rw [hfifo, ht.2.1]
          exact Nat.le_add_right _ _
        · rw [hlog, ht.2.2]
      · rw [if_pos rfl, if_neg hmouse]
        refine wp_write_last hstable htrue ht (stable_submits r s) htrue fun u hu => ?_
        obtain ⟨hconveyed, hfifo, hlog⟩ := hu
        obtain ⟨hshelved, hcount⟩ := hconveyed.shelved.enqueue hid hmouse hpos hle (by
          rw [hfifo]
          exact hroom hmouse)
        refine ⟨⟨gone, queue ++ [r], hshelved, hconveyed.settled, hconveyed.sent⟩, ?_, .inl ?_⟩
        · rw [hcount, hfifo]
        · show submitted (u.log ++ [.enqueued r]) = _
          rw [submitted_snoc, hlog]
          rfl

/-- The report at the start of the queue is on its way, or it stays there. -/
theorem Conveyed.handed {f : TuFifo} {log : List HidEvent} {u u' : UsbHid} {r : HidReport} {ok : Bool}
    (h : Conveyed gone (r :: queue) f log u) (hspan : f.span ≤ f.depth) (pad : UInt8) (rest : Bytes)
    (hreported : UsbHid.Answered r.id r.data u.outgoing ok u') :
    Conveyed (gone ++ [(r, ok)]) queue
      (f.advanceReadPointer (frameSize (r.frame pad ++ rest))) (log ++ [.removed ok]) u' := by
  obtain ⟨hid, hmouse, hle⟩ := h.shelved.fits r List.mem_cons_self
  have hpackets : packets (gone ++ [(r, ok)]) = packets gone ++ if ok = true then [wire r.id r.data] else [] := by
    unfold packets
    rw [List.filter_append, List.map_append]
    cases ok <;> rfl
  cases hreported with
  | sent hsettled _ hout =>
    refine ⟨h.shelved.remove hspan pad rest true, hsettled, ?_⟩
    rw [hout, List.filter_append, h.sent, hpackets, if_pos rfl,
      List.filter_cons_of_pos (by rw [fromQueue_wire hid, decide_eq_true hmouse])]
    rfl
  | busy hsettled hout =>
    refine ⟨h.shelved.remove hspan pad rest false, hsettled, ?_⟩
    rw [hout, h.sent, hpackets, if_neg Bool.noConfusion, List.append_nil]
  | tooLong _ hlong _ => exact absurd (transferable_of_le hle) hlong

/-- It stays there as long as the endpoint does not take it. -/
theorem Conveyed.kept {f : TuFifo} {log : List HidEvent} {u u' : UsbHid} {r : HidReport}
    (h : Conveyed gone (r :: queue) f log u) (hreported : UsbHid.Answered r.id r.data u.outgoing false u') :
    Conveyed gone (r :: queue) f log u' := by
  cases hreported with
  | busy hsettled hout => exact ⟨h.shelved, hsettled, by rw [hout, h.sent]⟩
  | tooLong _ hlong _ => exact absurd (transferable_of_le (h.shelved.fits r List.mem_cons_self).2.2) hlong

theorem wp_deviceSendLastReport {s : HidDevice} (h : Conveyed gone queue s.txFifo s.log s.usb) :
    wp DeviceMoves (fun _ => True) HidDevice.sendLastReport (fun _ => Underway) s := by
  have htrue : ∀ {P : HidDevice → Prop} (t : HidDevice), P t → True := fun _ _ => trivial
  have hsame : Stable DeviceMoves fun t => Conveyed gone queue t.txFifo t.log t.usb :=
    stable_device stable_conveyed
  have hdone : ∀ b : Bool, ∀ t, Underway t →
      wp DeviceMoves (fun _ => True) (pure b) (fun _ => Underway) t :=
    fun _ t ht => wp_pure stable_underway htrue ht
  unfold HidDevice.sendLastReport
  refine wp_read hsame htrue h fun t ht => ?_
  by_cases hcount : t.txFifo.count = 0
  · rw [if_neg (not_not.mpr hcount)]
    exact hdone _ t ⟨gone, queue, ht⟩
  have hne : queue ≠ [] := fun hnil => hcount (ht.shelved.sound.count_eq.trans
    (List.length_eq_zero_iff.mpr (ht.shelved.stored.eq_nil_iff.mpr hnil)))
  obtain ⟨r, queue, rfl⟩ := List.exists_cons_of_ne_nil hne
  rw [if_pos hcount]
  refine wp_atomic hsame htrue ht fun t ht => ?_
  obtain ⟨pad, rest, hpeek⟩ := peekReport_device ht.shelved.sound ht.shelved.stored
  obtain ⟨-, -, -, hr, -⟩ := ht.shelved.stored.uncons
  obtain ⟨hshelved, hspan⟩ := ht.shelved.settle
  have hconveyed : Conveyed gone (r :: queue) t.txFifo.settle t.log t.usb := ⟨hshelved, ht.settled, ht.sent⟩
  have hoffered : (⟨reportId (r.frame pad ++ rest), _⟩ : HidReport) = r := offered_frame rest hr
  have hid := congrArg HidReport.id hoffered
  have hdata := congrArg HidReport.data hoffered
  dsimp only at hid hdata
  refine ⟨_, _, hpeek, wp_bind (wp_mono (wp_usbSendReport ht.settled) ?_)⟩
  rintro ok u ⟨hreported, hfifo, hlog⟩
  rw [hid, hdata] at hreported
  -- the answer is there, and the report still in the queue
  have hhanded : Stable DeviceMoves fun v => v.txFifo = t.txFifo.settle ∧ v.log = t.log ∧
      UsbHid.Answered r.id r.data t.usb.outgoing ok v.usb :=
    stable_device (P := fun f log u => f = t.txFifo.settle ∧ log = t.log ∧
      UsbHid.Answered r.id r.data t.usb.outgoing ok u) fun f log =>
        .const_and _ (.const_and _ (stable_answered _ _))
  have hremoved : ∀ v : HidDevice, v.txFifo = t.txFifo.settle ∧ v.log = t.log ∧
      UsbHid.Answered r.id r.data t.usb.outgoing ok v.usb → Underway (v.removeReport (r.frame pad ++ rest) ok) := by
    rintro v ⟨hf, hl, hv⟩
    have hgone := hconveyed.handed hspan pad rest hv
    refine ⟨gone ++ [(r, ok)], queue, ?_⟩
    show Conveyed _ _ (v.txFifo.advanceReadPointer _) (v.log ++ _) v.usb
    rw [hf, hl]
    exact hgone
  cases ok with
  | true => exact wp_write hhanded htrue ⟨hfifo, hlog, hreported⟩ fun v hv => hdone _ _ (hremoved v hv)
  | false =>
    refine wp_read hhanded htrue ⟨hfifo, hlog, hreported⟩ fun v hv => ?_
    cases v.suspended with
    | true => exact wp_write hhanded htrue hv fun w hw => hdone _ _ (hremoved w hw)
    | false =>
      refine hdone _ v ⟨gone, r :: queue, ?_⟩
      rw [hv.1, hv.2.1]
      exact hconveyed.kept hv.2.2

/-- The invariant between the calls. -/
theorem device_outline : (deviceMachine FitsEndpoint).Outline Underway fun _ _ => True := by
  refine ⟨stable_underway.anti fun _ _ => moves_of_rely, fun k s hs hok => ?_⟩
  obtain ⟨gone, queue, h⟩ := hs
  refine wp_anti ?_ fun _ _ => moves_of_rely
  cases k with
  | sendReport r => exact wp_mono (wp_deviceSendReport h hok) fun _ _ ht => ht.underway
  | sendLastReport =>
    exact wp_bind (wp_mono (wp_deviceSendLastReport h) fun _ t ht =>
      wp_pure stable_underway (fun _ _ => trivial) ht)

theorem underway_start (buffer : Vector UInt8 hidDepth) (mounted suspended : Bool) (pad : UInt8)
    (stack : Vector UInt8 260) : Underway (.start buffer mounted suspended pad stack) := by
  obtain ⟨hsound, hdepth, hbytes, hmode⟩ := holds_tuFifoConfig ⟨[], 0, false, 0, 0⟩
    (by decide : 0 < hidDepth) (by decide) (Vector.length_toList : buffer.toList.length = hidDepth) true
  refine ⟨[], [], ⟨hsound, hdepth, hmode.symm, ?_, by simp, rfl, rfl⟩,
    ⟨?_, rfl, fun _ => ⟨rfl, rfl⟩, .inl rfl, fun hbusy => Bool.noConfusion hbusy⟩, rfl⟩
  · show Frames (tuFifoConfig ⟨[], 0, false, 0, 0⟩ buffer.toList hidDepth true).2.contents []
    rw [← hbytes]
    exact .nil
  · exact List.length_replicate

end Conveyed

/-- **Delivery**: while every report has an id and 1 to 63 bytes, every report that is queued finds room in
`tx_ff_hid`, and the device stays configured, in every reachable state between calls, the packets of the queue
that the host has taken, or that the controller holds for it, are the reports that `SendReport` queued, in
their order and each once, without those that are still in the queue and those that `SendLastReport` gave up
while the device was suspended. -/
theorem reports_delivered (buffer : Vector UInt8 hidDepth) (mounted suspended : Bool) (pad : UInt8)
    (stack : Vector UInt8 260) {s : HidDevice}
    (hreach : (deviceMachine FitsEndpoint).Reach (.start buffer mounted suspended pad stack) ⟨s, none, none⟩) :
    ∃ (gone : List (HidReport × Bool)) (queue : List HidReport),
      queued s.log = gone.map Prod.fst ++ queue ∧ Frames s.txFifo.contents queue ∧
      gone.map Prod.snd = removals s.log ∧
      (s.usb.received ++ s.usb.transfer.toList).filter fromQueue = packets gone := by
  obtain ⟨gone, queue, h⟩ := device_outline.idle (underway_start buffer mounted suspended pad stack) hreach
  exact ⟨gone, queue, h.shelved.queued, h.shelved.stored, h.shelved.removed.symm, h.sent⟩

/-- A device that the host listens to. -/
def HidDevice.fresh : HidDevice := .start (Vector.replicate hidDepth 0) true false 0 (Vector.replicate 260 0)

/-- A report is queued and sent, and the host takes it. -/
def typed : List (Act DeviceCall DeviceEvent) :=
  [.call (.sendReport ⟨3, [7, 8]⟩), .go 9, .call .sendLastReport, .go 19, .irq .takeTransfer, .irq .tudTask]

instance (r : HidReport) (s : HidDevice) : Decidable (FitsEndpoint r s) := inferInstanceAs (Decidable (_ ∧ _))

instance {ok : HidReport → HidDevice → Prop} [∀ r s, Decidable (ok r s)] (k : DeviceCall) (s : HidDevice) :
    Decidable ((deviceMachine ok).callOk k s) :=
  match k with
  | .sendReport r => inferInstanceAs (Decidable (ok r s))
  | .sendLastReport => .isTrue trivial

instance {ok : HidReport → HidDevice → Prop} (e : DeviceEvent) (s : HidDevice) :
    Decidable ((deviceMachine ok).irqOk e s) :=
  match e with
  | .mount | .surroundings .. => .isTrue trivial
  | .takeTransfer => inferInstanceAs (Decidable (_ ≠ _))
  | .tudTask => inferInstanceAs (Decidable (_ = _))

theorem reports_delivered_typed :
    ∃ s, (deviceMachine FitsEndpoint).Reach .fresh ⟨s, none, none⟩ ∧ s.usb.received = [[3, 7, 8]] ∧
      ∃ (gone : List (HidReport × Bool)) (queue : List HidReport),
        queued s.log = gone.map Prod.fst ++ queue ∧ Frames s.txFifo.contents queue ∧
        gone.map Prod.snd = removals s.log ∧
        (s.usb.received ++ s.usb.transfer.toList).filter fromQueue = packets gone := by
  have hreach := Machine.Reach.play (M := deviceMachine FitsEndpoint) (c := (HidDevice.fresh, none)) typed .init
    (by decide +kernel)
  have hidle : ((deviceMachine FitsEndpoint).play typed (HidDevice.fresh, none)).2 = none :=
    Option.isNone_iff_eq_none.mp (by decide +kernel)
  rw [hidle] at hreach
  exact ⟨_, hreach, by decide +kernel, reports_delivered _ _ _ _ _ hreach⟩

/-! ## A report that does not fit -/

section TooLong

variable {packets : List Bytes}

/-- The endpoint stays claimed. -/
def Stuck (packets : List Bytes) (s : HidDevice) : Prop := s.usb.Claimed ∧ s.usb.received = packets

theorem keeps_usbSendReport {id : UInt8} {data : Bytes} {len : ℕ} :
    Keeps (Stuck packets) (HidDevice.usbSendReport id data len) :=
  Keeps.zoom (L := HidDevice.usbLens) (keeps_tudHidNReport packets)

theorem keeps_deviceSendReport (r : HidReport) : Keeps (Stuck packets) (HidDevice.sendReport_ r) := by
  have hwrite : ∀ f : HidDevice → HidDevice, (∀ s, (f s).usb = s.usb) →
      Keeps (Stuck packets) (Prog.write f) := by
    refine fun f hf => keeps_write fun s hs => ?_
    unfold Stuck
    rw [hf]
    exact hs
  unfold HidDevice.sendReport_
  refine Keeps.bind (keeps_read _) fun suspended => Keeps.ite (hwrite _ fun _ => rfl) ?_
  refine Keeps.bind (keeps_read _) fun mounted =>
    Keeps.ite (Keeps.ite ?_ (hwrite _ fun _ => rfl)) (hwrite _ fun _ => rfl)
  exact Keeps.bind keeps_usbSendReport fun _ => keeps_pure _

/-- Nothing that happens frees the endpoint. -/
theorem stable_stuck : Stable DeviceMoves (Stuck packets) :=
  stable_device (P := fun _ _ u => u.Claimed ∧ u.received = packets) fun _ _ => UsbHid.stable_claimed

theorem stuck_outline (ok : HidReport → HidDevice → Prop) :
    (deviceMachine ok).Outline (Stuck packets) fun _ => Stuck packets := by
  refine ⟨stable_stuck.anti fun _ _ => moves_of_rely, fun k s hs _ => wp_anti ?_ fun _ _ => moves_of_rely⟩
  cases k with
  | sendReport r => exact wp_frame stable_stuck (keeps_deviceSendReport r) hs
  | sendLastReport =>
    have hkeeps := keeps_deviceSendLastReport (P := Stuck packets) (fun _ _ _ => keeps_usbSendReport)
      (fun _ _ hs => hs) fun _ _ _ hs => hs
    exact wp_frame stable_stuck (Keeps.bind hkeeps fun _ => keeps_pure _) hs

/-- **A report that is too long blocks the endpoint**: `SendLastReport` finds a report of 64 to 255 bytes at the
start of the queue, and from then on, whatever is called, for as long as the device stays configured as it is,
the host gets no report any more. -/
theorem blocked_by_long_report (ok : HidReport → HidDevice → Prop) {s : HidDevice} {r : HidReport}
    {queue : List HidReport} (hsound : s.txFifo.Sound) (hqueue : Frames s.txFifo.contents (r :: queue))
    (hid : r.id ≠ 0) (hlong : 63 < r.data.length) (hsettled : s.usb.Settled)
    (hfree : s.usb.epStatus.busy = false) {c : Cfg HidDevice DeviceCall}
    (hreach : (deviceMachine ok).Reach (HidDevice.sendLastReport.run s).2 c) :
    c.st.usb.received = s.usb.received := by
  have hunfit : ¬ Transferable r.id r.data := by
    unfold Transferable
    rw [wire_of_ne hid, List.length_cons]
    show ¬ r.data.length + 1 ≤ 64
    omega
  obtain ⟨hanswer, hclaimed, hreceived⟩ := run_tudHidNReport_long hsettled hfree hunfit
  obtain ⟨pad, rest, hrun⟩ := run_deviceSendLastReport hsound hqueue
  have hstuck : Stuck s.usb.received (HidDevice.sendLastReport.run s).2 := by
    rw [hrun (Prod.ext hanswer rfl)]
    refine Keeps.run (P := Stuck s.usb.received) (Keeps.bind (keeps_read _) fun done => ?_) ⟨hclaimed, hreceived⟩
    exact Keeps.ite (Keeps.bind (keeps_write fun _ hs => hs) fun _ => keeps_pure _) (keeps_pure _)
  refine (stuck_outline ok).everywhere hstuck (P := Stuck s.usb.received)
    (B := fun t => t.usb.received = s.usb.received) (fun _ hs => hs) (fun _ _ hs => hs) (fun _ hs => hs.2) ?_ hreach
  intro e t ht he
  have hact : (e.act t).usb.received = s.usb.received := by
    cases e with
    | mount => exact ht.2
    | surroundings suspended pad stack => exact ht.2
    | takeTransfer => exact absurd ht.1.transfer he
    | tudTask => exact Bool.noConfusion (ht.1.complete.symm.trans he)
  refine wp_mono (Q := fun _ u => u.usb.received = s.usb.received) ?_ fun _ _ _ => trivial
  refine wp_write_last (P := fun u => u = t) stable_quiet ?_ rfl stable_quiet (fun _ hu => hu) ?_
  · rintro _ rfl
    exact ht.2
  · rintro _ rfl
    exact hact

end TooLong

/-- A report that is one byte too long. -/
def tooLong : HidReport := ⟨3, List.replicate 64 1⟩

/-- It is called again, given up while the device is suspended, and another report is queued after that. -/
def retried : List (Act DeviceCall DeviceEvent) :=
  [.call .sendLastReport, .go 19, .irq (.surroundings true 0 (Vector.replicate 260 0)), .call .sendLastReport,
    .go 19, .irq (.surroundings false 0 (Vector.replicate 260 0)), .call (.sendReport ⟨3, [7, 8]⟩), .go 9,
    .call .sendLastReport, .go 19]

/-- The device that has found it. -/
def HidDevice.blocked : HidDevice := (HidDevice.sendLastReport.run (HidDevice.fresh.enqueue tooLong)).2

theorem blocked_by_long_report_one :
    ((deviceMachine fun _ _ => True).play retried (HidDevice.blocked, none)).1.usb.received =
      (HidDevice.fresh.enqueue tooLong).usb.received := by
  have hbytes : (HidDevice.fresh.enqueue tooLong).txFifo.contents = tooLong.frame 0 ++ [] := by decide +kernel
  have hqueue : Frames (HidDevice.fresh.enqueue tooLong).txFifo.contents [tooLong] := by
    rw [hbytes]
    exact .cons 0 tooLong (by decide) .nil
  have hreach := Machine.Reach.play (M := deviceMachine fun _ _ => True) (c := (HidDevice.blocked, none)) retried
    .init (by decide +kernel)
  dsimp only at hreach
  rw [HidDevice.blocked] at hreach ⊢
  have hblocked := blocked_by_long_report (fun _ _ => True) (s := HidDevice.fresh.enqueue tooLong)
    ⟨by decide +kernel, by decide +kernel, by decide +kernel, by decide +kernel, by decide +kernel⟩ hqueue (by decide)
    (by decide) ⟨by decide +kernel, by decide +kernel, by decide +kernel, .inl (by decide +kernel), by decide +kernel⟩
    (by decide +kernel) hreach
  dsimp only at hblocked
  exact hblocked

end NeuronWired
