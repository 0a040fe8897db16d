import NeuronWired.HidFraming
import NeuronWired.Mouse

/-!
# MouseReports — the mouse buttons that the host sees (`Mouse.cpp`, `hidDefy.cpp`)

`SendReport_` hands a mouse report straight to `usb_hid.sendReport` and does not look at its answer, while
`sendReport` stores the button byte as sent.  The queue that offers a report again is for the others.
-/

namespace NeuronWired

open Interrupt HidEvent

/-! ## Calls -/

/-- `Mouse`, and the HID object that it sends through. -/
structure MouseDesk where
  mouse : Mouse
  hid : HidState

/-- `sendReportUnchecked`. -/
def mouseSendReportUnchecked (r : MouseReport) : Prog HidState Unit := sendReport_ ⟨hidReportidMouse, r.bytes⟩

/-- A call; for `sendReport`, whether the IN endpoint is free. -/
inductive MouseUse where
  | press (b : UInt8)
  | release (b : UInt8)
  | move (x y vWheel hWheel : Int8)
  | sendReport (free : Bool)
  deriving DecidableEq, Repr

namespace MouseDesk

/-- The endpoint is found free or busy. -/
def endpoint (d : MouseDesk) (free : Bool) : HidState := { d.hid with around.accepts := free }

/-- A call. -/
def use (d : MouseDesk) : MouseUse → MouseDesk
  | .press b => { d with mouse := d.mouse.press b }
  | .release b => { d with mouse := d.mouse.release b }
  | .move x y vWheel hWheel => { d with mouse := d.mouse.move x y vWheel hWheel }
  | .sendReport free =>
    { mouse := d.mouse.sendReport.1
      hid := d.mouse.sendReport.2.foldl (fun s r => ((mouseSendReportUnchecked r).run s).2) (d.endpoint free) }

/-- A mounted device that is not suspended, before its first report. -/
def start (kb : Keyboard) (w : Surroundings) : MouseDesk where
  mouse := .initial
  hid := .start kb { w with mounted := true, suspended := false }

/-- The button byte of the last mouse report that was transmitted. -/
def hostButtons (log : List HidEvent) : UInt8 :=
  match ((accepted log).filter fun r => r.id = hidReportidMouse).getLast? with
  | some r => r.data.headD 0
  | none => 0

/-- Where `sendReport` finds nothing to send, the host has the pending buttons. -/
def NeverSticks (d : MouseDesk) : MouseUse → Prop
  | .sendReport _ => ¬ d.mouse.Changed → hostButtons d.hid.log = d.mouse.report.buttons
  | _ => True

/-- A report that is due finds the endpoint free, or offers the buttons that the host has. -/
def Delivered (d : MouseDesk) : MouseUse → Prop
  | .sendReport free =>
    d.mouse.Changed → free = true ∨ hostButtons d.hid.log = d.mouse.report.buttons
  | _ => True

instance (d : MouseDesk) (c : MouseUse) : Decidable (d.NeverSticks c) := by
  cases c <;> unfold NeverSticks <;> infer_instance

instance (d : MouseDesk) (c : MouseUse) : Decidable (d.Delivered c) := by
  cases c <;> unfold Delivered <;> infer_instance

/-! ## What a report does -/

/-- The device can send. -/
def Live (d : MouseDesk) : Prop := d.hid.around.mounted = true ∧ d.hid.around.suspended = false

/-- A mouse report is handed over, whatever comes of it. -/
theorem run_mouseSendReportUnchecked (r : MouseReport) {s : HidState} (hmounted : s.around.mounted = true)
    (hsuspended : s.around.suspended = false) :
    (mouseSendReportUnchecked r).run s = ((), s.emit (.handed ⟨hidReportidMouse, r.bytes⟩ s.around.accepts)) := by
  unfold mouseSendReportUnchecked sendReport_
  rw [Prog.run_bind, Prog.run_read]
  simp only [hsuspended, Bool.false_eq_true, if_false]
  rw [Prog.run_bind, Prog.run_read]
  simp only [hmounted, if_true]
  rfl

/-- A report that is transmitted is what the host has; another leaves it as it was. -/
theorem hostButtons_handed (log : List HidEvent) (r : MouseReport) (free : Bool) :
    hostButtons (log ++ [.handed ⟨hidReportidMouse, r.bytes⟩ free]) =
      if free = true then r.buttons else hostButtons log := by
  unfold hostButtons
  rw [accepted_snoc]
  cases free
  · rw [show accepted [.handed ⟨hidReportidMouse, r.bytes⟩ false] = [] from rfl, List.append_nil]
    rfl
  · rw [show accepted [.handed ⟨hidReportidMouse, r.bytes⟩ true] = [⟨hidReportidMouse, r.bytes⟩] from rfl,
      List.filter_append, List.filter_cons_of_pos (by simp), List.filter_nil, List.getLast?_concat]
    rfl

section Steps

variable {d : MouseDesk}

/-- `sendReport` with nothing to send. -/
theorem use_sendReport_quiet (hquiet : ¬ d.mouse.Changed) (free : Bool) :
    (d.use (.sendReport free)).hid = d.endpoint free := by
  unfold use Mouse.sendReport
  rw [if_neg hquiet]
  rfl

/-- `sendReport` with a report that is due. -/
theorem use_sendReport_due (h : d.Live) (hchanged : d.mouse.Changed) (free : Bool) :
    (d.use (.sendReport free)).hid =
      (d.endpoint free).emit (.handed ⟨hidReportidMouse, d.mouse.report.bytes⟩ free) := by
  unfold use Mouse.sendReport
  rw [if_pos hchanged]
  simp only [List.foldl_cons, List.foldl_nil]
  rw [run_mouseSendReportUnchecked _ (s := d.endpoint free) h.1 h.2]
  rfl

/-- What the host has after `sendReport`. -/
theorem hostButtons_sendReport (h : d.Live) (free : Bool) :
    hostButtons (d.use (.sendReport free)).hid.log =
      if d.mouse.Changed ∧ free = true then d.mouse.report.buttons else hostButtons d.hid.log := by
  by_cases hchanged : d.mouse.Changed
  · rw [use_sendReport_due h hchanged free]
    simp only [hchanged, true_and]
    exact hostButtons_handed d.hid.log d.mouse.report free
  · rw [use_sendReport_quiet hchanged free, if_neg fun hsent => hchanged hsent.1]
    rfl

theorem live_sendReport (h : d.Live) (free : Bool) : (d.use (.sendReport free)).Live := by
  unfold Live
  by_cases hchanged : d.mouse.Changed
  · rw [use_sendReport_due h hchanged free]
    exact h
  · rw [use_sendReport_quiet hchanged free]
    exact h

theorem mouse_sendReport (d : MouseDesk) (free : Bool) : (d.use (.sendReport free)).mouse =
    { d.mouse with prevReportButtons := d.mouse.report.buttons } :=
  d.mouse.sendReport_fst

/-- The detector of changes compares with what the host has. -/
structure InStep (d : MouseDesk) : Prop where
  live : d.Live
  agree : d.mouse.prevReportButtons = hostButtons d.hid.log

theorem inStep_start (kb : Keyboard) (w : Surroundings) : (start kb w).InStep := ⟨⟨rfl, rfl⟩, rfl⟩

/-- Only a change of the buttons that is due and not delivered parts the two. -/
theorem inStep_use (h : d.InStep) {c : MouseUse} (hdelivered : d.Delivered c) : (d.use c).InStep := by
  cases c with
  | press b => exact ⟨h.live, h.agree⟩
  | release b => exact ⟨h.live, h.agree⟩
  | move x y vWheel hWheel => exact ⟨h.live, h.agree⟩
  | sendReport free =>
    refine ⟨live_sendReport h.live free, ?_⟩
    rw [mouse_sendReport, hostButtons_sendReport h.live]
    show d.mouse.report.buttons = _
    split_ifs with hsent
    · rfl
    · by_cases hchanged : d.mouse.Changed
      · exact ((hdelivered hchanged).resolve_left fun hfree => hsent ⟨hchanged, hfree⟩).symm
      · rw [← h.agree]
        exact by_contra fun hne => hchanged (Or.inl hne)

theorem neverSticks_of_inStep (h : d.InStep) (c : MouseUse) : d.NeverSticks c := by
  cases c with
  | press b => trivial
  | release b => trivial
  | move x y vWheel hWheel => trivial
  | sendReport free =>
    intro hchanged
    rw [← h.agree]
    exact (by_contra fun hne => hchanged (Or.inl hne) : d.mouse.report.buttons = d.mouse.prevReportButtons).symm

/-- A report that is due and gets lost is not sent again: the next call that moves nothing finds nothing to
send. -/
theorem sticks_of_not_delivered (h : d.Live) {c : MouseUse} (hlost : ¬ d.Delivered c) (free : Bool) :
    ¬ ((d.use c).use (.move 0 0 0 0)).NeverSticks (.sendReport free) := by
  cases c with
  | press b => exact absurd trivial hlost
  | release b => exact absurd trivial hlost
  | move x y vWheel hWheel => exact absurd trivial hlost
  | sendReport found =>
    obtain ⟨hchanged, hrest⟩ := Classical.not_imp.mp hlost
    obtain ⟨hbusy, hother⟩ := not_or.mp hrest
    have hhost := hostButtons_sendReport h found
    rw [if_neg fun hsent => hbusy hsent.2] at hhost
    intro hnever
    have hquiet : ¬ ((d.use (.sendReport found)).use (.move 0 0 0 0)).mouse.Changed := by
      show ¬ ((d.use (.sendReport found)).mouse.move 0 0 0 0).Changed
      rw [mouse_sendReport]
      simp [Mouse.Changed, Mouse.move]
    have hstuck := hnever hquiet
    rw [show ((d.use (.sendReport found)).use (.move 0 0 0 0)).hid = (d.use (.sendReport found)).hid from rfl,
      hhost] at hstuck
    refine hother (hstuck.trans ?_)
    show ((d.use (.sendReport found)).mouse.move 0 0 0 0).report.buttons = _
    rw [mouse_sendReport]
    rfl

end Steps

/-! ## Runs -/

theorem inStep_run {d : MouseDesk} {l : List MouseUse} (hl : Run.Along use Delivered d l) (h : d.InStep) :
    (Run.after use d l).InStep :=
  hl.invariant h fun _ _ hin hdelivered => inStep_use hin hdelivered

/-- **Buttons that stick.**  As long as every report that is due finds the endpoint free, or offers the
buttons that the host has, the host has the pending buttons whenever nothing is left to send; and after any
such run, a report that is lost leaves the host behind, with nothing to send. -/
theorem neverSticks_of_delivered (kb : Keyboard) (w : Surroundings) (l : List MouseUse)
    (hl : Run.Along use Delivered (start kb w) l) :
    Run.Along use NeverSticks (start kb w) l ∧
      ∀ c, ¬ (Run.after use (start kb w) l).Delivered c → ∀ free,
        ¬ Run.Along use NeverSticks (start kb w) (l ++ [c, .move 0 0 0 0, .sendReport free]) := by
  constructor
  · exact hl.mono_invariant (inStep_start kb w) (fun _ _ hin hdelivered => inStep_use hin hdelivered)
      fun _ c hin _ => neverSticks_of_inStep hin c
  · intro c hlost free hall
    have hrest := (Run.along_append.mp hall).2
    exact sticks_of_not_delivered (inStep_run hl (inStep_start kb w)).live hlost free hrest.2.2.1

/-- The left button is pressed and the report finds the endpoint free. -/
theorem neverSticks_of_delivered_press :
    Run.Along use NeverSticks (start ⟨.cleared, .cleared⟩ listening) [.press 1, .sendReport true] ∧
      ∀ c, ¬ (Run.after use (start ⟨.cleared, .cleared⟩ listening)
          [.press 1, .sendReport true]).Delivered c → ∀ free,
        ¬ Run.Along use NeverSticks (start ⟨.cleared, .cleared⟩ listening)
          ([.press 1, .sendReport true] ++ [c, .move 0 0 0 0, .sendReport free]) :=
  neverSticks_of_delivered _ _ _ ⟨trivial, fun _ => Or.inl rfl, trivial⟩

/-- The button is pressed, its report finds the endpoint busy, and no later call has anything to send. -/
theorem busy_press_is_lost : ∃ kb w l, ¬ Run.Along use NeverSticks (start kb w) l :=
  ⟨⟨.cleared, .cleared⟩, listening, [.press 1, .sendReport false, .sendReport true], by decide⟩

end MouseDesk

end NeuronWired
