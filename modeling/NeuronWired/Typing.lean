import NeuronWired.HostState
import NeuronWired.KeyboardDescriptor
import NeuronWired.ReportClass

/-!
# Typing — from a key to the host (`Keyboard.cpp`, `hidDefy.cpp` over TinyUSB)

The keyboard, the queue with the reports of every interface in it, the endpoint and the host in one.  What
the host finds in the packets it takes, cut up by the report descriptor, is what was pressed.
-/

namespace NeuronWired

open Interrupt HidEvent HidDescriptor KeyboardReport

/-! ## The keyboard on the device -/

/-- `Keyboard_`; the calls that have changed the report, those of them that the last `sendReport` has found, and
the reports of all `sendReport`s. -/
structure Typist where
  keyboard : Keyboard
  typed : List KeyCall
  reported : List KeyCall
  stops : List KeyboardReport

/-- A call of `Keyboard_`. -/
inductive TypistCall where
  | key (c : KeyCall)
  | sendReport
  | endKeyboard
  deriving DecidableEq, Repr

namespace Typist

/-- Nothing is pressed, and nothing has been sent. -/
def start : Typist := ⟨⟨.cleared, .cleared⟩, [], [], []⟩

/-- `press`, `release` or `releaseAll`. -/
def key (s : Typist) (c : KeyCall) : Typist :=
  { s with keyboard := s.keyboard.call c, typed := s.typed ++ [c] }

/-- `Keyboard_::sendReport`. -/
def sendReport (s : Typist) : Typist :=
  { s with keyboard := s.keyboard.sendReport.1, reported := s.typed, stops := s.stops ++ [s.keyboard.report] }

/-- The states of the keyboard that a call reports. -/
def states (s : Typist) : TypistCall → List KeyboardReport
  | .key _ => []
  | .sendReport => s.keyboard.sendReport.2
  -- `end` clears the report, but `sendReportUnchecked` sends the last one once more
  | .endKeyboard => [s.keyboard.lastReport]

/-- `Keyboard_` after a call. -/
def call (s : Typist) : TypistCall → Typist
  | .key c => s.key c
  | .sendReport => s.sendReport
  | .endKeyboard => s.key .releaseAll

end Typist

/-- The class `Keyboard_`. -/
def keyboardClass : ReportClass Typist TypistCall where
  id := hidReportidNkroKeyboard
  call c s := (s.call c, (s.states c).map KeyboardReport.allkeys)
  shared := by decide
  numbered := by decide
  fits c s data hdata := by
    obtain ⟨r, -, rfl⟩ := List.mem_map.mp hdata
    rw [length_allkeys]
    decide

/-! ## What the host finds -/

/-- The usages that the host finds in the last packet of the keyboard. -/
def hostUsages (received : List Bytes) : List (ℕ × ℕ) :=
  match (received.filter (fromInterface hidReportidNkroKeyboard)).getLast? with
  | some packet => decode packet.tail keyboardInputs 0
  | none => []

/-- The packet of a report. -/
def KeyboardReport.packet (r : KeyboardReport) : Bytes := hidReportidNkroKeyboard :: r.allkeys

/-- The reports `sent` lead from `old` by way of `stops`, each step in a safe order; a report may be sent
again. -/
inductive Journey : KeyboardReport → List KeyboardReport → List KeyboardReport → Prop where
  | start {old : KeyboardReport} : Journey old [] []
  | go {old : KeyboardReport} {stops sent path : List KeyboardReport} {new : KeyboardReport}
      (h : Journey old stops sent) (hpath : SafePath ((old :: stops).getLast (List.cons_ne_nil _ _)) new path) :
      Journey old (stops ++ [new]) (sent ++ path)
  | again {old : KeyboardReport} {stops sent : List KeyboardReport} (h : Journey old stops sent) :
      Journey old stops (sent ++ [(old :: stops).getLast (List.cons_ne_nil _ _)])

theorem Journey.last {old : KeyboardReport} {stops sent : List KeyboardReport} (h : Journey old stops sent) :
    (old :: sent).getLast (List.cons_ne_nil _ _) = (old :: stops).getLast (List.cons_ne_nil _ _) := by
  induction h with
  | start => rfl
  | @go stops sent path new _ hpath ih =>
    have hnew : (old :: (stops ++ [new])).getLast (List.cons_ne_nil _ _) = new :=
      List.getLast_concat (l := old :: stops)
    rw [hnew, ← hpath.last]
    cases path with
    | nil => simpa using ih
    | cons r path =>
      have hsplit : (old :: (sent ++ r :: path)) = (old :: sent) ++ (r :: path) := rfl
      simp only [hsplit]
      rw [List.getLast_append_of_ne_nil _ (List.cons_ne_nil _ _), List.getLast_cons (List.cons_ne_nil _ _)]
  | again _ _ => exact List.getLast_concat (l := old :: _)

/-! ## The invariant -/

/-- The reports of the keyboard are those of `states`. -/
structure Types (states : List KeyboardReport) (s : Typist) (sent : List Bytes) : Prop where
  sent : sent = states.map KeyboardReport.allkeys
  journey : Journey .cleared s.stops states
  stop : (KeyboardReport.cleared :: s.stops).getLast (List.cons_ne_nil _ _) = s.keyboard.lastReport
  typed : Agrees s.keyboard.report (Run.after held ∅ s.typed)
  reported : Agrees s.keyboard.lastReport (Run.after held ∅ s.reported)

/-- Some states of the keyboard have been sent. -/
def Typing (s : Typist) (sent : List Bytes) : Prop := ∃ states, Types states s sent

theorem lastReport_call (kb : Keyboard) (c : KeyCall) : (kb.call c).lastReport = kb.lastReport := by
  cases c with
  | press k => exact lastReport_press kb k
  | release k => exact lastReport_release kb k
  | releaseAll => rfl

theorem typing_start : Typing .start [] := by
  have hagrees : Agrees .cleared ∅ := fun u hu => by simp [codeBit_cleared hu]
  exact ⟨[], rfl, .start, rfl, hagrees, hagrees⟩

section Calls

variable {s : Typist} {states : List KeyboardReport} {sent : List Bytes}

theorem Types.key (h : Types states s sent) (c : KeyCall) : Types states (s.key c) sent := by
  refine ⟨h.sent, h.journey, ?_, ?_, ?_⟩
  · show _ = (s.keyboard.call c).lastReport
    rw [lastReport_call]
    exact h.stop
  · show Agrees (s.keyboard.call c).report (Run.after held ∅ (s.typed ++ [c]))
    rw [Run.after_append]
    exact agrees_call h.typed c
  · show Agrees (s.keyboard.call c).lastReport _
    rw [lastReport_call]
    exact h.reported

theorem Types.sendReport (h : Types states s sent) :
    Types (states ++ s.keyboard.sendReport.2) s.sendReport
      (sent ++ s.keyboard.sendReport.2.map KeyboardReport.allkeys) := by
  obtain ⟨hpath, hlast, hreport⟩ := sendReport_order s.keyboard
  refine ⟨?_, ?_, ?_, ?_, ?_⟩
  · rw [h.sent, List.map_append]
  · refine h.journey.go ?_
    rw [h.stop]
    exact hpath
  · show (KeyboardReport.cleared :: (s.stops ++ [s.keyboard.report])).getLast _ = s.keyboard.sendReport.1.lastReport
    rw [hlast]
    exact List.getLast_concat (l := .cleared :: s.stops)
  · show Agrees s.keyboard.sendReport.1.report (Run.after held ∅ s.typed)
    rw [hreport]
    exact h.typed
  · show Agrees s.keyboard.sendReport.1.lastReport (Run.after held ∅ s.typed)
    rw [hlast]
    exact h.typed

/-- The last report once more. -/
theorem Types.again (h : Types states s sent) :
    Types (states ++ [s.keyboard.lastReport]) s (sent ++ [s.keyboard.lastReport.allkeys]) := by
  refine ⟨?_, ?_, h.stop, h.typed, h.reported⟩
  · rw [h.sent, List.map_append]
    rfl
  · have hagain := h.journey.again
    rwa [h.stop] at hagain

/-- Every call keeps the invariant. -/
theorem typing_call (c : TypistCall) (s : Typist) (sent : List Bytes) (h : Typing s sent) :
    Typing (keyboardClass.call c s).1 (sent ++ (keyboardClass.call c s).2) := by
  obtain ⟨states, h⟩ := h
  cases c with
  | key c =>
    refine ⟨states, ?_⟩
    show Types states (s.key c) (sent ++ [])
    rw [List.append_nil]
    exact h.key c
  | sendReport => exact ⟨_, h.sendReport⟩
  | endKeyboard =>
    have hlast : (s.key .releaseAll).keyboard.lastReport = s.keyboard.lastReport := lastReport_call _ _
    have hagain := (h.key .releaseAll).again
    rw [hlast] at hagain
    exact ⟨_, hagain⟩

end Calls

/-! ## What the host gets -/

section Host

variable {s : Reporter Typist} {states : List KeyboardReport}

theorem packets_allkeys (states : List KeyboardReport) :
    keyboardClass.packets (states.map KeyboardReport.allkeys) = states.map KeyboardReport.packet :=
  List.map_map

/-- **What the host sees follows what was typed**: while all reports fit and find room in `tx_ff_hid` and the
device stays configured, in every reachable state between calls, the packets of the keyboard that the host has
taken are, in their order and without a new one, reports of a journey by way of the reports of all
`sendReport`s, with every step in the safe order; none is left out as long as `SendReport_` and `SendLastReport`
leave none out. -/
theorem host_follows (buffer : Vector UInt8 hidDepth) (mounted suspended : Bool) (pad : UInt8)
    (stack : Vector UInt8 260)
    (hreach : keyboardClass.machine.Reach (.start .start (.start buffer mounted suspended pad stack))
      ⟨s, none, none⟩) :
    ∃ states, Journey .cleared s.object.stops states ∧
      (s.device.usb.received.filter (fromInterface hidReportidNkroKeyboard)).Sublist
        (states.map KeyboardReport.packet) ∧
      (AllArriveOf hidReportidNkroKeyboard s.device.log →
        s.device.usb.received.filter (fromInterface hidReportidNkroKeyboard) <+:
          states.map KeyboardReport.packet) := by
  have hreports := ReportClass.reach typing_start typing_call hreach
  obtain ⟨states, h⟩ := hreports.2
  obtain ⟨hsub, hprefix⟩ := hreports.received
  rw [h.sent, packets_allkeys] at hsub hprefix
  exact ⟨states, h.journey, hsub, hprefix⟩

/-- The keys that the host finds in the last report. -/
theorem Types.mem_hostUsages {object : Typist} {sent received : List Bytes} (h : Types states object sent)
    (hlast : (received.filter (fromInterface hidReportidNkroKeyboard)).getLast? =
      sent.getLast?.map fun data => hidReportidNkroKeyboard :: data) (page u : ℕ) :
    (page, u) ∈ hostUsages received ↔ page = 7 ∧ Reportable u ∧ u ∈ Run.after held ∅ object.reported := by
  have hcurrent := h.journey.last.trans h.stop
  have hkeys : (page, u) ∈ decoded ⟨object.keyboard.lastReport, object.keyboard.lastReport⟩ ↔
      page = 7 ∧ Reportable u ∧ u ∈ Run.after held ∅ object.reported := by
    rw [mem_decoded]
    refine and_congr_right fun _ => and_congr_right fun hu => ?_
    exact h.reported u (hu.elim (fun h => .inl h.2) .inr)
  rw [← hkeys]
  unfold hostUsages
  rw [hlast, h.sent]
  rcases List.eq_nil_or_concat' states with rfl | ⟨before, r, rfl⟩
  · -- nothing was sent, and nothing is pressed
    rw [← hcurrent]
    refine ⟨fun hf => absurd hf List.not_mem_nil, fun hf => ?_⟩
    obtain ⟨-, hu, hbit⟩ := (mem_decoded ⟨.cleared, .cleared⟩ page u).mp hf
    rw [codeBit_cleared (hu.elim (fun h => .inl h.2) .inr)] at hbit
    exact absurd hbit Bool.noConfusion
  · have hr : object.keyboard.lastReport = r := by
      rw [← hcurrent]
      exact List.getLast_concat (l := KeyboardReport.cleared :: before)
    rw [List.map_append, List.map_singleton, List.getLast?_concat, hr]
    exact Iff.rfl

end Host

/-! ## A key -/

/-- A key is pressed with a modifier, and the first two of the reports are sent. -/
def keyed : List (Act (ReporterCall TypistCall) DeviceEvent) :=
  [.call (.call (.key (.press 4))), .go 3, .call (.call .sendReport), .go 19,
    .call (.call (.key (.press 0xE1))), .go 3, .call (.call (.key (.release 4))), .go 3,
    .call (.call .sendReport), .go 19, .call .sendLastReport, .go 19, .irq .takeTransfer, .irq .tudTask,
    .call .sendLastReport, .go 19, .irq .takeTransfer]

/-- Where that leads. -/
def sampleTypist : Reporter Typist := (keyboardClass.machine.play keyed (.start .start .fresh, none)).1

theorem reach_sampleTypist : keyboardClass.machine.Reach (.start .start .fresh) ⟨sampleTypist, none, none⟩ :=
  ReportClass.reach_play keyed (by decide +kernel) (by decide +kernel)

theorem host_follows_keyed :
    (sampleTypist.device.usb.received.filter (fromInterface hidReportidNkroKeyboard)).length = 2 ∧
    ∃ states, Journey .cleared sampleTypist.object.stops states ∧
      (sampleTypist.device.usb.received.filter (fromInterface hidReportidNkroKeyboard)).Sublist
        (states.map KeyboardReport.packet) ∧
      (AllArriveOf hidReportidNkroKeyboard sampleTypist.device.log →
        sampleTypist.device.usb.received.filter (fromInterface hidReportidNkroKeyboard) <+:
          states.map KeyboardReport.packet) :=
  ⟨by decide +kernel, host_follows _ _ _ _ _ reach_sampleTypist⟩

end NeuronWired
