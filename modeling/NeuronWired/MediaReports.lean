import NeuronWired.ReportClass
import NeuronWired.ReportDescriptor
import Mathlib.Data.List.Destutter

/-!
# MediaReports — media and system keys to the host (`ConsumerControl.cpp`, `SystemControl.cpp`)

`ConsumerControl_` has four slots and sends a report when it differs from the last one; `SystemControl_` sends a
key as soon as it goes down.  Both share the queue with all others.
-/

namespace NeuronWired

open Interrupt HidDescriptor

/-- The active controls that the host finds in the last packet of an interface. -/
def hostReadings (id : UInt8) (received : List Bytes) : List Reading :=
  match (received.filter (fromInterface id)).getLast? with
  | some packet => readingsBy hidDefyReportDescriptor id packet.tail
  | none => []

/-- The active controls that the host finds in the last of some reports. -/
def lastReadings (id : UInt8) (sent : List Bytes) : List Reading :=
  match sent.getLast? with
  | some data => readingsBy hidDefyReportDescriptor id data
  | none => []

theorem lastReadings_concat (id : UInt8) (sent : List Bytes) (data : Bytes) :
    lastReadings id (sent ++ [data]) = readingsBy hidDefyReportDescriptor id data := by
  unfold lastReadings
  rw [List.getLast?_concat]

theorem hostReadings_of_last {id : UInt8} {received sent : List Bytes}
    (h : (received.filter (fromInterface id)).getLast? = sent.getLast?.map fun data => id :: data) :
    hostReadings id received = lastReadings id sent := by
  unfold hostReadings lastReadings
  rw [h]
  cases sent.getLast? with
  | none => rfl
  | some data => simp only [Option.map_some, List.tail_cons]

/-! ## Four slots -/

/-- The presses that hold a slot. -/
def fourSlots (taken : List UInt16) : ConsumerCall → List UInt16
  | .press m => if m ≠ 0 ∧ taken.length < 4 then m :: taken else taken
  | .release m => taken.filter (· ≠ m)
  | .releaseAll => []

namespace ConsumerControl

/-- No slot is taken. -/
def cleared : ConsumerControl := ⟨Vector.replicate 4 0⟩

/-- A call that changes the report. -/
def call (c : ConsumerControl) : ConsumerCall → ConsumerControl
  | .press m => c.press m
  | .release m => c.release m
  | .releaseAll => c.releaseAll

variable {c : ConsumerControl} {taken : List UInt16}

theorem length_bytes (c : ConsumerControl) : c.bytes.length = 8 := by
  have hwords : ∀ words : List UInt16, (wordBytes words).length = 2 * words.length := by
    intro words
    induction words with
    | nil => rfl
    | cons w words ih =>
      rw [wordBytes, List.flatMap_cons, List.length_append, ← wordBytes, ih, List.length_cons]
      simp only [List.length_cons, List.length_nil]
      omega
  rw [bytes, hwords, Vector.length_toList]

theorem length_used_lt (h : 0 ∈ c.keys.toList) : c.used.length < 4 := by
  have hlt : c.used.length < c.keys.toList.length :=
    List.length_filter_lt_length_iff_exists.mpr ⟨0, h, by simp⟩
  rwa [Vector.length_toList] at hlt

/-- A zero in the place of a zero. -/
theorem press_zero (h : 0 ∈ c.keys.toList) : c.press 0 = c := by
  obtain ⟨i, hi, hzero⟩ := exists_find h
  unfold press
  rw [hi]
  show (⟨c.keys.set i 0⟩ : ConsumerControl) = c
  have hset : c.keys.set i 0 = c.keys := by
    rw [← hzero]
    exact Vector.set_getElem_self i.isLt
  rw [hset]

/-- A call does to the slots that are taken what it does to the presses. -/
theorem used_call (h : c.used.Perm taken) (k : ConsumerCall) : (c.call k).used.Perm (fourSlots taken k) := by
  cases k with
  | press m =>
    show (c.press m).used.Perm (if m ≠ 0 ∧ taken.length < 4 then m :: taken else taken)
    by_cases hfree : 0 ∈ c.keys.toList
    · have hlt : taken.length < 4 := h.length_eq ▸ length_used_lt hfree
      by_cases hm : m = 0
      · rw [hm, press_zero hfree, if_neg fun hf => hf.1 rfl]
        exact h
      · rw [if_pos ⟨hm, hlt⟩]
        exact (used_press hfree hm).trans (h.cons m)
    · have hlen : taken.length = 4 := h.length_eq ▸ length_used_full hfree
      rw [press_full hfree, if_neg fun hf => absurd hf.2 (by omega)]
      exact h
  | release m =>
    show (c.release m).used.Perm (taken.filter (· ≠ m))
    rw [used_release]
    exact h.filter _
  | releaseAll => exact List.Perm.refl _

theorem used_cleared : cleared.used.Perm [] := List.Perm.refl _

/-- What the descriptor lists of the slots. -/
theorem listed_eq (c : ConsumerControl) :
    c.listed = (c.used.filter fun m => m.toNat ≤ 0x3FF).map fun m => ⟨0x0C, m.toNat, 1⟩ := by
  have hlist : ∀ l : List UInt16,
      (l.filterMap fun key => if key.toNat ≠ 0 ∧ key.toNat ≤ 0x3FF then
        some (⟨0x0C, key.toNat, 1⟩ : Reading) else none) =
      ((l.filter (· ≠ 0)).filter fun m => m.toNat ≤ 0x3FF).map fun m => ⟨0x0C, m.toNat, 1⟩ := by
    intro l
    induction l with
    | nil => rfl
    | cons key l ih =>
      have hzero : key.toNat ≠ 0 ↔ key ≠ 0 := not_congr (UInt16.toNat_inj (b := 0))
      rw [List.filterMap_cons, ih]
      by_cases hkey : key = 0
      · rw [if_neg fun hf => hzero.mp hf.1 hkey, List.filter_cons_of_neg (by simpa using hkey)]
      · rw [List.filter_cons_of_pos (by simpa using hkey)]
        by_cases hle : key.toNat ≤ 0x3FF
        · rw [if_pos ⟨hzero.mpr hkey, hle⟩, List.filter_cons_of_pos (by simpa using hle)]
          rfl
        · rw [if_neg fun hf => hle hf.2, List.filter_cons_of_neg (by simpa using hle)]
  exact hlist c.keys.toList

end ConsumerControl

/-! ## The media keys on the device -/

/-- `ConsumerControl_`; the calls that have changed the report, those of them that the last `sendReport` has
found, and the reports that all `sendReport`s have found. -/
structure MediaTypist where
  report : ConsumerControl
  lastReport : ConsumerControl
  typed : List ConsumerCall
  reported : List ConsumerCall
  stops : List ConsumerControl

/-- A call of `ConsumerControl_`. -/
inductive MediaCall where
  | key (c : ConsumerCall)
  | write (m : UInt16)
  | sendReport
  | endControl
  deriving DecidableEq, Repr

namespace MediaTypist

/-- No key is down. -/
def start : MediaTypist := ⟨.cleared, .cleared, [], [], []⟩

/-- `press`, `release` or `releaseAll`. -/
def key (s : MediaTypist) (c : ConsumerCall) : MediaTypist :=
  { s with report := s.report.call c, typed := s.typed ++ [c] }

/-- `sendReport`, which returns early when the report has not changed. -/
def sendReport (s : MediaTypist) : MediaTypist × List ConsumerControl :=
  let found := { s with reported := s.typed, stops := s.stops ++ [s.report] }
  if s.lastReport = s.report then (found, []) else ({ found with lastReport := s.report }, [s.report])

/-- `ConsumerControl_` after a call, and the reports that the call sends. -/
def call (s : MediaTypist) : MediaCall → MediaTypist × List ConsumerControl
  | .key c => (s.key c, [])
  | .write m => ((s.key (.press m)).key (.release m), [])
  | .sendReport => s.sendReport
  | .endControl => (s.key .releaseAll).sendReport

end MediaTypist

/-- The class `ConsumerControl_`. -/
def consumerControlClass : ReportClass MediaTypist MediaCall where
  id := hidReportidConsumercontrol
  call c s := ((s.call c).1, (s.call c).2.map ConsumerControl.bytes)
  shared := by decide
  numbered := by decide
  fits c s data hdata := by
    obtain ⟨r, -, rfl⟩ := List.mem_map.mp hdata
    rw [ConsumerControl.length_bytes]
    decide

/-- What has been sent are the changes from one `sendReport` to the next. -/
structure Plays (states : List ConsumerControl) (s : MediaTypist) (sent : List Bytes) : Prop where
  sent : sent = states.map ConsumerControl.bytes
  changes : s.stops.destutter' (· ≠ ·) .cleared = .cleared :: states
  last : (ConsumerControl.cleared :: states).getLast (List.cons_ne_nil _ _) = s.lastReport
  typed : s.report.used.Perm (Run.after fourSlots [] s.typed)
  reported : s.lastReport.used.Perm (Run.after fourSlots [] s.reported)

/-- Some states of the media keys have been sent. -/
def Playing (s : MediaTypist) (sent : List Bytes) : Prop := ∃ states, Plays states s sent

/-- One value more is a change if it is not the last one. -/
theorem destutter'_concat {α : Type} [DecidableEq α] {a last : α} {l : List α}
    (h : (l.destutter' (· ≠ ·) a).getLast? = some last) (x : α) :
    (l ++ [x]).destutter' (· ≠ ·) a = l.destutter' (· ≠ ·) a ++ if last = x then [] else [x] := by
  induction l generalizing a with
  | nil =>
    obtain rfl : a = last := Option.some.inj h
    by_cases hx : a = x
    · simp [hx]
    · simp [hx]
  | cons b l ih =>
    by_cases hab : a ≠ b
    · rw [List.destutter'_cons_pos (h := hab)] at h ⊢
      rw [List.getLast?_cons_of_ne_nil (List.destutter'_ne_nil _ _)] at h
      rw [List.cons_append, List.destutter'_cons_pos (h := hab), ih h, List.cons_append]
    · rw [List.destutter'_cons_neg (h := hab)] at h ⊢
      rw [List.cons_append, List.destutter'_cons_neg (h := hab), ih h]

section Calls

variable {s : MediaTypist} {states : List ConsumerControl} {sent : List Bytes}

theorem playing_start : Playing .start [] :=
  ⟨[], rfl, rfl, rfl, ConsumerControl.used_cleared, ConsumerControl.used_cleared⟩

theorem Plays.key (h : Plays states s sent) (c : ConsumerCall) : Plays states (s.key c) sent := by
  refine ⟨h.sent, h.changes, h.last, ?_, h.reported⟩
  show (s.report.call c).used.Perm (Run.after fourSlots [] (s.typed ++ [c]))
  rw [Run.after_append]
  exact ConsumerControl.used_call h.typed c

theorem Plays.sendReport (h : Plays states s sent) :
    Plays (states ++ s.sendReport.2) s.sendReport.1 (sent ++ s.sendReport.2.map ConsumerControl.bytes) := by
  have hnext : (s.stops ++ [s.report]).destutter' (· ≠ ·) .cleared =
      .cleared :: states ++ if s.lastReport = s.report then [] else [s.report] := by
    have hlast : (s.stops.destutter' (· ≠ ·) .cleared).getLast? = some s.lastReport := by
      rw [h.changes, ← h.last]
      exact List.getLast?_eq_some_getLast _
    rw [destutter'_concat hlast, h.changes]
  unfold MediaTypist.sendReport
  by_cases hsame : s.lastReport = s.report
  · rw [if_pos hsame] at hnext ⊢
    rw [List.append_nil, List.map_nil, List.append_nil]
    rw [List.append_nil] at hnext
    refine ⟨h.sent, hnext, h.last, h.typed, ?_⟩
    show s.lastReport.used.Perm _
    rw [hsame]
    exact h.typed
  · rw [if_neg hsame] at hnext ⊢
    refine ⟨?_, hnext, ?_, h.typed, h.typed⟩
    · rw [h.sent, List.map_append]
    · exact List.getLast_concat (l := .cleared :: states)

/-- Every call keeps the invariant. -/
theorem playing_call (c : MediaCall) (s : MediaTypist) (sent : List Bytes) (h : Playing s sent) :
    Playing (consumerControlClass.call c s).1 (sent ++ (consumerControlClass.call c s).2) := by
  obtain ⟨states, h⟩ := h
  have hnone : sent ++ List.map ConsumerControl.bytes [] = sent := List.append_nil sent
  cases c with
  | key c => exact ⟨states, hnone.symm ▸ h.key c⟩
  | write m => exact ⟨states, hnone.symm ▸ (h.key (.press m)).key (.release m)⟩
  | sendReport => exact ⟨_, h.sendReport⟩
  | endControl => exact ⟨_, (h.key .releaseAll).sendReport⟩

end Calls

section Host

variable {s : Reporter MediaTypist}

/-- **The host gets the changes of the media keys**: while all reports fit and find room in `tx_ff_hid` and the
device stays configured, in every reachable state between calls, the packets that the host has taken are, in
their order, the changes among the reports that `sendReport` has found, and all of them so far if all arrive. -/
theorem media_follows (buffer : Vector UInt8 hidDepth) (mounted suspended : Bool) (pad : UInt8)
    (stack : Vector UInt8 260)
    (hreach : consumerControlClass.machine.Reach (.start .start (.start buffer mounted suspended pad stack))
      ⟨s, none, none⟩) :
    ∃ states, s.object.stops.destutter' (· ≠ ·) .cleared = .cleared :: states ∧
      (s.device.usb.received.filter (fromInterface hidReportidConsumercontrol)).Sublist
        (consumerControlClass.packets (states.map ConsumerControl.bytes)) ∧
      (AllArriveOf hidReportidConsumercontrol s.device.log →
        s.device.usb.received.filter (fromInterface hidReportidConsumercontrol) <+:
          consumerControlClass.packets (states.map ConsumerControl.bytes)) := by
  have hreports := ReportClass.reach playing_start playing_call hreach
  obtain ⟨states, h⟩ := hreports.2
  obtain ⟨hsub, hprefix⟩ := hreports.received
  rw [h.sent] at hsub hprefix
  exact ⟨states, h.changes, hsub, hprefix⟩

theorem readings_consumer (c : ConsumerControl) :
    readingsBy hidDefyReportDescriptor hidReportidConsumercontrol c.bytes = c.listed := by
  unfold readingsBy
  rw [inputsOf_consumer, readings_cons, readings_nil, List.append_nil, readings_slots]

/-- What the host finds in the last report. -/
theorem Plays.lastReadings {states : List ConsumerControl} {object : MediaTypist} {sent : List Bytes}
    (h : Plays states object sent) : lastReadings hidReportidConsumercontrol sent = object.lastReport.listed := by
  rw [h.sent, ← h.last]
  rcases List.eq_nil_or_concat' states with rfl | ⟨before, c, rfl⟩
  · rfl
  · rw [List.map_append, List.map_singleton, lastReadings_concat, readings_consumer]
    exact congrArg _ (List.getLast_concat (l := ConsumerControl.cleared :: before)).symm

end Host

/-- Two volume keys go down and the first up again, with reports that are new and one that is not; the first
report is sent. -/
def turned : List (Act (ReporterCall MediaCall) DeviceEvent) :=
  [.call (.call (.key (.press 0xE9))), .go 3, .call (.call .sendReport), .go 9, .call (.call .sendReport), .go 9,
    .call (.call (.key (.press 0xEA))), .go 3, .call (.call (.key (.release 0xE9))), .go 3,
    .call (.call .sendReport), .go 9, .call .sendLastReport, .go 19, .irq .takeTransfer]

/-- Where that leads. -/
def sampleMedia : Reporter MediaTypist :=
  (consumerControlClass.machine.play turned (.start .start .fresh, none)).1

theorem reach_sampleMedia : consumerControlClass.machine.Reach (.start .start .fresh) ⟨sampleMedia, none, none⟩ :=
  ReportClass.reach_play turned (by decide +kernel) (by decide +kernel)

theorem media_follows_turned :
    (sampleMedia.device.usb.received.filter (fromInterface hidReportidConsumercontrol)).length = 1 ∧
    ∃ states, sampleMedia.object.stops.destutter' (· ≠ ·) .cleared = .cleared :: states ∧
      (sampleMedia.device.usb.received.filter (fromInterface hidReportidConsumercontrol)).Sublist
        (consumerControlClass.packets (states.map ConsumerControl.bytes)) ∧
      (AllArriveOf hidReportidConsumercontrol sampleMedia.device.log →
        sampleMedia.device.usb.received.filter (fromInterface hidReportidConsumercontrol) <+:
          consumerControlClass.packets (states.map ConsumerControl.bytes)) :=
  ⟨by decide +kernel, media_follows _ _ _ _ _ reach_sampleMedia⟩

/-- `HID_SYSTEM_WAKE_UP`. -/
def hidSystemWakeUp : UInt8 := 0x83

/-- A call of `SystemControl_`, which has no data. -/
inductive SystemCall where
  | press (s : UInt8)
  | release
  | releaseAll
  | write (s : UInt8)
  | endControl
  deriving DecidableEq, Repr

/-- The reports that a call sends. -/
def systemReports : SystemCall → List UInt8
  -- `remoteWakeup` instead of a report
  | .press s => if s = hidSystemWakeUp then [] else [s]
  | .release | .releaseAll | .endControl => [0]
  | .write s => if s = hidSystemWakeUp then [0] else [s, 0]

/-- The class `SystemControl_`, with the calls so far. -/
def systemControlClass : ReportClass (List SystemCall) SystemCall where
  id := hidReportidSystemcontrol
  call c calls := (calls ++ [c], (systemReports c).map fun s => [s])
  shared := by decide
  numbered := by decide
  fits c calls data hdata := by
    obtain ⟨s, -, rfl⟩ := List.mem_map.mp hdata
    exact ⟨le_rfl, Nat.succ_le_succ (Nat.zero_le 62)⟩

/-- The system key that the host finds held after a call.  Two bits of a key are left of it, and the key that
wakes up is never sent. -/
def systemHeld (k : Option ℕ) : SystemCall → Option ℕ
  | .press s => if s = hidSystemWakeUp then k else if s.toNat % 4 = 0 then none else some (0x80 + s.toNat % 4)
  | _ => none

/-- The reports of the calls, and the last of them. -/
def SystemSent (calls : List SystemCall) (sent : List Bytes) : Prop :=
  sent = (calls.flatMap systemReports).map (fun s => [s]) ∧
    lastReadings hidReportidSystemcontrol sent = (Run.after systemHeld none calls).toList.map fun u => ⟨1, u, 1⟩

/-- What a call does to the last report. -/
theorem lastReadings_system (c : SystemCall) {sent : List Bytes} {k : Option ℕ}
    (hlast : lastReadings hidReportidSystemcontrol sent = k.toList.map fun u => ⟨1, u, 1⟩) :
    lastReadings hidReportidSystemcontrol (sent ++ (systemReports c).map fun s => [s]) =
      (systemHeld k c).toList.map fun u => ⟨1, u, 1⟩ := by
  have hzero : readingsBy hidDefyReportDescriptor hidReportidSystemcontrol [0] = [] := readings_system 0
  cases c with
  | press s =>
    unfold systemReports systemHeld
    by_cases hwake : s = hidSystemWakeUp
    · simp only [hwake, if_true, List.map_nil, List.append_nil]
      exact hlast
    · simp only [hwake, if_false, List.map_singleton]
      rw [lastReadings_concat, readings_system]
      by_cases hlow : s.toNat % 4 = 0
      · simp only [hlow, if_true, Option.toList_none, List.map_nil]
      · simp only [hlow, if_false, Option.toList_some, List.map_singleton]
  | write s =>
    have hends : ∃ before, systemReports (.write s) = before ++ [0] := by
      by_cases hwake : s = hidSystemWakeUp
      · exact ⟨[], if_pos hwake⟩
      · exact ⟨[s], if_neg hwake⟩
    obtain ⟨before, hbefore⟩ := hends
    rw [hbefore, List.map_append, ← List.append_assoc, List.map_singleton, lastReadings_concat, hzero]
    rfl
  | release => exact (lastReadings_concat _ _ _).trans hzero
  | releaseAll => exact (lastReadings_concat _ _ _).trans hzero
  | endControl => exact (lastReadings_concat _ _ _).trans hzero

theorem systemSent_start : SystemSent [] [] := ⟨rfl, rfl⟩

/-- Every call keeps it. -/
theorem systemSent_call (c : SystemCall) (calls : List SystemCall) (sent : List Bytes)
    (h : SystemSent calls sent) :
    SystemSent (systemControlClass.call c calls).1 (sent ++ (systemControlClass.call c calls).2) := by
  obtain ⟨hsent, hlast⟩ := h
  refine ⟨?_, ?_⟩
  · show sent ++ (systemReports c).map _ = ((calls ++ [c]).flatMap systemReports).map _
    rw [hsent, List.flatMap_append, List.map_append, List.flatMap_singleton]
  · show lastReadings _ _ = (Run.after systemHeld none (calls ++ [c])).toList.map _
    rw [Run.after_append]
    exact lastReadings_system c hlast

/-- The key that puts the system to sleep goes down, and then the one that wakes it up. -/
def slept : List (Act (ReporterCall SystemCall) DeviceEvent) :=
  [.call (.call (.press 0x82)), .go 9, .call (.call (.press hidSystemWakeUp)), .go 9]

/-- Where that leads. -/
def sampleSystem : Reporter (List SystemCall) :=
  (systemControlClass.machine.play slept (.start [] .fresh, none)).1

theorem reach_sampleSystem : systemControlClass.machine.Reach (.start [] .fresh) ⟨sampleSystem, none, none⟩ :=
  ReportClass.reach_play slept (by decide +kernel) (by decide +kernel)

end NeuronWired
