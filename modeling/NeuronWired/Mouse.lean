import NeuronWired.Cint
import NeuronWired.Run.Basic

/-!
# Mouse — the mouse report (`Mouse.h`, `Mouse.cpp`)

`Mouse_` keeps the report under construction and the button byte that it has sent last.  A click must be
seen by the host as buttons going down and up again, whatever was pending and whatever was sent.
-/

namespace NeuronWired

/-! ## The report -/

/-- `HID_MouseReport_Data_t`. -/
structure MouseReport where
  buttons : UInt8
  xAxis : Int8
  yAxis : Int8
  vWheel : Int8
  hWheel : Int8
  deriving DecidableEq, Repr

/-- The bytes of a report. -/
def MouseReport.bytes (r : MouseReport) : Bytes :=
  [r.buttons, r.xAxis.toUInt8, r.yAxis.toUInt8, r.vWheel.toUInt8, r.hWheel.toUInt8]

/-- A report with all bytes zero. -/
def MouseReport.cleared : MouseReport := ⟨0, 0, 0, 0, 0⟩

/-- `Mouse_`. -/
structure Mouse where
  report : MouseReport
  prevReportButtons : UInt8
  deriving DecidableEq, Repr

namespace Mouse

/-- The object `Mouse` before its first use. -/
def initial : Mouse := ⟨.cleared, 0⟩

/-- `move`. -/
def move (m : Mouse) (x y vWheel hWheel : Int8) : Mouse :=
  { m with report := { m.report with xAxis := x, yAxis := y, vWheel := vWheel, hWheel := hWheel } }

/-- `releaseAll`. -/
def releaseAll (m : Mouse) : Mouse := { m with report := .cleared }

/-- `press`. -/
def press (m : Mouse) (b : UInt8) : Mouse := { m with report.buttons := m.report.buttons ||| b }

/-- `release`. -/
def release (m : Mouse) (b : UInt8) : Mouse := { m with report.buttons := m.report.buttons &&& ~~~b }

/-- What `sendReport` asks: the buttons have changed, or the cursor or a wheel is to be moved. -/
def Changed (m : Mouse) : Prop :=
  m.report.buttons ≠ m.prevReportButtons ∨ m.report.xAxis ≠ 0 ∨ m.report.yAxis ≠ 0 ∨
    m.report.vWheel ≠ 0 ∨ m.report.hWheel ≠ 0

instance (m : Mouse) : Decidable m.Changed := by unfold Changed; infer_instance

/-- `sendReport`; and the reports that `sendReportUnchecked` passes to `HID().SendReport`. -/
def sendReport (m : Mouse) : Mouse × List MouseReport :=
  if m.Changed then ({ m with prevReportButtons := m.report.buttons }, [m.report]) else (m, [])

/-- `click`; and the reports, one after another. -/
def click (m : Mouse) (b : UInt8) : Mouse × List MouseReport :=
  let r₀ := if m.report.buttons &&& b ≠ 0 then (m.release b).sendReport else (m, [])
  let r₁ := (r₀.1.press b).sendReport
  let r₂ := (r₁.1.release b).sendReport
  (r₂.1, r₀.2 ++ r₁.2 ++ r₂.2)

end Mouse

/-- The calls that a sketch makes. -/
inductive MouseCall where
  | press (b : UInt8)
  | release (b : UInt8)
  | move (x y vWheel hWheel : Int8)
  | releaseAll
  | sendReport
  | click (b : UInt8)
  deriving DecidableEq, Repr

/-- A call. -/
def Mouse.call (m : Mouse) : MouseCall → Mouse
  | .press b => m.press b
  | .release b => m.release b
  | .move x y vWheel hWheel => m.move x y vWheel hWheel
  | .releaseAll => m.releaseAll
  | .sendReport => m.sendReport.1
  | .click b => (m.click b).1

/-! ## What a click is -/

/-- In a sequence of button bytes: all buttons of `b` up, then all down, then all up. -/
def ClickIn (b : UInt8) : List UInt8 → Prop
  | up :: down :: up' :: l =>
    (up &&& b = 0 ∧ down &&& b = b ∧ up' &&& b = 0) ∨ ClickIn b (down :: up' :: l)
  | _ => False

instance ClickIn.decidable (b : UInt8) : (l : List UInt8) → Decidable (ClickIn b l)
  | [] | [_] | [_, _] => .isFalse id
  | _ :: down :: up' :: l => @instDecidableOr _ _ inferInstance (ClickIn.decidable b (down :: up' :: l))

/-- The button bytes that the host sees at `click(b)`, the one sent before in front. -/
def Mouse.seen (m : Mouse) (b : UInt8) : List UInt8 :=
  m.prevReportButtons :: (m.click b).2.map MouseReport.buttons

/-- `click(b)` clicks, and the other buttons end as they were pending. -/
def Mouse.ClickClicks (m : Mouse) (b : UInt8) : Prop :=
  ClickIn b (m.seen b) ∧ (m.click b).1.report.buttons &&& ~~~b = m.report.buttons &&& ~~~b ∧
    (m.seen b).getLast (List.cons_ne_nil _ _) &&& ~~~b = m.report.buttons &&& ~~~b

instance (m : Mouse) (b : UInt8) : Decidable (m.ClickClicks b) := by
  unfold Mouse.ClickClicks; infer_instance

/-! ## Masks -/

section Masks

variable (a b : UInt8)

theorem UInt8.and_not_and_self : (a &&& ~~~b) &&& b = 0 := by
  apply UInt8.toBitVec_inj.mp
  ext i
  simp

theorem UInt8.or_and_self : (a ||| b) &&& b = b := by
  apply UInt8.toBitVec_inj.mp
  ext i hi
  simp only [UInt8.toBitVec_and, UInt8.toBitVec_or, BitVec.getElem_and, BitVec.getElem_or]
  cases a.toBitVec[i] <;> cases b.toBitVec[i] <;> rfl

theorem UInt8.or_and_not : (a ||| b) &&& ~~~b = a &&& ~~~b := by
  apply UInt8.toBitVec_inj.mp
  ext i hi
  simp only [UInt8.toBitVec_and, UInt8.toBitVec_or, UInt8.toBitVec_not, BitVec.getElem_and, BitVec.getElem_or,
    BitVec.getElem_not]
  cases a.toBitVec[i] <;> cases b.toBitVec[i] <;> rfl

theorem UInt8.and_not_and_not : (a &&& ~~~b) &&& ~~~b = a &&& ~~~b := by
  rw [UInt8.and_assoc, UInt8.and_self]

variable {a b}

theorem UInt8.and_not_of_and_eq_zero (h : a &&& b = 0) : a &&& ~~~b = a := by
  have hbits := UInt8.toBitVec_inj.mpr h
  apply UInt8.toBitVec_inj.mp
  ext i hi
  have hbit := congrArg (fun v => v[i]) hbits
  simp only [UInt8.toBitVec_and, UInt8.toBitVec_not, BitVec.getElem_and, BitVec.getElem_not] at hbit ⊢
  cases ha : a.toBitVec[i] <;> cases hb : b.toBitVec[i] <;> simp_all

/-- Pressing buttons that are up changes the byte. -/
theorem UInt8.or_ne_of_and_eq_zero (hb : b ≠ 0) (h : a &&& b = 0) : a ||| b ≠ a := by
  intro heq
  have hself := UInt8.or_and_self a b
  rw [heq, h] at hself
  exact hb hself.symm

end Masks

/-! ## `sendReport` -/

namespace Mouse

variable (m : Mouse) (b : UInt8)

/-- A report is sent or would say nothing new: the buttons pending are now the buttons sent. -/
theorem sendReport_fst : m.sendReport.1 = { m with prevReportButtons := m.report.buttons } := by
  unfold sendReport
  split_ifs with h
  · rfl
  · have hbuttons : m.report.buttons = m.prevReportButtons := by_contra fun hne => h (Or.inl hne)
    rw [hbuttons]

theorem sendReport_snd_of_ne {m : Mouse} (h : m.report.buttons ≠ m.prevReportButtons) :
    m.sendReport.2 = [m.report] := by
  have hchanged : m.Changed := Or.inl h
  unfold sendReport
  rw [if_pos hchanged]

/-- At most the pending report is sent. -/
theorem sendReport_snd_cases : m.sendReport.2 = [] ∧ m.report.buttons = m.prevReportButtons ∨
    m.sendReport.2 = [m.report] := by
  unfold sendReport
  split_ifs with h
  · exact Or.inr rfl
  · exact Or.inl ⟨rfl, by_contra fun hne => h (Or.inl hne)⟩

/-! ## `click` -/

@[simp] theorem press_buttons : (m.press b).report.buttons = m.report.buttons ||| b := rfl

@[simp] theorem release_buttons : (m.release b).report.buttons = m.report.buttons &&& ~~~b := rfl

@[simp] theorem press_prev : (m.press b).prevReportButtons = m.prevReportButtons := rfl

@[simp] theorem release_prev : (m.release b).prevReportButtons = m.prevReportButtons := rfl

/-- What `click` does once `b` is up in the pending report: press, send, release, send. -/
def pressRelease : Mouse × List MouseReport :=
  (((m.press b).sendReport.1.release b).sendReport.1,
    (m.press b).sendReport.2 ++ ((m.press b).sendReport.1.release b).sendReport.2)

theorem click_of_up {m : Mouse} {b : UInt8} (h : m.report.buttons &&& b = 0) :
    m.click b = m.pressRelease b := by
  unfold click pressRelease
  rw [if_neg (not_not.mpr h)]
  rfl

theorem click_of_down {m : Mouse} {b : UInt8} (h : m.report.buttons &&& b ≠ 0) :
    m.click b = (((m.release b).sendReport.1.pressRelease b).1,
      (m.release b).sendReport.2 ++ ((m.release b).sendReport.1.pressRelease b).2) := by
  unfold click pressRelease
  rw [if_pos h]
  simp only [List.append_assoc]

section PressRelease

variable {m : Mouse} {b : UInt8} (hb : b ≠ 0) (hup : m.report.buttons &&& b = 0)
include hup

theorem pressRelease_buttons : (m.pressRelease b).1.report.buttons = m.report.buttons := by
  unfold pressRelease
  simp only [sendReport_fst, release_buttons, press_buttons, UInt8.or_and_not,
    UInt8.and_not_of_and_eq_zero hup]

include hb

/-- The release is always sent; the press is, unless the host has it already. -/
theorem pressRelease_snd : ∃ r, r.buttons = m.report.buttons ∧
    ((m.pressRelease b).2 = [r] ∧ m.prevReportButtons = m.report.buttons ||| b ∨
      ∃ r', r'.buttons = m.report.buttons ||| b ∧ (m.pressRelease b).2 = [r', r]) := by
  have hreleased : (m.report.buttons ||| b) &&& ~~~b = m.report.buttons := by
    rw [UInt8.or_and_not, UInt8.and_not_of_and_eq_zero hup]
  have hsecond : ((m.press b).sendReport.1.release b).sendReport.2 =
      [((m.press b).sendReport.1.release b).report] := by
    refine sendReport_snd_of_ne ?_
    rw [sendReport_fst]
    show (m.report.buttons ||| b) &&& ~~~b ≠ m.report.buttons ||| b
    rw [hreleased]
    exact (UInt8.or_ne_of_and_eq_zero hb hup).symm
  refine ⟨((m.press b).sendReport.1.release b).report, ?_, ?_⟩
  · rw [release_buttons, sendReport_fst]
    exact hreleased
  · unfold pressRelease
    rw [hsecond]
    rcases sendReport_snd_cases (m.press b) with ⟨hnone, hprev⟩ | hsent
    · exact Or.inl ⟨by rw [hnone]; rfl, hprev.symm⟩
    · exact Or.inr ⟨(m.press b).report, rfl, by rw [hsent]; rfl⟩

end PressRelease

end Mouse

/-! ## Clicks in a sequence -/

theorem clickIn_cons {b x : UInt8} {l : List UInt8} (h : ClickIn b l) : ClickIn b (x :: l) := by
  match l, h with
  | _ :: _ :: _, h => exact Or.inr h

theorem clickIn_append {b : UInt8} (before : List UInt8) {l : List UInt8} (h : ClickIn b l) :
    ClickIn b (before ++ l) := by
  induction before with
  | nil => exact h
  | cons x before ih => exact clickIn_cons ih

/-- Two bytes are no click. -/
theorem not_clickIn_pair (b x y : UInt8) : ¬ ClickIn b [x, y] := id

theorem clickIn_triple {b x y z : UInt8} :
    ClickIn b [x, y, z] ↔ x &&& b = 0 ∧ y &&& b = b ∧ z &&& b = 0 :=
  or_iff_left id

namespace Mouse

variable {m : Mouse} {b : UInt8}

/-- Released first, the buttons are up when they go down. -/
theorem clickClicks_of_down (hb : b ≠ 0) (hdown : m.report.buttons &&& b ≠ 0) : m.ClickClicks b := by
  have hup : (m.release b).sendReport.1.report.buttons &&& b = 0 := by
    rw [sendReport_fst]
    exact UInt8.and_not_and_self _ _
  have hpending : (m.release b).sendReport.1.report.buttons = m.report.buttons &&& ~~~b := by
    rw [sendReport_fst]
    rfl
  have hsent : (m.release b).sendReport.1.prevReportButtons = m.report.buttons &&& ~~~b := by
    rw [sendReport_fst]
    rfl
  -- the host gets the released buttons, or has them already
  obtain ⟨before, hfirst⟩ : ∃ before, m.prevReportButtons ::
      (m.release b).sendReport.2.map MouseReport.buttons = before ++ [m.report.buttons &&& ~~~b] := by
    rcases sendReport_snd_cases (m.release b) with ⟨hnone, hprev⟩ | hone
    · exact ⟨[], by rw [hnone]; exact congrArg (· :: []) hprev.symm⟩
    · exact ⟨[m.prevReportButtons], by rw [hone]; rfl⟩
  obtain ⟨r, hr, ⟨-, hprev⟩ | ⟨r', hr', hrest⟩⟩ := pressRelease_snd hb hup
  · rw [hsent, hpending] at hprev
    exact absurd hprev.symm (UInt8.or_ne_of_and_eq_zero hb (UInt8.and_not_and_self _ _))
  rw [hpending] at hr hr'
  have hseen : m.seen b = before ++ [m.report.buttons &&& ~~~b, m.report.buttons &&& ~~~b ||| b,
      m.report.buttons &&& ~~~b] := by
    unfold seen
    rw [click_of_down hdown, hrest, List.map_append, ← List.cons_append, hfirst, List.append_assoc]
    simp only [List.map_cons, List.map_nil, hr, hr', List.cons_append, List.nil_append]
  refine ⟨?_, ?_, ?_⟩
  · rw [hseen]
    exact clickIn_append before (clickIn_triple.mpr
      ⟨UInt8.and_not_and_self _ _, UInt8.or_and_self _ _, UInt8.and_not_and_self _ _⟩)
  · rw [click_of_down hdown, pressRelease_buttons hup, hpending, UInt8.and_not_and_not]
  · have hlast : (m.seen b).getLast (List.cons_ne_nil _ _) = m.report.buttons &&& ~~~b := by
      simp only [hseen, List.getLast_append_of_ne_nil _ (List.cons_ne_nil _ _), List.getLast_cons_cons,
        List.getLast_singleton]
    rw [hlast, UInt8.and_not_and_not]

/-- Without a release in front, the press is a click exactly when the host has the buttons up. -/
theorem clickClicks_of_up (hb : b ≠ 0) (hup : m.report.buttons &&& b = 0) :
    m.ClickClicks b ↔ m.prevReportButtons &&& b = 0 := by
  have hpending : (m.click b).1.report.buttons = m.report.buttons := by
    rw [click_of_up hup, pressRelease_buttons hup]
  obtain ⟨r, hr, ⟨hrest, hprev⟩ | ⟨r', hr', hrest⟩⟩ := pressRelease_snd hb hup
  · -- the host has the buttons down already: the press says nothing new
    have hseen : m.seen b = [m.prevReportButtons, m.report.buttons] := by
      unfold seen
      rw [click_of_up hup, hrest, ← hr]
      rfl
    have hdown : m.prevReportButtons &&& b = b := by rw [hprev, UInt8.or_and_self]
    refine iff_of_false (fun h => ?_) (by rw [hdown]; exact hb)
    have hclick := h.1
    rw [hseen] at hclick
    exact not_clickIn_pair _ _ _ hclick
  · have hseen : m.seen b = [m.prevReportButtons, m.report.buttons ||| b, m.report.buttons] := by
      unfold seen
      rw [click_of_up hup, hrest, ← hr', ← hr]
      rfl
    have hlast : (m.seen b).getLast (List.cons_ne_nil _ _) = m.report.buttons := by
      simp only [hseen, List.getLast_cons_cons, List.getLast_singleton]
    have hclick : ClickIn b (m.seen b) ↔ m.prevReportButtons &&& b = 0 := by
      rw [hseen, clickIn_triple, UInt8.or_and_self, hup]
      simp only [and_true]
    rw [← hclick]
    exact ⟨fun h => h.1, fun h => ⟨h, by rw [hpending], by rw [hlast]⟩⟩

/-- **A click.**  `click(b)` looks at the pending report only: it clicks exactly when a button of `b` is
pending, so that it is released first, or when the host has no button of `b` down. -/
theorem clickClicks_iff (m : Mouse) {b : UInt8} (hb : b ≠ 0) :
    m.ClickClicks b ↔ m.report.buttons &&& b ≠ 0 ∨ m.prevReportButtons &&& b = 0 := by
  by_cases hup : m.report.buttons &&& b = 0
  · rw [clickClicks_of_up hb hup]
    exact ⟨Or.inr, fun h => h.resolve_left (not_not.mpr hup)⟩
  · exact iff_of_true (clickClicks_of_down hb hup) (Or.inl hup)

/-- The left button is down, the sketch releases it, and clicks it before the next report. -/
theorem clickClicks_iff_pressed :
    (initial.press 1).ClickClicks 1 ↔
      (initial.press 1).report.buttons &&& 1 ≠ 0 ∨ (initial.press 1).prevReportButtons &&& 1 = 0 :=
  clickClicks_iff _ (by decide)

/-- Sent down and released without a report, the button only goes up at `click`. -/
theorem click_only_releases :
    ∃ calls, ¬ (Run.after Mouse.call initial calls).ClickClicks 1 :=
  ⟨[.press 1, .sendReport, .release 1], by decide⟩

end Mouse

end NeuronWired
