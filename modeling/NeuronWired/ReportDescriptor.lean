import NeuronWired.ConsumerControl
import NeuronWired.Hid.Readings
import NeuronWired.HidQueue
import NeuronWired.KeyboardDescriptor
import NeuronWired.Mouse

/-!
# ReportDescriptor — what the host reads from the other reports (`hidDefy.h`, `hid_device.h`)

Every class has a descriptor of its own, but `AppendDescriptor` does nothing with it: the device has
`HID_DEFY_REPORT_DESCRIPTOR`, with the templates of the USB stack for the mouse and the system keys.
-/

namespace NeuronWired

open HidDescriptor

/-! ## The items of `hid.h` -/

/-- `HID_REPORT_DATA_0`, `HID_REPORT_DATA_1` and `HID_REPORT_DATA_2`. -/
def hidReportData (data : UInt16) : ℕ → Bytes
  | 0 => []
  | 1 => [data.toUInt8]
  | _ => [data.toUInt8, (data >>> 8).toUInt8]

/-- `HID_REPORT_ITEM`. -/
def hidReportItem (data : UInt16) (tag type size : ℕ) : Bytes :=
  UInt8.ofNat (tag * 16 + type * 4 + size) :: hidReportData data size

def riTypeMain : ℕ := 0
def riTypeGlobal : ℕ := 1
def riTypeLocal : ℕ := 2

def hidInput (x : UInt16) : Bytes := hidReportItem x 8 riTypeMain 1
def hidCollection (x : UInt16) : Bytes := hidReportItem x 10 riTypeMain 1
def hidCollectionEnd : Bytes := hidReportItem 0 12 riTypeMain 0
def hidUsagePage (x : UInt16) : Bytes := hidReportItem x 0 riTypeGlobal 1
def hidLogicalMin (x : UInt16) : Bytes := hidReportItem x 1 riTypeGlobal 1
def hidLogicalMax (x : UInt16) : Bytes := hidReportItem x 2 riTypeGlobal 1
def hidLogicalMaxN (x : UInt16) (n : ℕ) : Bytes := hidReportItem x 2 riTypeGlobal n
def hidReportSize (x : UInt16) : Bytes := hidReportItem x 7 riTypeGlobal 1
def hidReportId (x : UInt16) : Bytes := hidReportItem x 8 riTypeGlobal 1
def hidReportCount (x : UInt16) : Bytes := hidReportItem x 9 riTypeGlobal 1
def hidUsage (x : UInt16) : Bytes := hidReportItem x 0 riTypeLocal 1
def hidUsageN (x : UInt16) (n : ℕ) : Bytes := hidReportItem x 0 riTypeLocal n
def hidUsageMin (x : UInt16) : Bytes := hidReportItem x 1 riTypeLocal 1
def hidUsageMax (x : UInt16) : Bytes := hidReportItem x 2 riTypeLocal 1
def hidUsageMaxN (x : UInt16) (n : ℕ) : Bytes := hidReportItem x 2 riTypeLocal n

def hidData : UInt16 := 0
def hidConstant : UInt16 := 1
def hidArray : UInt16 := 0
def hidVariable : UInt16 := 2
def hidAbsolute : UInt16 := 0
def hidRelative : UInt16 := 4
def hidCollectionPhysical : UInt16 := 0
def hidCollectionApplication : UInt16 := 1
def hidUsagePageDesktop : UInt16 := 0x01
def hidUsagePageButton : UInt16 := 0x09
def hidUsagePageConsumer : UInt16 := 0x0C
def hidUsageDesktopPointer : UInt16 := 0x01
def hidUsageDesktopMouse : UInt16 := 0x02
def hidUsageDesktopX : UInt16 := 0x30
def hidUsageDesktopY : UInt16 := 0x31
def hidUsageDesktopWheel : UInt16 := 0x38
def hidUsageDesktopSystemControl : UInt16 := 0x80
def hidUsageDesktopSystemPowerDown : UInt16 := 0x81
def hidUsageDesktopSystemSleep : UInt16 := 0x82
def hidUsageDesktopSystemWakeUp : UInt16 := 0x83
def hidUsageConsumerControl : UInt16 := 0x0001
def hidUsageConsumerAcPan : UInt16 := 0x0238

/-! ## The descriptor of the device -/

/-- `TUD_HID_REPORT_DESC_MOUSE`. -/
def tudHidReportDescMouse (reportId : Bytes) : Bytes :=
  hidUsagePage hidUsagePageDesktop ++ hidUsage hidUsageDesktopMouse ++
  hidCollection hidCollectionApplication ++ reportId ++
    hidUsage hidUsageDesktopPointer ++ hidCollection hidCollectionPhysical ++
      hidUsagePage hidUsagePageButton ++ hidUsageMin 1 ++ hidUsageMax 5 ++ hidLogicalMin 0 ++ hidLogicalMax 1 ++
        -- Left, Right, Middle, Backward, Forward buttons
        hidReportCount 5 ++ hidReportSize 1 ++ hidInput (hidData ||| hidVariable ||| hidAbsolute) ++
        -- 3 bit padding
        hidReportCount 1 ++ hidReportSize 3 ++ hidInput hidConstant ++
      hidUsagePage hidUsagePageDesktop ++
        -- X, Y position [-127, 127]
        hidUsage hidUsageDesktopX ++ hidUsage hidUsageDesktopY ++ hidLogicalMin 0x81 ++ hidLogicalMax 0x7f ++
        hidReportCount 2 ++ hidReportSize 8 ++ hidInput (hidData ||| hidVariable ||| hidRelative) ++
        -- Vertical wheel scroll [-127, 127]
        hidUsage hidUsageDesktopWheel ++ hidLogicalMin 0x81 ++ hidLogicalMax 0x7f ++
        hidReportCount 1 ++ hidReportSize 8 ++ hidInput (hidData ||| hidVariable ||| hidRelative) ++
      hidUsagePage hidUsagePageConsumer ++
        -- Horizontal wheel scroll [-127, 127]
        hidUsageN hidUsageConsumerAcPan 2 ++ hidLogicalMin 0x81 ++ hidLogicalMax 0x7f ++
        hidReportCount 1 ++ hidReportSize 8 ++ hidInput (hidData ||| hidVariable ||| hidRelative) ++
    hidCollectionEnd ++
  hidCollectionEnd

/-- `TUD_HID_REPORT_DESC_CONSUMER_DYGMA`. -/
def tudHidReportDescConsumerDygma (reportId : Bytes) : Bytes :=
  hidUsagePage hidUsagePageConsumer ++ hidUsage hidUsageConsumerControl ++
  hidCollection hidCollectionApplication ++ reportId ++
    hidLogicalMin 0x00 ++ hidLogicalMaxN 0x03FF 2 ++ hidUsageMin 0x00 ++ hidUsageMaxN 0x03FF 2 ++
    hidReportCount 4 ++ hidReportSize 16 ++ hidInput (hidData ||| hidArray ||| hidAbsolute) ++
  hidCollectionEnd

/-- `TUD_HID_REPORT_DESC_SYSTEM_CONTROL`. -/
def tudHidReportDescSystemControl (reportId : Bytes) : Bytes :=
  hidUsagePage hidUsagePageDesktop ++ hidUsage hidUsageDesktopSystemControl ++
  hidCollection hidCollectionApplication ++ reportId ++
    -- 2 bit system power control
    hidLogicalMin 1 ++ hidLogicalMax 3 ++ hidReportCount 1 ++ hidReportSize 2 ++
    hidUsage hidUsageDesktopSystemPowerDown ++ hidUsage hidUsageDesktopSystemSleep ++
    hidUsage hidUsageDesktopSystemWakeUp ++ hidInput (hidData ||| hidArray ||| hidAbsolute) ++
    -- 6 bit padding
    hidReportCount 1 ++ hidReportSize 6 ++ hidInput hidConstant ++
  hidCollectionEnd

def reportIdMouse : UInt16 := 0x02
def reportIdConsumerControl : UInt16 := 0x03
def reportIdSystemControl : UInt16 := 0x04

/-- `HID_DEFY_REPORT_DESCRIPTOR`. -/
def hidDefyReportDescriptor : Bytes :=
  keyboardCollection ++ tudHidReportDescMouse (hidReportId reportIdMouse) ++
    tudHidReportDescConsumerDygma (hidReportId reportIdConsumerControl) ++
    tudHidReportDescSystemControl (hidReportId reportIdSystemControl)

/-! ## The descriptors of the classes -/

def dRelative : UInt8 := 0x04
def dPageButton : UInt8 := 0x09
def dPageOrdinal : UInt8 := 0x0A
def dPageConsumer : UInt8 := 0x0C
def dUsageMouse : UInt8 := 0x02
/-- `D_MULTIBYTE`. -/
def dMultibyte (n : UInt8) : UInt8 := n + 0x01

def hidReportidConsumercontrol : UInt8 := 3
def hidReportidSystemcontrol : UInt8 := 4

/-- `nkro_keyboard_hid_descriptor_`. -/
def nkroKeyboardHidDescriptor : Bytes :=
  [dUsagePage, dPageGenericDesktop, dUsage, dUsageKeyboard, dCollection, dApplication,
    dReportId, hidReportidNkroKeyboard,
    dUsagePage, dPageKeyboard,
    -- Key modifier byte
    dUsageMinimum, hidKeyboardFirstModifier, dUsageMaximum, hidKeyboardLastModifier,
    dLogicalMinimum, 0x00, dLogicalMaximum, 0x01, dReportSize, 0x01, dReportCount, 0x08,
    dInput, dDataVariableAbsolute,
    -- 5 LEDs for num lock etc, 3 left for advanced, custom usage
    dUsagePage, dPageLeds, dUsageMinimum, 0x01, dUsageMaximum, 0x08, dReportCount, 0x08, dReportSize, 0x01,
    dOutput, dDataVariableAbsolute,
    -- NKRO Keyboard
    dUsagePage, dPageKeyboard,
    -- Padding 4 bits, to skip NO_EVENT & 3 error states.
    dReportSize, 0x04, dReportCount, 0x01, dInput, dConstant,
    dUsageMinimum, hidKeyboardAAndA, dUsageMaximum, hidLastKey,
    dLogicalMinimum, 0x00, dLogicalMaximum, 0x01, dReportSize, 0x01, dReportCount, UInt8.ofNat (keyBits - 4),
    dInput, dDataVariableAbsolute] ++
  -- Padding to round up the report to byte boundary.
  (if keyBits % 8 ≠ 0 then
    [dReportSize, UInt8.ofNat (8 - keyBits % 8), dReportCount, 0x01, dInput, dConstant]
  else []) ++
  [dEndCollection]

/-- `mouse_hid_descriptor_`; `D_PAGE_ORDINAL` is the prefix of a usage of two bytes. -/
def mouseHidDescriptor : Bytes :=
  [dUsagePage, dPageGenericDesktop, dUsage, dUsageMouse, dCollection, dApplication,
    dReportId, hidReportidMouse,
    -- 8 Buttons
    dUsagePage, dPageButton, dUsageMinimum, 0x01, dUsageMaximum, 0x08,
    dLogicalMinimum, 0x00, dLogicalMaximum, 0x01, dReportCount, 0x08, dReportSize, 0x01,
    dInput, dDataVariableAbsolute,
    -- X, Y, Wheel
    dUsagePage, dPageGenericDesktop, dUsage, 0x30, dUsage, 0x31, dUsage, 0x38,
    dLogicalMinimum, 0x81, dLogicalMaximum, 0x7f, dReportSize, 0x08, dReportCount, 0x03,
    dInput, dDataVariableAbsolute ||| dRelative,
    -- Horizontal wheel
    dUsagePage, dPageConsumer, dPageOrdinal, 0x38, 0x02,
    dLogicalMinimum, 0x81, dLogicalMaximum, 0x7f, dReportSize, 0x08, dReportCount, 0x01,
    dInput, dDataVariableAbsolute ||| dRelative,
    dEndCollection]

/-- `consumer_control_hid_descriptor_`. -/
def consumerControlHidDescriptor : Bytes :=
  [dUsagePage, 0x0C, dUsage, 0x01, dCollection, dApplication,
    dReportId, hidReportidConsumercontrol,
    -- 4 Media Keys
    dLogicalMinimum, 0x00, dMultibyte dLogicalMaximum, 0xFF, 0x03,
    dUsageMinimum, 0x00, dMultibyte dUsageMaximum, 0xFF, 0x03,
    dReportCount, 0x04, dReportSize, 0x10, dInput, 0x00,
    dEndCollection]

/-- `system_control_hid_descriptor_`. -/
def systemControlHidDescriptor : Bytes :=
  [dUsagePage, dPageGenericDesktop, dUsage, 0x80, dCollection, dApplication,
    dReportId, hidReportidSystemcontrol,
    -- 1 system key
    dLogicalMinimum, 0x00, dMultibyte dLogicalMaximum, 0xff, 0x00,
    dUsageMinimum, 0x00, dUsageMaximum, 0xff,
    dReportCount, 0x01, dReportSize, 0x08, dInput, 0x00,
    dEndCollection]

/-! ## The fields -/

/-- The input fields of a report in a descriptor. -/
def inputsOf (descriptor : Bytes) (reportId : UInt8) : List Field :=
  inputs reportId.toNat ((fields descriptor).getD [])

/-- The active controls that a host with this descriptor finds in the data of a report. -/
def readingsBy (descriptor : Bytes) (reportId : UInt8) (data : Bytes) : List Reading :=
  readings data (inputsOf descriptor reportId) 0

/-- The buttons of a mouse. -/
def buttonsField (count : ℕ) : Field :=
  { direction := .input, isConstant := false, isVariable := true, reportId := 2, usagePage := 9
    usages := List.range' 1 count, logicalMin := 0, logicalMax := 1, size := 1, count := count }

/-- Movements in bytes. -/
def axesField (page : ℕ) (usages : List ℕ) : Field :=
  { direction := .input, isConstant := false, isVariable := true, reportId := 2, usagePage := page
    usages := usages, logicalMin := 0x81, logicalMax := 0x7f, size := 8, count := usages.length }

/-- The four slots of the media keys. -/
def slotsField : Field :=
  { direction := .input, isConstant := false, isVariable := false, reportId := 3, usagePage := 0x0C
    usages := List.range' 0 0x400, logicalMin := 0, logicalMax := 0x3FF, size := 16, count := 4 }

/-- The buttons of `TUD_HID_REPORT_DESC_MOUSE` are padded. -/
def buttonsPadding : Field :=
  { direction := .input, isConstant := true, isVariable := false, reportId := 2, usagePage := 9
    usages := [], logicalMin := 0, logicalMax := 1, size := 3, count := 1 }

/-- The usages from `first` on, in one value. -/
def systemField (first logicalMin logicalMax size : ℕ) : Field :=
  { direction := .input, isConstant := false, isVariable := false, reportId := 4, usagePage := 1
    usages := List.range' first (logicalMax - logicalMin + 1), logicalMin := logicalMin, logicalMax := logicalMax
    size := size, count := 1 }

/-- The key of `TUD_HID_REPORT_DESC_SYSTEM_CONTROL` is padded. -/
def systemPadding : Field :=
  { direction := .input, isConstant := true, isVariable := false, reportId := 4, usagePage := 1
    usages := [], logicalMin := 1, logicalMax := 3, size := 6, count := 1 }

theorem inputsOf_keyboard :
    inputsOf hidDefyReportDescriptor hidReportidNkroKeyboard = keyboardInputs := by
  decide +kernel

theorem inputsOf_keyboardHid :
    inputsOf nkroKeyboardHidDescriptor hidReportidNkroKeyboard = keyboardInputs := by
  decide +kernel

theorem inputsOf_mouse : inputsOf hidDefyReportDescriptor hidReportidMouse =
    [buttonsField 5, buttonsPadding, axesField 1 [0x30, 0x31], axesField 1 [0x38], axesField 0x0C [0x238]] := by
  decide +kernel

theorem inputsOf_mouseHid : inputsOf mouseHidDescriptor hidReportidMouse =
    [buttonsField 8, axesField 1 [0x30, 0x31, 0x38], axesField 0x0C [0x238]] := by
  decide +kernel

theorem inputsOf_consumer :
    inputsOf hidDefyReportDescriptor hidReportidConsumercontrol = [slotsField] := by
  decide +kernel

theorem inputsOf_consumerHid :
    inputsOf consumerControlHidDescriptor hidReportidConsumercontrol = [slotsField] := by
  decide +kernel

theorem inputsOf_system :
    inputsOf hidDefyReportDescriptor hidReportidSystemcontrol = [systemField 0x81 1 3 2, systemPadding] := by
  decide +kernel

theorem inputsOf_systemHid :
    inputsOf systemControlHidDescriptor hidReportidSystemcontrol = [systemField 0 0 0xFF 8] := by
  decide +kernel

/-! ## The mouse -/

/-- A movement in a byte; −128 lies outside the logical range. -/
def movement (page usage : ℕ) (b : UInt8) : Option Reading :=
  if b.toInt8.toInt = 0 ∨ b.toInt8.toInt = -128 then none else some ⟨page, usage, b.toInt8.toInt⟩

namespace MouseReport

/-- The first `n` buttons, those that are down. -/
def buttonsDown (r : MouseReport) (n : ℕ) : List Reading :=
  (List.range n).filterMap fun i => if r.buttons.toBitVec.getLsbD i = true then some ⟨9, i + 1, 1⟩ else none

/-- The cursor and the wheels. -/
def movements (r : MouseReport) : List Reading :=
  [movement 1 0x30 r.xAxis.toUInt8, movement 1 0x31 r.yAxis.toUInt8, movement 1 0x38 r.vWheel.toUInt8,
    movement 0x0C 0x238 r.hWheel.toUInt8].filterMap id

end MouseReport

theorem number_axes (page : ℕ) (usages : List ℕ) (b : UInt8) :
    (axesField page usages).number b.toNat = b.toInt8.toInt := by
  show (BitVec.ofNat 8 b.toNat).toInt = _
  rw [show BitVec.ofNat 8 b.toNat = b.toBitVec from BitVec.ofNat_toNat _ _]
  rfl

/-- A movement is read as it is. -/
theorem reading_axes (page : ℕ) (usages : List ℕ) (i : ℕ) (b : UInt8) :
    (axesField page usages).reading i b.toNat = movement page ((axesField page usages).usage i) b := by
  have hrange : (axesField page usages).InRange b.toInt8.toInt ↔ b.toInt8.toInt ≠ -128 := by
    have hle : -128 ≤ b.toInt8.toInt := Int8.le_toInt _
    have hlt : b.toInt8.toInt < 128 := Int8.toInt_lt _
    show -127 ≤ b.toInt8.toInt ∧ b.toInt8.toInt ≤ 127 ↔ _
    omega
  rw [reading_variable rfl, number_axes]
  unfold movement
  by_cases hrest : b.toInt8.toInt = 0 ∨ b.toInt8.toInt = -128
  · rw [if_pos hrest, if_neg]
    rintro ⟨hin, hne⟩
    exact hrest.elim hne (hrange.mp hin)
  · obtain ⟨hzero, hout⟩ := not_or.mp hrest
    rw [if_neg hrest]
    exact if_pos ⟨hrange.mpr hout, hzero⟩

theorem readings_axes (page : ℕ) (usages : List ℕ) (report : Bytes) (k : ℕ) :
    (axesField page usages).readings report (8 * k) = ((List.range usages.length).map fun i =>
      movement page ((axesField page usages).usage i) (report.getD (k + i) 0)).filterMap id := by
  rw [List.filterMap_map]
  refine (readings_of_data rfl).trans (List.filterMap_congr fun i _ => ?_)
  have hat : 8 * k + i * 8 = 8 * (k + i) := by omega
  show (axesField page usages).reading i (value report 8 (8 * k + i * 8)) = _
  rw [hat, value_byte, reading_axes]
  rfl

theorem readings_buttons (r : MouseReport) {n : ℕ} (hn : n ≤ 8) :
    (buttonsField n).readings r.bytes 0 = r.buttonsDown n := by
  refine (readings_of_data rfl).trans (List.filterMap_congr fun i hi => ?_)
  have hi : i < n := List.mem_range.mp hi
  have hvalue : value r.bytes 1 (0 + i * 1) = (r.buttons.toBitVec.getLsbD i).toNat := by
    have hdiv : i / 8 = 0 := by omega
    have hmod : i % 8 = i := by omega
    rw [Nat.zero_add, Nat.mul_one]
    unfold value value bit
    rw [hdiv, hmod, Nat.mul_zero, Nat.add_zero]
    rfl
  have husage : (buttonsField n).usage i = i + 1 := by
    show (List.range' 1 n).getD i _ = i + 1
    rw [List.getD_eq_getElem _ _ (by simpa using hi), List.getElem_range', Nat.one_mul, Nat.add_comm]
  show (buttonsField n).reading i (value r.bytes 1 (0 + i * 1)) = _
  rw [hvalue, reading_flag rfl rfl rfl, husage]
  rfl

/-- The host finds five buttons, and all movements. -/
theorem readings_mouse (r : MouseReport) :
    readingsBy hidDefyReportDescriptor hidReportidMouse r.bytes = r.buttonsDown 5 ++ r.movements := by
  unfold readingsBy
  rw [inputsOf_mouse, readings_cons, readings_buttons r (by decide), readings_cons, readings_constant rfl]
  show r.buttonsDown 5 ++ ([] ++ ((axesField 1 [0x30, 0x31]).readings r.bytes (8 * 1) ++
    ((axesField 1 [0x38]).readings r.bytes (8 * 3) ++
      ((axesField 0x0C [0x238]).readings r.bytes (8 * 4) ++ [])))) = _
  rw [readings_axes, readings_axes, readings_axes, List.nil_append, List.append_nil, ← List.filterMap_append,
    ← List.filterMap_append]
  rfl

/-- The class has eight buttons. -/
theorem readings_mouseHid (r : MouseReport) :
    readingsBy mouseHidDescriptor hidReportidMouse r.bytes = r.buttonsDown 8 ++ r.movements := by
  unfold readingsBy
  rw [inputsOf_mouseHid, readings_cons, readings_buttons r (by decide)]
  show r.buttonsDown 8 ++ ((axesField 1 [0x30, 0x31, 0x38]).readings r.bytes (8 * 1) ++
    ((axesField 0x0C [0x238]).readings r.bytes (8 * 4) ++ [])) = _
  rw [readings_axes, readings_axes, List.append_nil, ← List.filterMap_append]
  rfl

/-! ## The media keys -/

/-- The bytes of words, each with its low byte first. -/
def wordBytes (words : List UInt16) : Bytes := words.flatMap fun w : UInt16 => [w.toUInt8, (w >>> 8).toUInt8]

/-- The bytes of a report. -/
def ConsumerControl.bytes (c : ConsumerControl) : Bytes := wordBytes c.keys.toList

/-- The usages in the slots, as far as the descriptor goes. -/
def ConsumerControl.listed (c : ConsumerControl) : List Reading :=
  c.keys.toList.filterMap fun key => if key.toNat ≠ 0 ∧ key.toNat ≤ 0x3FF then some ⟨0x0C, key.toNat, 1⟩ else none

theorem toNat_word (w : UInt16) : w.toUInt8.toNat + 256 * (w >>> 8).toUInt8.toNat = w.toNat := by
  have hlt := w.toNat_lt
  have hshift : (w >>> 8).toNat = w.toNat / 256 := by
    rw [UInt16.toNat_shiftRight, Nat.shiftRight_eq_div_pow]
    rfl
  rw [UInt16.toNat_toUInt8, UInt16.toNat_toUInt8, hshift]
  omega

theorem value_wordBytes (words : List UInt16) (i : ℕ) :
    value (wordBytes words) 16 (8 * (2 * i)) = (words.getD i 0).toNat := by
  have hbytes : ∀ (words : List UInt16) (i : ℕ), (wordBytes words).getD (2 * i) 0 = (words.getD i 0).toUInt8 ∧
      (wordBytes words).getD (2 * i + 1) 0 = (words.getD i 0 >>> 8).toUInt8 := by
    intro words
    induction words with
    | nil => exact fun i => by simp [wordBytes]
    | cons w words ih =>
      intro i
      cases i with
      | zero => exact ⟨rfl, rfl⟩
      | succ i => exact ih i
  rw [value_word, (hbytes words i).1, (hbytes words i).2, toNat_word]

/-- The host finds the usages that the slots hold. -/
theorem readings_slots (c : ConsumerControl) : slotsField.readings c.bytes 0 = c.listed := by
  have hkeys : c.keys.toList = (List.range 4).map fun i => c.keys.toList.getD i 0 := by
    refine List.ext_getElem (by simp) fun i hi _ => ?_
    rw [List.getElem_map, List.getElem_range, List.getD_eq_getElem _ _ hi]
  have hread : ∀ i, slotsField.reading i (value c.bytes 16 (0 + i * 16)) =
      if (c.keys.toList.getD i 0).toNat ≠ 0 ∧ (c.keys.toList.getD i 0).toNat ≤ 0x3FF then
        some ⟨0x0C, (c.keys.toList.getD i 0).toNat, 1⟩ else none := by
    intro i
    have hat : 0 + i * 16 = 8 * (2 * i) := by omega
    rw [hat, ConsumerControl.bytes, value_wordBytes]
    have husages : slotsField.usages = List.range' 0 (slotsField.logicalMax - slotsField.logicalMin + 1) := rfl
    rw [reading_array rfl (by decide) husages]
    refine if_congr ?_ ?_ rfl
    · show (0 ≤ _ ∧ _ ≤ 0x3FF) ∧ 0 + (_ - 0) ≠ 0 ↔ _
      omega
    · rw [Nat.zero_add]
      rfl
  unfold ConsumerControl.listed
  rw [hkeys, List.filterMap_map]
  exact (readings_of_data rfl).trans (List.filterMap_congr fun i _ => hread i)

/-! ## The system keys -/

/-- A system key in one byte. -/
theorem readings_systemField (s : UInt8) {first logicalMin logicalMax size : ℕ} (hle : logicalMin ≤ logicalMax)
    (hsize : size ≤ 8) : (systemField first logicalMin logicalMax size).readings [s] 0 =
      (if (logicalMin ≤ s.toNat % 2 ^ size ∧ s.toNat % 2 ^ size ≤ logicalMax) ∧
          first + (s.toNat % 2 ^ size - logicalMin) ≠ 0 then
        some ⟨1, first + (s.toNat % 2 ^ size - logicalMin), 1⟩ else none : Option Reading).toList := by
  have hvalue : value [s] size 0 = s.toNat % 2 ^ size := by
    have hbits := value_of_byte [s] 0 (j := 0) (s := size) (by omega)
    rw [Nat.pow_zero, Nat.div_one] at hbits
    exact hbits
  rw [readings_one rfl rfl]
  show ((systemField first logicalMin logicalMax size).reading 0 (value [s] size 0)).toList = _
  rw [hvalue, reading_array rfl hle rfl]
  rfl

/-- The host finds the low two bits of a system key. -/
theorem readings_system (s : UInt8) : readingsBy hidDefyReportDescriptor hidReportidSystemcontrol [s] =
    if s.toNat % 4 = 0 then [] else [⟨1, 0x80 + s.toNat % 4, 1⟩] := by
  have hpow : 2 ^ 2 = 4 := rfl
  unfold readingsBy
  rw [inputsOf_system, readings_cons, readings_systemField s (by decide) (by decide), hpow, readings_cons,
    readings_constant (f := systemPadding) rfl, readings_nil, List.append_nil, List.append_nil]
  by_cases hzero : s.toNat % 4 = 0
  · rw [if_pos hzero, if_neg (by omega)]
    rfl
  · rw [if_neg hzero, if_pos (by omega), show 0x81 + (s.toNat % 4 - 1) = 0x80 + s.toNat % 4 by omega]
    rfl

/-- The class has a key of a byte. -/
theorem readings_systemHid (s : UInt8) : readingsBy systemControlHidDescriptor hidReportidSystemcontrol [s] =
    if s = 0 then [] else [⟨1, s.toNat, 1⟩] := by
  have hmod : s.toNat % 2 ^ 8 = s.toNat := Nat.mod_eq_of_lt s.toNat_lt
  have hle : s.toNat ≤ 0xFF := Nat.le_of_lt_succ s.toNat_lt
  have hs : s = 0 ↔ s.toNat = 0 := UInt8.toNat_inj.symm
  unfold readingsBy
  rw [inputsOf_systemHid, readings_cons, readings_systemField s (by decide) (by decide), hmod, readings_nil,
    List.append_nil, Nat.sub_zero, Nat.zero_add]
  by_cases hzero : s = 0
  · rw [if_pos hzero, if_neg fun hf => hf.2 (hs.mp hzero)]
    rfl
  · rw [if_neg hzero, if_pos ⟨⟨Nat.zero_le _, hle⟩, fun hf => hzero (hs.mpr hf)⟩]
    rfl

/-- The two agree on no key and on the three that the template names. -/
theorem readings_system_eq_iff (s : UInt8) : readingsBy hidDefyReportDescriptor hidReportidSystemcontrol [s] =
      readingsBy systemControlHidDescriptor hidReportidSystemcontrol [s] ↔
    s = 0 ∨ s = 0x81 ∨ s = 0x82 ∨ s = 0x83 := by
  have heq : ∀ k : UInt8, s = k ↔ s.toNat = k.toNat := fun k => UInt8.toNat_inj.symm
  have hlt : s.toNat < 256 := s.toNat_lt
  rw [readings_system, readings_systemHid]
  simp only [heq]
  show _ ↔ s.toNat = 0 ∨ s.toNat = 129 ∨ s.toNat = 130 ∨ s.toNat = 131
  by_cases hlow : s.toNat % 4 = 0
  · by_cases hzero : s.toNat = 0
    · simp [hzero]
    · simp only [hlow, hzero, if_true, if_false, UInt8.toNat_zero, false_or]
      exact iff_of_false (List.cons_ne_nil _ _).symm (by omega)
  · have hzero : s.toNat ≠ 0 := by omega
    simp only [hlow, hzero, if_false, UInt8.toNat_zero, false_or, List.cons.injEq, Reading.mk.injEq, true_and,
      and_true]
    omega

/-! ## The two descriptors of an interface -/

section Filter

variable (r : MouseReport)

theorem mem_buttonsDown {n : ℕ} {ρ : Reading} (h : ρ ∈ r.buttonsDown n) : ρ.page = 9 ∧ ρ.usage ≤ n := by
  obtain ⟨i, hi, hsome⟩ := List.mem_filterMap.mp h
  split_ifs at hsome
  obtain rfl := Option.some.inj hsome
  exact ⟨rfl, List.mem_range.mp hi⟩

theorem page_movement {page usage : ℕ} {b : UInt8} {ρ : Reading} (h : movement page usage b = some ρ) :
    ρ.page = page := by
  unfold movement at h
  split_ifs at h
  obtain rfl := Option.some.inj h
  rfl

theorem page_movements {ρ : Reading} (h : ρ ∈ r.movements) : ρ.page ≠ 9 := by
  obtain ⟨o, ho, hsome⟩ := List.mem_filterMap.mp h
  rcases List.mem_cons.mp ho with rfl | ho
  · rw [page_movement hsome]
    decide
  rcases List.mem_cons.mp ho with rfl | ho
  · rw [page_movement hsome]
    decide
  rcases List.mem_cons.mp ho with rfl | ho
  · rw [page_movement hsome]
    decide
  · obtain rfl := List.mem_singleton.mp ho
    rw [page_movement hsome]
    decide

/-- The buttons from the sixth on are left out. -/
theorem filter_buttonsDown :
    (r.buttonsDown 8).filter (fun ρ => ρ.page ≠ 9 ∨ ρ.usage ≤ 5) = r.buttonsDown 5 := by
  have hsplit : r.buttonsDown 8 = r.buttonsDown 5 ++ [5, 6, 7].filterMap fun i =>
      if r.buttons.toBitVec.getLsbD i = true then some (⟨9, i + 1, 1⟩ : Reading) else none :=
    List.filterMap_append (l := List.range 5)
  rw [hsplit, List.filter_append, List.filter_eq_self.mpr, List.filter_eq_nil_iff.mpr, List.append_nil]
  · intro ρ hρ
    obtain ⟨i, hi, hsome⟩ := List.mem_filterMap.mp hρ
    have hlt : 4 < i := by
      simp only [List.mem_cons, List.not_mem_nil, or_false] at hi
      omega
    split_ifs at hsome
    obtain rfl := Option.some.inj hsome
    intro hkept
    rcases of_decide_eq_true hkept with hpage | hle
    · exact hpage rfl
    · have hle : i + 1 ≤ 5 := hle
      omega
  · exact fun ρ hρ => decide_eq_true (.inr (mem_buttonsDown r hρ).2)

end Filter

/-- **Where the descriptors agree.**  The host finds in a report what the class has put into it, with these
exceptions: the buttons of the mouse from the sixth on are lost, and of a system key only the low two bits
count, so that all but power down, sleep and wake up are lost or taken for another. -/
theorem descriptors_agree :
    (∀ r : KeyboardReport, readingsBy hidDefyReportDescriptor hidReportidNkroKeyboard r.allkeys =
      readingsBy nkroKeyboardHidDescriptor hidReportidNkroKeyboard r.allkeys) ∧
    (∀ r : MouseReport, readingsBy hidDefyReportDescriptor hidReportidMouse r.bytes =
      (readingsBy mouseHidDescriptor hidReportidMouse r.bytes).filter fun ρ => ρ.page ≠ 9 ∨ ρ.usage ≤ 5) ∧
    (∀ c : ConsumerControl, readingsBy hidDefyReportDescriptor hidReportidConsumercontrol c.bytes =
      readingsBy consumerControlHidDescriptor hidReportidConsumercontrol c.bytes) ∧
    ∀ s : UInt8,
      (readingsBy hidDefyReportDescriptor hidReportidSystemcontrol [s] =
          readingsBy systemControlHidDescriptor hidReportidSystemcontrol [s] ↔
        s = 0 ∨ s = 0x81 ∨ s = 0x82 ∨ s = 0x83) ∧
      readingsBy hidDefyReportDescriptor hidReportidSystemcontrol [s] =
        (if s.toNat % 4 = 0 then [] else [⟨1, 0x80 + s.toNat % 4, 1⟩]) ∧
      readingsBy systemControlHidDescriptor hidReportidSystemcontrol [s] =
        if s = 0 then [] else [⟨1, s.toNat, 1⟩] := by
  refine ⟨fun r => ?_, fun r => ?_, fun c => ?_, fun s => ?_⟩
  · unfold readingsBy
    rw [inputsOf_keyboard, inputsOf_keyboardHid]
  · have hmove : r.movements.filter (fun ρ => ρ.page ≠ 9 ∨ ρ.usage ≤ 5) = r.movements :=
      List.filter_eq_self.mpr fun ρ hρ => decide_eq_true (.inl (page_movements r hρ))
    rw [readings_mouse, readings_mouseHid, List.filter_append, filter_buttonsDown, hmove]
  · unfold readingsBy
    rw [inputsOf_consumer, inputsOf_consumerHid]
  · exact ⟨readings_system_eq_iff s, readings_system s, readings_systemHid s⟩

end NeuronWired
