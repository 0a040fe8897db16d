import NeuronWired.Cint

/-!
# Keyboard — the NKRO keyboard report (`Keyboard.h`, `Keyboard.cpp`)

`Keyboard_` keeps the report under construction and the last report that it has transmitted: a byte of
modifiers and a bitmap of keys.
-/

namespace NeuronWired

/-! ## Key codes (`HIDTables.h`, `HIDAliases.h`) -/

/-- `HID_KEYBOARD_A_AND_A`. -/
def hidKeyboardAAndA : UInt8 := 0x04

/-- `HID_LAST_KEY`. -/
def hidLastKey : UInt8 := 0xDD

/-- `HID_KEYBOARD_FIRST_MODIFIER`. -/
def hidKeyboardFirstModifier : UInt8 := 0xE0

/-- `HID_KEYBOARD_LAST_MODIFIER`. -/
def hidKeyboardLastModifier : UInt8 := 0xE7

/-- `HID_REPORTID_NKRO_KEYBOARD`. -/
def hidReportidNkroKeyboard : UInt8 := 1

/-- `KEY_BITS`. -/
def keyBits : ℕ := 4 + hidLastKey.toNat - hidKeyboardAAndA.toNat + 1

/-- `KEY_BYTES`. -/
def keyBytes : ℕ := (keyBits + 7) / 8

theorem keyByte_lt {k : UInt8} (h : k ≤ hidLastKey) : k.toNat / 8 < keyBytes := by
  have hle : k.toNat ≤ 221 := UInt8.le_iff_toNat_le.mp h
  have hbytes : keyBytes = 28 := rfl
  omega

/-- The byte of a key in the bitmap, `k / 8`. -/
def keyByte {k : UInt8} (h : k ≤ hidLastKey) : Fin keyBytes := ⟨k.toNat / 8, keyByte_lt h⟩

/-! ## Reports -/

/-- `HID_KeyboardReport_Data_t`. -/
structure KeyboardReport where
  modifiers : UInt8
  keys : Vector UInt8 keyBytes
  deriving DecidableEq, Repr

/-- `allkeys`: all bytes of the report. -/
def KeyboardReport.allkeys (r : KeyboardReport) : Bytes := r.modifiers :: r.keys.toList

/-- A report with all bytes zero. -/
def KeyboardReport.cleared : KeyboardReport := ⟨0, Vector.replicate keyBytes 0⟩

@[simp] theorem length_allkeys (r : KeyboardReport) : r.allkeys.length = 29 := by
  unfold KeyboardReport.allkeys
  rw [List.length_cons, Vector.length_toList]
  rfl

/-- `Keyboard_`. -/
structure Keyboard where
  report : KeyboardReport
  lastReport : KeyboardReport
  deriving DecidableEq, Repr

namespace Keyboard

/-! ## Keys -/

/-- `isKeyPressed`. -/
def isKeyPressed (kb : Keyboard) (k : UInt8) : Bool :=
  if h : k ≤ hidLastKey then
    let bit : UInt8 := 1 <<< (k % 8)
    (kb.report.keys[keyByte h] &&& bit) != 0
  else false

/-- `isModifierActive`. -/
def isModifierActive (kb : Keyboard) (k : UInt8) : Bool :=
  if k ≥ hidKeyboardFirstModifier ∧ k ≤ hidKeyboardLastModifier then
    (kb.report.modifiers &&& 1 <<< (k - hidKeyboardFirstModifier)) != 0
  else false

/-- `press`. -/
def press (kb : Keyboard) (k : UInt8) : ℕ × Keyboard :=
  if h : k ≤ hidLastKey then
    let bit : UInt8 := 1 <<< (k % 8)
    let byte := kb.report.keys[keyByte h]
    (1, { kb with report.keys := kb.report.keys.set (keyByte h) (byte ||| bit) })
  else if k ≥ hidKeyboardFirstModifier ∧ k ≤ hidKeyboardLastModifier then
    let bit : UInt8 := 1 <<< (k - hidKeyboardFirstModifier)
    (1, { kb with report.modifiers := kb.report.modifiers ||| bit })
  else (0, kb)

/-- `release`. -/
def release (kb : Keyboard) (k : UInt8) : ℕ × Keyboard :=
  if h : k ≤ hidLastKey then
    let bit : UInt8 := 1 <<< (k % 8)
    let byte := kb.report.keys[keyByte h]
    (1, { kb with report.keys := kb.report.keys.set (keyByte h) (byte &&& ~~~bit) })
  else if k ≥ hidKeyboardFirstModifier ∧ k ≤ hidKeyboardLastModifier then
    let bit : UInt8 := 1 <<< (k - hidKeyboardFirstModifier)
    (1, { kb with report.modifiers := kb.report.modifiers &&& ~~~bit })
  else (0, kb)

/-- `releaseAll`. -/
def releaseAll (kb : Keyboard) : Keyboard := { kb with report := .cleared }

/-! ## `sendReport` -/

/-- One round of the loop of `sendReport`: the keys released in byte `i` are removed from the last report. -/
def releasedByte (report : Vector UInt8 keyBytes) (s : Vector UInt8 keyBytes × Bool) (i : Fin keyBytes) :
    Vector UInt8 keyBytes × Bool :=
  let releasedKeycodes := s.1[i] &&& ~~~report[i]
  if releasedKeycodes ≠ 0 then (s.1.set i (s.1[i] &&& ~~~releasedKeycodes), true) else s

/-- The loop; and whether a key was released (`non_modifiers_toggled_off`). -/
def removeReleased (report last : Vector UInt8 keyBytes) : Vector UInt8 keyBytes × Bool :=
  (List.finRange keyBytes).foldl (releasedByte report) (last, false)

/-- `sendReport`; and the reports that `sendReportUnchecked` transmits, one after another. -/
def sendReport (kb : Keyboard) : Keyboard × List KeyboardReport :=
  let oldModifiers := kb.lastReport.modifiers
  let newModifiers := kb.report.modifiers
  let changedModifiers := oldModifiers ^^^ newModifiers
  let r : KeyboardReport × List KeyboardReport :=
    if changedModifiers ≠ 0 then
      let released := removeReleased kb.report.keys kb.lastReport.keys
      let last := { kb.lastReport with keys := released.1 }
      let modified := { last with modifiers := newModifiers }
      (modified, (if released.2 = true then [last] else []) ++ [modified])
    else (kb.lastReport, [])
  if r.1.keys ≠ kb.report.keys then
    let last := { r.1 with keys := kb.report.keys }
    ({ kb with lastReport := last }, r.2 ++ [last])
  else ({ kb with lastReport := r.1 }, r.2)

end Keyboard

end NeuronWired
