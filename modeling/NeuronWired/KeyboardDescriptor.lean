import NeuronWired.Hid.Descriptor
import NeuronWired.Keyboard
import NeuronWired.Run.Basic
import Mathlib.Data.Set.Insert
import Mathlib.Data.List.GetD

/-!
# KeyboardDescriptor — the report against its descriptor (`hidDefy.h`, `DescriptorPrimitives.h`)

`press` and `release` compute the byte and the bit of a key from its code.  The host computes them from the
keyboard collection of `HID_DEFY_REPORT_DESCRIPTOR`: modifiers, four bits of padding, the keys from
`HID_KEYBOARD_A_AND_A` on, and two bits of padding.
-/

namespace NeuronWired

open HidDescriptor

/-! ## The descriptor -/

def dUsagePage : UInt8 := 0x05
def dUsage : UInt8 := 0x09
def dReportId : UInt8 := 0x85
def dUsageMinimum : UInt8 := 0x19
def dUsageMaximum : UInt8 := 0x29
def dLogicalMinimum : UInt8 := 0x15
def dLogicalMaximum : UInt8 := 0x25
def dReportSize : UInt8 := 0x75
def dReportCount : UInt8 := 0x95
def dInput : UInt8 := 0x81
def dOutput : UInt8 := 0x91
def dCollection : UInt8 := 0xA1
def dEndCollection : UInt8 := 0xC0
def dConstant : UInt8 := 0x01
/-- `D_DATA | D_VARIABLE | D_ABSOLUTE`. -/
def dDataVariableAbsolute : UInt8 := 0x02
def dApplication : UInt8 := 0x01
def dPageGenericDesktop : UInt8 := 0x01
def dPageKeyboard : UInt8 := 0x07
def dPageLeds : UInt8 := 0x08
def dUsageKeyboard : UInt8 := 0x06

/-- `KEYBITS_PADDING`.  `hid_report_descriptor.cpp` includes `hidDefy.h` first, so `KEY_BITS` is defined
where the macro is chosen. -/
def keybitsPadding : List UInt8 :=
  if keyBits % 8 ≠ 0 then
    [dReportSize, UInt8.ofNat (8 - keyBits % 8), dReportCount, 0x01, dInput, dConstant]
  else []

/-- The keyboard collection of `HID_DEFY_REPORT_DESCRIPTOR`. -/
def keyboardCollection : List UInt8 :=
  [dUsagePage, dPageGenericDesktop, dUsage, dUsageKeyboard, dCollection, dApplication,
    dReportId, hidReportidNkroKeyboard,
    dUsagePage, dPageKeyboard,
    -- Key modifier byte
    dUsageMinimum, hidKeyboardFirstModifier, dUsageMaximum, hidKeyboardLastModifier,
    dLogicalMinimum, 0x00, dLogicalMaximum, 0x01, dReportSize, 0x01, dReportCount, 0x08,
    dInput, dDataVariableAbsolute,
    -- 5 LEDs for num lock etc, 3 left for advanced, custom usage
    dUsagePage, dPageLeds, dUsageMinimum, 0x01, dUsageMaximum, 0x08, dReportCount, 0x08,
    dReportSize, 0x01, dOutput, dDataVariableAbsolute,
    -- NKRO Keyboard
    dUsagePage, dPageKeyboard,
    -- Padding 4 bits, to skip NO_EVENT & 3 error states.
    dReportSize, 0x04, dReportCount, 0x01, dInput, dConstant,
    dUsageMinimum, hidKeyboardAAndA, dUsageMaximum, hidLastKey,
    dLogicalMinimum, 0x00, dLogicalMaximum, 0x01, dReportSize, 0x01,
    dReportCount, UInt8.ofNat (keyBits - 4), dInput, dDataVariableAbsolute] ++
  keybitsPadding ++ [dEndCollection]

/-- The input fields of the keyboard report. -/
def keyboardInputs : List Field :=
  inputs hidReportidNkroKeyboard.toNat ((fields keyboardCollection).getD [])

/-- A field of flags for consecutive keyboard usages. -/
def flagsField (first count : ℕ) : Field :=
  { direction := .input, isConstant := false, isVariable := true, reportId := 1, usagePage := 7
    usages := List.range' first count, logicalMin := 0, logicalMax := 1, size := 1, count := count }

/-- A field of padding. -/
def paddingField (size : ℕ) : Field :=
  { direction := .input, isConstant := true, isVariable := false, reportId := 1, usagePage := 7
    usages := [], logicalMin := 0, logicalMax := 1, size := size, count := 1 }

theorem keyboardInputs_eq : keyboardInputs =
    [flagsField 0xE0 8, paddingField 4, flagsField 0x04 218, paddingField 2] := by
  decide +kernel

/-! ## The calls -/

/-- A call that changes the report under construction. -/
inductive KeyCall where
  | press (k : UInt8)
  | release (k : UInt8)
  | releaseAll
  deriving DecidableEq, Repr

/-- One call. -/
def Keyboard.call (kb : Keyboard) : KeyCall → Keyboard
  | .press k => (kb.press k).2
  | .release k => (kb.release k).2
  | .releaseAll => kb.releaseAll

/-- The codes that are pressed and not released since. -/
def held (codes : Set ℕ) : KeyCall → Set ℕ
  | .press k => insert k.toNat codes
  | .release k => codes \ {k.toNat}
  | .releaseAll => ∅

/-- The usages that the report has room for. -/
def Reportable (u : ℕ) : Prop := (0x04 ≤ u ∧ u ≤ 0xDD) ∨ (0xE0 ≤ u ∧ u ≤ 0xE7)

/-- The usages that a host finds in the report, with their page. -/
def decoded (kb : Keyboard) : List (ℕ × ℕ) := decode kb.report.allkeys keyboardInputs 0

/-! ## The bits of a report -/

/-- The codes that have a bit in the report. -/
def HasBit (u : ℕ) : Prop := u ≤ 0xDD ∨ (0xE0 ≤ u ∧ u ≤ 0xE7)

/-- The bit of a code in the report. -/
def codeBit (r : KeyboardReport) (u : ℕ) : Bool :=
  if u ≤ 0xDD then bit r.allkeys (8 + u) else bit r.allkeys (u - 0xE0)

theorem bit_modifier (r : KeyboardReport) {j : ℕ} (hj : j < 8) :
    bit r.allkeys j = r.modifiers.toBitVec.getLsbD j := by
  have hdiv : j / 8 = 0 := by omega
  have hmod : j % 8 = j := by omega
  unfold bit KeyboardReport.allkeys
  rw [hdiv, hmod, List.getD_cons_zero]

theorem bit_key (r : KeyboardReport) {u : ℕ} (i : Fin keyBytes) (hi : u / 8 = i) :
    bit r.allkeys (8 + u) = (r.keys.get i).toBitVec.getLsbD (u % 8) := by
  have hdiv : (8 + u) / 8 = i.1 + 1 := by omega
  have hmod : (8 + u) % 8 = u % 8 := by omega
  unfold bit KeyboardReport.allkeys
  rw [hdiv, hmod, List.getD_cons_succ, List.getD_eq_getElem _ _ (by simp), Vector.getElem_toList]
  rfl

/-- `1 << m`. -/
theorem getLsbD_one_shift (m j : Fin 8) :
    ((1 : UInt8) <<< UInt8.ofNat m.1).toBitVec.getLsbD j.1 = decide (j.1 = m.1) := by
  revert m j
  decide

section Masks

variable (b m : UInt8) {j : ℕ}

theorem getLsbD_mask (hm : m.toNat < 8) (hj : j < 8) :
    ((1 : UInt8) <<< m).toBitVec.getLsbD j = decide (j = m.toNat) := by
  have h := getLsbD_one_shift ⟨m.toNat, hm⟩ ⟨j, hj⟩
  rwa [UInt8.ofNat_toNat] at h

theorem getLsbD_or_mask (hm : m.toNat < 8) (hj : j < 8) :
    (b ||| 1 <<< m).toBitVec.getLsbD j = if j = m.toNat then true else b.toBitVec.getLsbD j := by
  rw [UInt8.toBitVec_or, BitVec.getLsbD_or, getLsbD_mask m hm hj]
  by_cases h : j = m.toNat <;> simp [h]

theorem getLsbD_and_not_mask (hm : m.toNat < 8) (hj : j < 8) :
    (b &&& ~~~(1 <<< m)).toBitVec.getLsbD j =
      if j = m.toNat then false else b.toBitVec.getLsbD j := by
  rw [UInt8.toBitVec_and, UInt8.toBitVec_not, BitVec.getLsbD_and, BitVec.getLsbD_not,
    getLsbD_mask m hm hj]
  by_cases h : j = m.toNat <;> simp [h, hj]

/-- The test of `isKeyPressed` and `isModifierActive`. -/
theorem and_mask_ne_zero (hm : m.toNat < 8) : ((b &&& 1 <<< m) != 0) = b.toBitVec.getLsbD m.toNat := by
  have hbits : ∀ j < 8, (b &&& 1 <<< m).toBitVec.getLsbD j =
      (b.toBitVec.getLsbD j && decide (j = m.toNat)) := by
    intro j hj
    rw [UInt8.toBitVec_and, BitVec.getLsbD_and, getLsbD_mask m hm hj]
  cases hbit : b.toBitVec.getLsbD m.toNat with
  | true =>
    have hset := hbits m.toNat hm
    rw [hbit, decide_eq_true rfl] at hset
    refine bne_iff_ne.mpr fun hzero => ?_
    rw [hzero] at hset
    exact absurd hset (by simp)
  | false =>
    have hzero : b &&& 1 <<< m = 0 := by
      refine UInt8.toBitVec_inj.mp (BitVec.eq_of_getLsbD_eq fun j hj => ?_)
      rw [hbits j hj]
      by_cases heq : j = m.toNat
      · rw [heq, hbit]
        simp
      · simp [heq]
    rw [hzero]
    rfl

end Masks

/-! ## What a call writes -/

/-- The bit of `k` is `v`, and every other code has the bit it had. -/
def Writes (r r' : KeyboardReport) (k : ℕ) (v : Bool) : Prop :=
  ∀ u, HasBit u → codeBit r' u = if u = k then v else codeBit r u

section Writes

variable {r : KeyboardReport} {k : UInt8} {v : Bool} {b : UInt8}

/-- Another byte of the bitmap, with the bit of `k` set to `v`. -/
theorem writes_key {r' : KeyboardReport} (h : k ≤ hidLastKey) (hmods : r'.modifiers = r.modifiers)
    (hself : r'.keys.get (keyByte h) = b) (hothers : ∀ i, keyByte h ≠ i → r'.keys.get i = r.keys.get i)
    (hb : ∀ j < 8, b.toBitVec.getLsbD j =
      if j = (k % 8).toNat then v else (r.keys.get (keyByte h)).toBitVec.getLsbD j) :
    Writes r r' k.toNat v := by
  have hk : k.toNat ≤ 221 := UInt8.le_iff_toNat_le.mp h
  have hmod : (k % 8).toNat = k.toNat % 8 := UInt8.toNat_mod k 8
  rw [hmod] at hb
  intro u hu
  unfold codeBit
  by_cases hle : u ≤ 0xDD
  · have hlt : u / 8 < keyBytes := by
      have hbytes : keyBytes = 28 := rfl
      omega
    rw [if_pos hle, if_pos hle, bit_key _ ⟨u / 8, hlt⟩ rfl, bit_key _ ⟨u / 8, hlt⟩ rfl]
    by_cases hbyte : keyByte h = ⟨u / 8, hlt⟩
    · have hdiv : k.toNat / 8 = u / 8 := congrArg Fin.val hbyte
      rw [← hbyte, hself, hb _ (by omega)]
      by_cases heq : u = k.toNat
      · rw [if_pos heq, if_pos (by omega)]
      · rw [if_neg heq, if_neg (by omega)]
    · have hne : u ≠ k.toNat := by
        rintro rfl
        exact hbyte rfl
      rw [hothers _ hbyte, if_neg hne]
  · rw [if_neg hle, if_neg hle, if_neg (by omega)]
    have hrange : 0xE0 ≤ u ∧ u ≤ 0xE7 := hu.resolve_left hle
    rw [bit_modifier _ (by omega), bit_modifier _ (by omega), hmods]

/-- The modifiers with the bit of `k` set to `v`. -/
theorem writes_modifier (hfirst : k ≥ hidKeyboardFirstModifier) (hlast : k ≤ hidKeyboardLastModifier)
    (hb : ∀ j < 8, b.toBitVec.getLsbD j =
      if j = (k - hidKeyboardFirstModifier).toNat then v else r.modifiers.toBitVec.getLsbD j) :
    Writes r { r with modifiers := b } k.toNat v := by
  have hge : 224 ≤ k.toNat := UInt8.le_iff_toNat_le.mp hfirst
  have hle : k.toNat ≤ 231 := UInt8.le_iff_toNat_le.mp hlast
  have hsub : (k - hidKeyboardFirstModifier).toNat = k.toNat - 224 := UInt8.toNat_sub_of_le _ _ hfirst
  rw [hsub] at hb
  intro u hu
  unfold codeBit
  by_cases hkey : u ≤ 0xDD
  · have hlt : u / 8 < keyBytes := by
      have hbytes : keyBytes = 28 := rfl
      omega
    rw [if_pos hkey, if_pos hkey, if_neg (by omega), bit_key _ ⟨u / 8, hlt⟩ rfl,
      bit_key _ ⟨u / 8, hlt⟩ rfl]
  · have hrange : 0xE0 ≤ u ∧ u ≤ 0xE7 := hu.resolve_left hkey
    have hj : u - 0xE0 < 8 := by omega
    rw [if_neg hkey, if_neg hkey, bit_modifier _ hj, bit_modifier _ hj]
    refine (hb _ hj).trans ?_
    by_cases heq : u = k.toNat
    · rw [if_pos heq, if_pos (by omega)]
    · rw [if_neg heq, if_neg (by omega)]

/-- A code without a bit writes nothing. -/
theorem writes_none (hkey : ¬ k ≤ hidLastKey)
    (hmod : ¬(k ≥ hidKeyboardFirstModifier ∧ k ≤ hidKeyboardLastModifier)) :
    Writes r r k.toNat v := by
  intro u hu
  have hne : u ≠ k.toNat := by
    rintro rfl
    rcases hu with hle | ⟨hge, hle⟩
    · exact hkey (UInt8.le_iff_toNat_le.mpr hle)
    · exact hmod ⟨UInt8.le_iff_toNat_le.mpr hge, UInt8.le_iff_toNat_le.mpr hle⟩
  rw [if_neg hne]

theorem mod_lt (k : UInt8) : (k % 8).toNat < 8 := by
  rw [UInt8.toNat_mod]
  exact Nat.mod_lt _ (by decide)

theorem modifier_lt (hfirst : k ≥ hidKeyboardFirstModifier) (hlast : k ≤ hidKeyboardLastModifier) :
    (k - hidKeyboardFirstModifier).toNat < 8 := by
  have hle : k.toNat ≤ 231 := UInt8.le_iff_toNat_le.mp hlast
  rw [UInt8.toNat_sub_of_le _ _ hfirst]
  show k.toNat - 224 < 8
  omega

theorem writes_press (kb : Keyboard) (k : UInt8) :
    Writes kb.report (kb.press k).2.report k.toNat true := by
  unfold Keyboard.press
  split_ifs with hkey hmod
  · exact writes_key hkey rfl (Vector.getElem_set_self _)
      (fun i hi => Vector.getElem_set_ne (keyByte hkey).2 i.2 fun heq => hi (Fin.ext heq))
      fun j hj => getLsbD_or_mask _ _ (mod_lt k) hj
  · exact writes_modifier hmod.1 hmod.2 fun j hj => getLsbD_or_mask _ _ (modifier_lt hmod.1 hmod.2) hj
  · exact writes_none hkey hmod

theorem writes_release (kb : Keyboard) (k : UInt8) :
    Writes kb.report (kb.release k).2.report k.toNat false := by
  unfold Keyboard.release
  split_ifs with hkey hmod
  · exact writes_key hkey rfl (Vector.getElem_set_self _)
      (fun i hi => Vector.getElem_set_ne (keyByte hkey).2 i.2 fun heq => hi (Fin.ext heq))
      fun j hj => getLsbD_and_not_mask _ _ (mod_lt k) hj
  · exact writes_modifier hmod.1 hmod.2 fun j hj =>
      getLsbD_and_not_mask _ _ (modifier_lt hmod.1 hmod.2) hj
  · exact writes_none hkey hmod

theorem codeBit_cleared {u : ℕ} (hu : HasBit u) : codeBit .cleared u = false := by
  unfold codeBit
  by_cases hle : u ≤ 0xDD
  · have hlt : u / 8 < keyBytes := by
      have hbytes : keyBytes = 28 := rfl
      omega
    rw [if_pos hle, bit_key _ ⟨u / 8, hlt⟩ rfl]
    show (Vector.replicate keyBytes (0 : UInt8))[u / 8].toBitVec.getLsbD (u % 8) = false
    rw [Vector.getElem_replicate]
    exact BitVec.getLsbD_zero
  · rw [if_neg hle, bit_modifier _ (by unfold HasBit at hu; omega)]
    exact BitVec.getLsbD_zero

end Writes

/-! ## The codes that are held -/

/-- The bits of the report are the codes that are held. -/
def Agrees (r : KeyboardReport) (codes : Set ℕ) : Prop :=
  ∀ u, HasBit u → (codeBit r u = true ↔ u ∈ codes)

theorem agrees_call {kb : Keyboard} {codes : Set ℕ} (h : Agrees kb.report codes) (c : KeyCall) :
    Agrees (kb.call c).report (held codes c) := by
  intro u hu
  cases c with
  | press k =>
    show codeBit (kb.press k).2.report u = true ↔ u ∈ insert k.toNat codes
    rw [writes_press kb k u hu, Set.mem_insert_iff]
    by_cases heq : u = k.toNat
    · simp [heq]
    · simp only [heq, if_false, false_or, h u hu]
  | release k =>
    show codeBit (kb.release k).2.report u = true ↔ u ∈ codes \ {k.toNat}
    rw [writes_release kb k u hu, Set.mem_sdiff, Set.mem_singleton_iff]
    by_cases heq : u = k.toNat
    · simp [heq]
    · simp only [heq, if_false, not_false_eq_true, and_true, h u hu]
  | releaseAll =>
    show codeBit .cleared u = true ↔ u ∈ (∅ : Set ℕ)
    rw [codeBit_cleared hu]
    simp

theorem agrees_run (calls : List KeyCall) {kb : Keyboard} {codes : Set ℕ}
    (h : Agrees kb.report codes) :
    Agrees (Run.after Keyboard.call kb calls).report (Run.after held codes calls) := by
  induction calls generalizing kb codes with
  | nil => exact h
  | cons c calls ih => exact ih (agrees_call h c)

/-- `isKeyPressed` and `isModifierActive` find the codes that are held. -/
theorem isKeyPressed_iff {kb : Keyboard} {codes : Set ℕ} (h : Agrees kb.report codes) (k : UInt8) :
    kb.isKeyPressed k = true ↔ k ≤ hidLastKey ∧ k.toNat ∈ codes := by
  unfold Keyboard.isKeyPressed
  by_cases hkey : k ≤ hidLastKey
  · have hle : k.toNat ≤ 0xDD := UInt8.le_iff_toNat_le.mp hkey
    have hcode : codeBit kb.report k.toNat = (kb.report.keys[keyByte hkey] &&& 1 <<< (k % 8) != 0) := by
      unfold codeBit
      rw [if_pos hle, bit_key _ (keyByte hkey) rfl, and_mask_ne_zero _ _ (mod_lt k), UInt8.toNat_mod]
      rfl
    rw [dif_pos hkey, and_iff_right hkey, ← h k.toNat (.inl hle), hcode]
  · rw [dif_neg hkey]
    simp [hkey]

theorem isModifierActive_iff {kb : Keyboard} {codes : Set ℕ} (h : Agrees kb.report codes) (k : UInt8) :
    kb.isModifierActive k = true ↔
      (k ≥ hidKeyboardFirstModifier ∧ k ≤ hidKeyboardLastModifier) ∧ k.toNat ∈ codes := by
  unfold Keyboard.isModifierActive
  by_cases hmod : k ≥ hidKeyboardFirstModifier ∧ k ≤ hidKeyboardLastModifier
  · have hge : 0xE0 ≤ k.toNat := UInt8.le_iff_toNat_le.mp hmod.1
    have hle : k.toNat ≤ 0xE7 := UInt8.le_iff_toNat_le.mp hmod.2
    have hsub : (k - hidKeyboardFirstModifier).toNat = k.toNat - 0xE0 := UInt8.toNat_sub_of_le _ _ hmod.1
    have hcode : codeBit kb.report k.toNat =
        (kb.report.modifiers &&& 1 <<< (k - hidKeyboardFirstModifier) != 0) := by
      unfold codeBit
      rw [if_neg (by omega), bit_modifier _ (by omega),
        and_mask_ne_zero _ _ (modifier_lt hmod.1 hmod.2), hsub]
    rw [if_pos hmod, and_iff_right hmod, ← h k.toNat (.inr ⟨hge, hle⟩), hcode]
  · rw [if_neg hmod]
    simp [hmod]

/-! ## What the host decodes -/

theorem usage_flagsField {first count i : ℕ} (hi : i < count) :
    (flagsField first count).usage i = first + i := by
  show (List.range' first count).getD i _ = first + i
  rw [List.getD_eq_getElem _ _ (by simpa using hi), List.getElem_range', Nat.one_mul]

theorem mem_asserted_flagsField (report : Bytes) (n first count page u : ℕ) :
    (page, u) ∈ (flagsField first count).asserted report n ↔
      page = 7 ∧ ∃ i < count, bit report (n + i) = true ∧ first + i = u := by
  rw [mem_asserted_flags rfl rfl rfl]
  refine and_congr_right fun _ => exists_congr fun i => and_congr_right fun hi => ?_
  rw [usage_flagsField (show i < count from hi)]

/-- The host finds a usage exactly when its bit is set where `press` and `release` keep it. -/
theorem mem_decoded (kb : Keyboard) (page u : ℕ) :
    (page, u) ∈ decoded kb ↔ page = 7 ∧ Reportable u ∧ codeBit kb.report u = true := by
  have hmods : (∃ i < 8, bit kb.report.allkeys (0 + i) = true ∧ 0xE0 + i = u) ↔
      (0xE0 ≤ u ∧ u ≤ 0xE7) ∧ codeBit kb.report u = true := by
    unfold codeBit
    constructor
    · rintro ⟨i, hi, hbit, rfl⟩
      rw [if_neg (by omega), Nat.add_sub_cancel_left]
      rw [Nat.zero_add] at hbit
      exact ⟨by omega, hbit⟩
    · rintro ⟨hrange, hbit⟩
      rw [if_neg (by omega)] at hbit
      exact ⟨u - 0xE0, by omega, by rwa [Nat.zero_add], by omega⟩
  have hkeys : (∃ i < 218, bit kb.report.allkeys (12 + i) = true ∧ 0x04 + i = u) ↔
      (0x04 ≤ u ∧ u ≤ 0xDD) ∧ codeBit kb.report u = true := by
    unfold codeBit
    constructor
    · rintro ⟨i, hi, hbit, rfl⟩
      rw [if_pos (by omega), ← Nat.add_assoc]
      exact ⟨by omega, hbit⟩
    · rintro ⟨hrange, hbit⟩
      rw [if_pos (by omega)] at hbit
      refine ⟨u - 4, by omega, ?_, by omega⟩
      rwa [show 12 + (u - 4) = 8 + u by omega]
  have hpad : ∀ size n, (paddingField size).asserted kb.report.allkeys n = [] :=
    fun _ n => asserted_constant rfl _ n
  have hat : 0 + (flagsField 0xE0 8).bits + (paddingField 4).bits = 12 := rfl
  unfold decoded Reportable
  rw [keyboardInputs_eq, decode_cons, decode_cons, decode_cons, decode_cons, decode_nil, hpad, hpad,
    hat, List.nil_append, List.append_nil, List.append_nil, List.mem_append, mem_asserted_flagsField,
    mem_asserted_flagsField, hmods, hkeys]
  tauto

/-- A code without a usage in the report leaves the decoded usages as they are. -/
theorem mem_decoded_writes {kb kb' : Keyboard} {k : ℕ} {v : Bool} (hk : ¬ Reportable k)
    (h : Writes kb.report kb'.report k v) (page u : ℕ) :
    (page, u) ∈ decoded kb' ↔ (page, u) ∈ decoded kb := by
  rw [mem_decoded, mem_decoded]
  refine and_congr_right fun _ => and_congr_right fun hu => ?_
  have hbit : HasBit u := hu.elim (fun h => .inl h.2) .inr
  rw [h u hbit, if_neg]
  rintro rfl
  exact hk hu

/-- **The report and its descriptor agree**: after any calls from a cleared report, the host decodes exactly
the usages that are pressed and not released since; other codes change nothing that it decodes, and no code
writes behind the report; and the input fields fill the report. -/
theorem report_agrees (last : KeyboardReport) (calls : List KeyCall) :
    let kb := Run.after Keyboard.call ⟨.cleared, last⟩ calls
    (∀ page u, (page, u) ∈ decoded kb ↔
      page = 7 ∧ Reportable u ∧ u ∈ Run.after held ∅ calls) ∧
    (∀ k : UInt8, ¬ Reportable k.toNat → ∀ page u,
      ((page, u) ∈ decoded (kb.press k).2 ↔ (page, u) ∈ decoded kb) ∧
      ((page, u) ∈ decoded (kb.release k).2 ↔ (page, u) ∈ decoded kb)) ∧
    (∀ k : UInt8, ((kb.press k).2.report ≠ kb.report ∨ (kb.release k).2.report ≠ kb.report) →
      k ≤ hidLastKey ∧ k.toNat / 8 < keyBytes ∨
      k ≥ hidKeyboardFirstModifier ∧ k ≤ hidKeyboardLastModifier) ∧
    bits keyboardInputs = 8 * kb.report.allkeys.length := by
  have hstart : Agrees KeyboardReport.cleared ∅ := by
    intro u hu
    rw [codeBit_cleared hu]
    simp
  have hrun : Agrees (Run.after Keyboard.call ⟨.cleared, last⟩ calls).report (Run.after held ∅ calls) :=
    agrees_run calls hstart
  generalize Run.after Keyboard.call ⟨.cleared, last⟩ calls = kb at hrun
  refine ⟨fun page u => ?_, fun k hk page u => ⟨?_, ?_⟩, fun k hwrites => ?_, ?_⟩
  · rw [mem_decoded]
    refine and_congr_right fun _ => and_congr_right fun hu => ?_
    exact hrun u (hu.elim (fun h => .inl h.2) .inr)
  · exact mem_decoded_writes hk (writes_press kb k) page u
  · exact mem_decoded_writes hk (writes_release kb k) page u
  · by_cases hkey : k ≤ hidLastKey
    · exact .inl ⟨hkey, keyByte_lt hkey⟩
    · by_cases hmod : k ≥ hidKeyboardFirstModifier ∧ k ≤ hidKeyboardLastModifier
      · exact .inr hmod
      · refine absurd hwrites ?_
        unfold Keyboard.press Keyboard.release
        simp [dif_neg hkey, if_neg hmod]
  · rw [length_allkeys, keyboardInputs_eq]
    rfl

end NeuronWired
