import NeuronWired.Run.Basic
import Mathlib.Data.Nat.Notation

/-!
# EepromUpgrade — the migration of the settings at a boot (`EEPROMUpgrade.cpp`, `main.cpp`)

Every boot reads the version of the settings back and migrates them if it is 0.  The stored version is to
make the migration happen once in the life of a keyboard; `reserveStorage` ends with `version_ = 0`.
-/

namespace NeuronWired

/-! ## What Kaleidoscope gives -/

/-- The storage, the LED mode and the idle timeout of the Kaleidoscope library, over its state `σ`;
`requestSlice` is the address of the slice, the same at every boot. -/
structure Kaleidoscope (σ : Type) where
  requestSlice : ℕ
  get : σ → ℕ → UInt8
  put : σ → ℕ → UInt8 → σ
  modeIndex : σ → ℕ
  setMode : σ → ℕ → σ
  idleTimeoutSeconds : σ → ℕ
  setIdleTimeoutSeconds : σ → ℕ → σ

/-- What the upgrade relies on: the storage is a byte store, and the slice belongs to the upgrade alone. -/
structure Kaleidoscope.Lawful {σ : Type} (k : Kaleidoscope σ) : Prop where
  get_put : ∀ s v, k.get (k.put s k.requestSlice v) k.requestSlice = v
  modeIndex_put : ∀ s v, k.modeIndex (k.put s k.requestSlice v) = k.modeIndex s
  idleTimeoutSeconds_put : ∀ s v,
    k.idleTimeoutSeconds (k.put s k.requestSlice v) = k.idleTimeoutSeconds s
  modeIndex_setMode : ∀ s, k.modeIndex (k.setMode s 0) = 0
  idleTimeoutSeconds_setMode : ∀ s n, k.idleTimeoutSeconds (k.setMode s n) = k.idleTimeoutSeconds s
  idleTimeoutSeconds_set : ∀ s, k.idleTimeoutSeconds (k.setIdleTimeoutSeconds s 600) = 600

/-! ## The upgrade -/

/-- The members of `EEPROMUpgrade`, and the keyboard around it; `migrations` counts how often the step from
version 0 to 1 was executed. -/
structure EepromUpgrade (σ : Type) where
  settingsBase : ℕ
  version : UInt8
  keyboard : σ
  migrations : ℕ

/-- What happens to a keyboard: its user changes a setting, or it boots. -/
inductive Life (σ : Type) where
  | change (f : σ → σ)
  | boot

namespace EepromUpgrade

variable {σ : Type} (k : Kaleidoscope σ)

/-- `reserveStorage`. -/
def reserveStorage (u : EepromUpgrade σ) : EepromUpgrade σ :=
  let u := { u with settingsBase := k.requestSlice }
  let u := { u with version := k.get u.keyboard u.settingsBase }
  let u := if u.version = 0xff then { u with version := 0x00 } else u
  { u with version := 0 }

/-- The step from version 0 to 1: the idle timeout that is misread, and the LED mode. -/
def migrate (s : σ) : σ :=
  let s := if k.idleTimeoutSeconds s = 10176 then k.setIdleTimeoutSeconds s 600 else s
  k.setMode s 0

/-- `upgrade`. -/
def upgrade (u : EepromUpgrade σ) : EepromUpgrade σ :=
  let u :=
    if u.version = 0 then
      { u with
        keyboard := migrate k u.keyboard
        version := u.version + 1
        migrations := u.migrations + 1 }
    else u
  { u with keyboard := k.put u.keyboard u.settingsBase u.version }

/-- `setup`, as far as the settings are concerned. -/
def boot (u : EepromUpgrade σ) : EepromUpgrade σ := (u.reserveStorage k).upgrade k

/-- One event of a life. -/
def live (u : EepromUpgrade σ) : Life σ → EepromUpgrade σ
  | .change f => { u with keyboard := f u.keyboard }
  | .boot => u.boot k

/-! ## What is claimed -/

/-- The stored version. -/
def stored (u : EepromUpgrade σ) : UInt8 := k.get u.keyboard k.requestSlice

/-- A boot that finds a version stored leaves it, the LED mode and the idle timeout as they are. -/
def Leaves (u : EepromUpgrade σ) : Life σ → Prop
  | .change _ => True
  | .boot => u.stored k ≠ 0 → u.stored k ≠ 0xff →
    (u.boot k).stored k = u.stored k ∧
      k.modeIndex (u.boot k).keyboard = k.modeIndex u.keyboard ∧
      k.idleTimeoutSeconds (u.boot k).keyboard = k.idleTimeoutSeconds u.keyboard

/-- A boot that finds a version stored finds what the migration would make. -/
def FindsMigrated (u : EepromUpgrade σ) : Life σ → Prop
  | .change _ => True
  | .boot => u.stored k ≠ 0 → u.stored k ≠ 0xff →
    u.stored k = 1 ∧ k.modeIndex u.keyboard = 0 ∧ k.idleTimeoutSeconds u.keyboard ≠ 10176

/-- The number of boots in a life. -/
def boots (l : List (Life σ)) : ℕ := l.countP fun
  | .change _ => false
  | .boot => true

/-- The settings are migrated once at most, and a version that is stored is left alone. -/
def MigratesOnce (u : EepromUpgrade σ) (l : List (Life σ)) : Prop :=
  (Run.after (live k) u l).migrations ≤ u.migrations + 1 ∧ Run.Along (live k) (Leaves k) u l

/-! ## One boot -/

/-- The version that was read back is not used. -/
theorem reserveStorage_eq (u : EepromUpgrade σ) :
    u.reserveStorage k = { u with settingsBase := k.requestSlice, version := 0 } := by
  unfold reserveStorage
  simp only [apply_ite EepromUpgrade.settingsBase, apply_ite EepromUpgrade.keyboard,
    apply_ite EepromUpgrade.migrations, ite_self]

/-- Whatever version is stored, a boot migrates and stores 1. -/
theorem boot_eq (u : EepromUpgrade σ) : u.boot k =
    ⟨k.requestSlice, 1, k.put (migrate k u.keyboard) k.requestSlice 1, u.migrations + 1⟩ := by
  unfold boot
  rw [reserveStorage_eq]
  rfl

variable {k} (hk : k.Lawful)
include hk

/-- The idle timeout after the migration. -/
theorem idleTimeoutSeconds_migrate (s : σ) : k.idleTimeoutSeconds (migrate k s) =
    if k.idleTimeoutSeconds s = 10176 then 600 else k.idleTimeoutSeconds s := by
  unfold migrate
  rw [hk.idleTimeoutSeconds_setMode]
  split_ifs with hidle
  · exact hk.idleTimeoutSeconds_set s
  · rfl

/-- A boot leaves exactly the settings alone that are as the migration makes them. -/
theorem leaves_iff (u : EepromUpgrade σ) (e : Life σ) : Leaves k u e ↔ FindsMigrated k u e := by
  cases e with
  | change f => exact Iff.rfl
  | boot =>
    have hversion : (u.boot k).stored k = 1 := by
      rw [boot_eq]
      exact hk.get_put _ _
    have hmode : k.modeIndex (u.boot k).keyboard = 0 := by
      rw [boot_eq]
      exact (hk.modeIndex_put _ _).trans (hk.modeIndex_setMode _)
    have hidle : k.idleTimeoutSeconds (u.boot k).keyboard =
        if k.idleTimeoutSeconds u.keyboard = 10176 then 600 else k.idleTimeoutSeconds u.keyboard := by
      rw [boot_eq]
      exact (hk.idleTimeoutSeconds_put _ _).trans (idleTimeoutSeconds_migrate hk _)
    unfold Leaves FindsMigrated
    rw [hversion, hmode, hidle]
    refine imp_congr_right fun _ => imp_congr_right fun _ => ?_
    refine and_congr eq_comm (and_congr eq_comm ?_)
    split_ifs with hodd
    · rw [hodd]
      exact iff_of_false (by decide) (not_not.mpr rfl)
    · exact iff_of_true rfl hodd

omit hk

/-- The settings are migrated as often as the keyboard boots. -/
theorem migrations_after (u : EepromUpgrade σ) (l : List (Life σ)) :
    (Run.after (live k) u l).migrations = u.migrations + boots l := by
  induction l generalizing u with
  | nil => rfl
  | cons e l ih =>
    rw [Run.after_cons, ih]
    unfold boots
    cases e with
    | change f =>
      rw [List.countP_cons_of_neg (by simp)]
      rfl
    | boot =>
      rw [List.countP_cons_of_pos (by simp)]
      show (u.boot k).migrations + _ = _
      rw [boot_eq, Nat.add_assoc, Nat.add_comm 1]

/-! ## A life -/

/-- **The migration.**  Every boot migrates: the settings are migrated once at most, and a version that is
stored is left alone, exactly in a life of one boot at most that finds no version stored or finds the settings
as the migration makes them. -/
theorem migratesOnce_iff (hk : k.Lawful) (u : EepromUpgrade σ) (l : List (Life σ)) :
    MigratesOnce k u l ↔ boots l ≤ 1 ∧ Run.Along (live k) (FindsMigrated k) u l := by
  unfold MigratesOnce
  rw [migrations_after, Nat.add_le_add_iff_left]
  exact and_congr_right fun _ => Run.along_congr fun u e => leaves_iff hk u e

end EepromUpgrade

/-! ## A keyboard -/

/-- Bytes, the LED mode and the idle timeout. -/
structure SampleKeyboard where
  bytes : ℕ → UInt8
  mode : ℕ
  idle : ℕ

/-- A library with the slice at 40. -/
def sampleKaleidoscope : Kaleidoscope SampleKeyboard where
  requestSlice := 40
  get s a := s.bytes a
  put s a v := { s with bytes := fun b => if b = a then v else s.bytes b }
  modeIndex := SampleKeyboard.mode
  setMode s n := { s with mode := n }
  idleTimeoutSeconds := SampleKeyboard.idle
  setIdleTimeoutSeconds s n := { s with idle := n }

theorem lawful_sampleKaleidoscope : sampleKaleidoscope.Lawful where
  get_put _ _ := rfl
  modeIndex_put _ _ := rfl
  idleTimeoutSeconds_put _ _ := rfl
  modeIndex_setMode _ := rfl
  idleTimeoutSeconds_setMode _ _ := rfl
  idleTimeoutSeconds_set _ := rfl

namespace EepromUpgrade

/-- A keyboard with version 1 stored and another LED mode chosen. -/
def sampleUpgraded : EepromUpgrade SampleKeyboard := ⟨0, 0, ⟨fun _ => 1, 3, 600⟩, 0⟩

/-- A new keyboard that boots once. -/
theorem migratesOnce_iff_new :
    MigratesOnce sampleKaleidoscope ⟨0, 0, ⟨fun _ => 0xff, 0, 600⟩, 0⟩ [.boot] ↔
      boots ([.boot] : List (Life SampleKeyboard)) ≤ 1 ∧
        Run.Along (live sampleKaleidoscope) (FindsMigrated sampleKaleidoscope)
          ⟨0, 0, ⟨fun _ => 0xff, 0, 600⟩, 0⟩ [.boot] :=
  migratesOnce_iff lawful_sampleKaleidoscope _ _

/-- It boots twice: it is migrated twice, and the LED mode is lost. -/
theorem boots_migrate_again : ¬ MigratesOnce sampleKaleidoscope sampleUpgraded [.boot, .boot] :=
  fun h => absurd h.1 (by decide)

end EepromUpgrade

end NeuronWired
