import NeuronWired.Cint
import NeuronWired.Flash.Nor

/-!
# Eeprom — the EEPROM emulation (`EEPROM.cpp`, `EEPROM.h`, `EEPROMUpgrade.cpp`)

The shadow `_data` is an allocated array or the null pointer.  Every access through `_data` is recorded
with the array that is allocated at that moment; bytes outside the array read as zero and are not written.
`Runtime.hasTimeExpired` is declared outside this repository and is a parameter.
-/

namespace NeuronWired

/-! ## The state -/

/-- An access through `_data`: the length of the array it goes to (none for the null pointer), and the
range. -/
structure Access where
  alloc : Option ℕ
  off : ℕ
  len : ℕ
  deriving DecidableEq, Repr

/-- The range lies inside the array. -/
def Access.Inside (x : Access) : Prop := ∃ size, x.alloc = some size ∧ x.off + x.len ≤ size

instance (x : Access) : Decidable x.Inside :=
  match h : x.alloc with
  | none => .isFalse fun ⟨_, hs, _⟩ => by rw [h] at hs; cases hs
  | some size =>
    if hle : x.off + x.len ≤ size then .isTrue ⟨size, h, hle⟩
    else .isFalse fun ⟨_, hs, hin⟩ => hle (by rw [h] at hs; cases hs; exact hin)

/-- `EEPROMClass`. -/
structure EEPROMClass where
  needUpdate : Bool
  sector : ℕ
  data : Option Bytes
  size : ℕ
  dirty : Bool
  deriving DecidableEq, Repr

/-- `EEPROMUpgrade`, the part that writes the EEPROM back. -/
structure EEPROMUpgrade where
  needUpdate : Bool
  startTime : ℕ
  deriving DecidableEq, Repr

/-- The two objects and the flash, with a record of the accesses and of whether a pointer into the
shadow has been handed out. -/
structure Storage where
  eeprom : EEPROMClass
  upgrade : EEPROMUpgrade
  flash : Nor.Mem
  touched : List Access
  handedOut : Bool

namespace Storage

variable (s : Storage)

/-- The shadow, with zeros for the null pointer. -/
def shadow : Bytes := s.eeprom.data.getD []

/-- An access through `_data`. -/
def touch (off len : ℕ) : Storage :=
  { s with touched := s.touched ++ [⟨s.eeprom.data.map List.length, off, len⟩] }

/-- Assignment to fields of `EEPROMClass`. -/
def mapEeprom (f : EEPROMClass → EEPROMClass) : Storage := { s with eeprom := f s.eeprom }

/-- `memcpy( _data + off, src, .. )`. -/
def copyIn (off : ℕ) (src : Bytes) : Storage :=
  (s.touch off src.length).mapEeprom fun e => { e with data := e.data.map fun d => memcpy d off src }

/-- `len` bytes from `_data + off` on. -/
def bytesAt (off len : ℕ) : Bytes := (List.range len).map fun j => s.shadow.getD (off + j) 0

/-- `len` bytes of the flash, from `_sector` on. -/
def sectorBytes (len : ℕ) : Bytes := (List.range len).map fun j => s.flash (s.eeprom.sector + j)

/-! ## `EEPROMClass` -/

/-- The size that `begin` uses for the one it is given. -/
def requestedSize (size : ℕ) : ℕ := if size = 0 ∨ 8192 < size then 8192 else size

/-- Rounded up to the boundary of a flash write. -/
def roundedSize (size : ℕ) : ℕ := (size + 255) / 256 * 256

/-- The array that `begin` works on: a new one of `n` bytes unless there is one and `n` needs no rounding. -/
def arrayFor (data : Option Bytes) (n : ℕ) : Bytes :=
  match data with
  | some d => if n ≠ roundedSize n then List.replicate n 0 else d
  | none => List.replicate n 0

/-- `begin`: the array has `size` bytes if it is new, and the copy has `_size` bytes. -/
def begin (size : ℕ) : Storage :=
  let n := requestedSize size
  let allocated := s.mapEeprom fun e => { e with
    size := roundedSize n
    data := some (arrayFor e.data n) }
  (allocated.copyIn 0 (s.sectorBytes (roundedSize n))).mapEeprom fun e => { e with dirty := false }

/-- `commit`. -/
def commit : Bool × Storage :=
  if s.eeprom.size = 0 then (false, s)
  else if s.eeprom.dirty = false then (true, s)
  else if s.eeprom.data = none then (false, s)
  else (true, s.mapEeprom fun e => { e with needUpdate := true })

/-- `end`. -/
def finish : Bool × Storage :=
  if s.eeprom.size = 0 then (false, s)
  else
    (s.commit.1, s.commit.2.mapEeprom fun e => { e with data := none, size := 0, dirty := false })

/-- `read`. -/
def read (address : ℤ) : UInt8 × Storage :=
  if address < 0 ∨ (s.eeprom.size : ℤ) ≤ address then (0, s)
  else if s.eeprom.data = none then (0, s)
  else (s.shadow.getD address.toNat 0, s.touch address.toNat 1)

/-- `write`. -/
def write (address : ℤ) (value : UInt8) : Storage :=
  if address < 0 ∨ (s.eeprom.size : ℤ) ≤ address then s
  else if s.eeprom.data = none then s
  else if s.shadow.getD address.toNat 0 = value then s.touch address.toNat 1
  else ((s.touch address.toNat 1).copyIn address.toNat [value]).mapEeprom
    fun e => { e with dirty := true }

/-- `get< T >`, for a `T` of `len` bytes; `none` is a `t` that is not written. -/
def get (address : ℤ) (len : ℕ) : Option Bytes × Storage :=
  if address < 0 ∨ s.eeprom.size < u32 (address + len) then (none, s)
  else (some (s.bytesAt address.toNat len), s.touch address.toNat len)

/-- `put< T >`. -/
def put (address : ℤ) (t : Bytes) : Storage :=
  if address < 0 ∨ s.eeprom.size < u32 (address + t.length) then s
  else if s.bytesAt address.toNat t.length = t then s.touch address.toNat t.length
  else ((s.touch address.toNat t.length).mapEeprom fun e => { e with dirty := true }).copyIn
    address.toNat t

/-- `getDataPtr`. -/
def getDataPtr : Storage :=
  { s.mapEeprom (fun e => { e with dirty := true }) with handedOut := true }

/-- A store through a pointer that `getDataPtr` returned. -/
def store (off : ℕ) (value : UInt8) : Storage := s.copyIn off [value]

/-- A store through `operator[]`. -/
def storeIndex (address : ℕ) (value : UInt8) : Storage := s.getDataPtr.store address value

/-- `erase`. -/
def erase : Storage :=
  let half := Nor.erase s.flash s.eeprom.sector (8192 / 2)
  { s with flash := Nor.erase half (s.eeprom.sector + 8192 / 2) (8192 / 2) }

/-- The loop of `update`: the first `k` pages. -/
def programLoop : ℕ → Storage → Storage
  | 0, s => s
  | i + 1, s =>
    let t := programLoop i s
    { t.touch (i * 256) 256 with
      flash := Nor.program t.flash (t.eeprom.sector + i * 256) (t.bytesAt (i * 256) 256) }

/-- `update`. -/
def update : Storage :=
  (programLoop (8192 / 256) s.erase).mapEeprom fun e => { e with needUpdate := false }

/-! ## `EEPROMUpgrade` -/

/-- `beforeEachCycle`, at the time `millisAtCycleStart` of the cycle. -/
def beforeEachCycle (millisAtCycleStart : ℕ) (hasTimeExpired : ℕ → ℕ → Bool) : Storage :=
  if s.upgrade.needUpdate = false then
    if s.eeprom.needUpdate = true then
      { s with upgrade := { needUpdate := true, startTime := u16 millisAtCycleStart } }
    else s
  else if hasTimeExpired s.upgrade.startTime 500 = true then
    { s.update with upgrade := { s.upgrade with needUpdate := false } }
  else s

end Storage

/-- The two objects as their constructors leave them. -/
def newStorage (sector : ℕ) (flash : Nor.Mem) : Storage :=
  { eeprom := { needUpdate := false, sector := sector, data := none, size := 0, dirty := false }
    upgrade := { needUpdate := false, startTime := 0 }
    flash := flash
    touched := []
    handedOut := false }

/-! ## Calls -/

/-- A call of one of the two objects, or a store through a pointer into the shadow. -/
inductive EepromCall where
  | begin (size : ℕ)
  | finish
  | read (address : ℤ)
  | write (address : ℤ) (value : UInt8)
  | get (address : ℤ) (len : ℕ)
  | put (address : ℤ) (t : Bytes)
  | commit
  | getDataPtr
  | store (off : ℕ) (value : UInt8)
  | storeIndex (address : ℕ) (value : UInt8)
  | update
  | beforeEachCycle (millisAtCycleStart : ℕ) (hasTimeExpired : ℕ → ℕ → Bool)

/-- The state after a call. -/
def Storage.call (s : Storage) : EepromCall → Storage
  | .begin size => s.begin size
  | .finish => s.finish.2
  | .read address => (s.read address).2
  | .write address value => s.write address value
  | .get address len => (s.get address len).2
  | .put address t => s.put address t
  | .commit => s.commit.2
  | .getDataPtr => s.getDataPtr
  | .store off value => s.store off value
  | .storeIndex address value => s.storeIndex address value
  | .update => s.update
  | .beforeEachCycle now hasTimeExpired => s.beforeEachCycle now hasTimeExpired

/-- The arguments fit their C types: an address is an `int`, and an object has from one to `2^31 - 1`
bytes. -/
def EepromCall.WellFormed : EepromCall → Prop
  | .read address => address < 2147483648
  | .write address _ => address < 2147483648
  | .get address len => address < 2147483648 ∧ 0 < len ∧ len < 2147483648
  | .put address t => address < 2147483648 ∧ 0 < t.length ∧ t.length < 2147483648
  | _ => True

instance : (c : EepromCall) → Decidable c.WellFormed
  | .begin _ => .isTrue trivial
  | .finish => .isTrue trivial
  | .read _ => inferInstanceAs (Decidable (_ < _))
  | .write _ _ => inferInstanceAs (Decidable (_ < _))
  | .get _ _ => inferInstanceAs (Decidable (_ ∧ _ ∧ _))
  | .put _ _ => inferInstanceAs (Decidable (_ ∧ _ ∧ _))
  | .commit => .isTrue trivial
  | .getDataPtr => .isTrue trivial
  | .store _ _ => .isTrue trivial
  | .storeIndex _ _ => .isTrue trivial
  | .update => .isTrue trivial
  | .beforeEachCycle _ _ => .isTrue trivial

end NeuronWired
