import NeuronWired.Eeprom
import NeuronWired.Run.Basic

/-!
# EepromUpdate — what `begin` and `update` do to the shadow and the flash

With a shadow of 8192 bytes `update` leaves exactly the shadow in the flash, and `begin` leaves exactly
the flash in the shadow.
-/

namespace NeuronWired

namespace Storage

variable {s : Storage}

@[simp] theorem eeprom_touch (s : Storage) (off len : ℕ) : (s.touch off len).eeprom = s.eeprom := rfl
@[simp] theorem flash_touch (s : Storage) (off len : ℕ) : (s.touch off len).flash = s.flash := rfl
@[simp] theorem upgrade_touch (s : Storage) (off len : ℕ) : (s.touch off len).upgrade = s.upgrade := rfl

/-! ## Accesses that edit the shadow -/

/-- Nothing but the shadow, `_dirty` and the record of accesses is changed, and only with `_dirty`. -/
structure Edit (s s' : Storage) : Prop where
  flash : s'.flash = s.flash
  upgrade : s'.upgrade = s.upgrade
  needUpdate : s'.eeprom.needUpdate = s.eeprom.needUpdate
  size : s'.eeprom.size = s.eeprom.size
  sector : s'.eeprom.sector = s.eeprom.sector
  data : s'.eeprom.data.map List.length = s.eeprom.data.map List.length
  dirty : s'.eeprom.dirty = true ∨
    (s'.eeprom.dirty = s.eeprom.dirty ∧ s'.eeprom.data = s.eeprom.data ∧ s'.handedOut = s.handedOut)

theorem edit_touch (s : Storage) (off len : ℕ) : Edit s (s.touch off len) :=
  ⟨rfl, rfl, rfl, rfl, rfl, rfl, .inr ⟨rfl, rfl, rfl⟩⟩

theorem edit_refl (s : Storage) : Edit s s := ⟨rfl, rfl, rfl, rfl, rfl, rfl, .inr ⟨rfl, rfl, rfl⟩⟩

/-- A copy into the shadow keeps its length. -/
theorem length_copyIn (s : Storage) (off : ℕ) (src : Bytes) :
    (s.copyIn off src).eeprom.data.map List.length = s.eeprom.data.map List.length := by
  show (s.eeprom.data.map fun d => memcpy d off src).map List.length = _
  cases s.eeprom.data with
  | none => rfl
  | some d => exact congrArg some (length_memcpy d off src)

theorem edit_read (s : Storage) (address : ℤ) : Edit s (s.read address).2 := by
  unfold read
  split_ifs
  · exact edit_refl s
  · exact edit_refl s
  · exact edit_touch s _ _

theorem edit_get (s : Storage) (address : ℤ) (len : ℕ) : Edit s (s.get address len).2 := by
  unfold get
  split_ifs
  · exact edit_refl s
  · exact edit_touch s _ _

theorem edit_write (s : Storage) (address : ℤ) (value : UInt8) : Edit s (s.write address value) := by
  unfold write
  split_ifs
  · exact edit_refl s
  · exact edit_refl s
  · exact edit_touch s _ _
  · exact ⟨rfl, rfl, rfl, rfl, rfl, length_copyIn s address.toNat [value], .inl rfl⟩

theorem edit_put (s : Storage) (address : ℤ) (t : Bytes) : Edit s (s.put address t) := by
  unfold put
  split_ifs
  · exact edit_refl s
  · exact edit_touch s _ _
  · exact ⟨rfl, rfl, rfl, rfl, rfl, length_copyIn s address.toNat t, .inl rfl⟩

/-! ## `update` -/

/-- The record of the accesses of the first `k` pages. -/
def pageAccesses (alloc : Option ℕ) (k : ℕ) : List Access :=
  (List.range k).map fun i => ⟨alloc, i * 256, 256⟩

/-- The loop of `update` changes the flash and nothing else. -/
theorem programLoop_eq (s : Storage) (k : ℕ) : programLoop k s =
    { s with
      touched := s.touched ++ pageAccesses (s.eeprom.data.map List.length) k
      flash := Nor.programPages (Nor.pageOf s.shadow 256) 256 s.eeprom.sector k s.flash } := by
  induction k with
  | zero => simp [programLoop, pageAccesses, Nor.programPages]
  | succ k ih =>
    unfold programLoop
    rw [ih]
    unfold pageAccesses
    rw [List.range_succ, List.map_append, ← List.append_assoc]
    rfl

theorem erase_eq (s : Storage) : s.erase = { s with flash := Nor.erase s.flash s.eeprom.sector 8192 } := by
  have hhalves := Nor.erase_erase s.flash s.eeprom.sector (8192 / 2) (8192 / 2)
  unfold erase
  exact congrArg (fun m => { s with flash := m }) hhalves

/-- `update` clears `needUpdate`, touches 32 pages and writes the flash. -/
theorem update_eq (s : Storage) : s.update =
    { s with
      eeprom := { s.eeprom with needUpdate := false }
      touched := s.touched ++ pageAccesses (s.eeprom.data.map List.length) 32
      flash := Nor.programPages (Nor.pageOf s.shadow 256) 256 s.eeprom.sector 32
        (Nor.erase s.flash s.eeprom.sector 8192) } := by
  unfold update
  rw [programLoop_eq, erase_eq]
  rfl

/-- The flash image after `update` is the shadow. -/
theorem stores_update (h : s.shadow.length = 8192) :
    Nor.Stores s.update.flash s.eeprom.sector s.shadow := by
  rw [update_eq]
  exact Nor.stores_pages (by decide) h s.flash s.eeprom.sector

/-! ## `begin` -/

theorem length_sectorBytes (s : Storage) (len : ℕ) : (s.sectorBytes len).length = len := by
  unfold sectorBytes
  rw [List.length_map, List.length_range]

theorem getD_sectorBytes {len a : ℕ} (h : a < len) :
    (s.sectorBytes len).getD a 0 = s.flash (s.eeprom.sector + a) := by
  unfold sectorBytes
  rw [List.getD_eq_getElem _ _ (by rw [List.length_map, List.length_range]; exact h), List.getElem_map,
    List.getElem_range]

/-- A copy over the whole array. -/
theorem memcpy_whole {dst src : Bytes} (h : src.length = dst.length) : memcpy dst 0 src = src := by
  rw [memcpy_of_le (by omega), List.take_zero, List.nil_append, Nat.zero_add, h, List.drop_length,
    List.append_nil]

theorem arrayFor_some (d : Bytes) (n : ℕ) :
    arrayFor (some d) n = if n ≠ roundedSize n then List.replicate n 0 else d := rfl

/-- What `begin` leaves. -/
theorem begin_eq (s : Storage) (size : ℕ) : s.begin size =
    { s with
      eeprom := { s.eeprom with
        data := some (memcpy (arrayFor s.eeprom.data (requestedSize size)) 0
          (s.sectorBytes (roundedSize (requestedSize size))))
        size := roundedSize (requestedSize size)
        dirty := false }
      touched := s.touched ++ [⟨some (arrayFor s.eeprom.data (requestedSize size)).length, 0,
        roundedSize (requestedSize size)⟩] } := by
  have hlen := s.length_sectorBytes (roundedSize (requestedSize size))
  unfold begin copyIn touch
  dsimp only
  rw [hlen]
  rfl

/-- `begin(8192)` with no array of another length: the shadow is the flash image, and clean. -/
theorem begin_whole (h : ∀ d, s.eeprom.data = some d → d.length = 8192) : s.begin 8192 =
    { s with
      eeprom := { s.eeprom with data := some (s.sectorBytes 8192), size := 8192, dirty := false }
      touched := s.touched ++ [⟨some 8192, 0, 8192⟩] } := by
  have hsize : requestedSize 8192 = 8192 ∧ roundedSize 8192 = 8192 := ⟨rfl, rfl⟩
  have harray : (arrayFor s.eeprom.data 8192).length = 8192 := by
    cases hdata : s.eeprom.data with
    | none => exact List.length_replicate
    | some d =>
      rw [arrayFor_some, if_neg (not_not_intro hsize.2.symm)]
      exact h d hdata
  have hcopy : memcpy (arrayFor s.eeprom.data 8192) 0 (s.sectorBytes 8192) = s.sectorBytes 8192 :=
    memcpy_whole ((s.length_sectorBytes 8192).trans harray.symm)
  rw [begin_eq, hsize.1, hsize.2, harray, hcopy]

/-- A read inside `length()`. -/
theorem read_inside {d : Bytes} {a : ℕ} (hd : s.eeprom.data = some d) (ha : a < s.eeprom.size) :
    (s.read a).1 = d.getD a 0 := by
  have hin : ¬((a : ℤ) < 0 ∨ (s.eeprom.size : ℤ) ≤ a) := by omega
  have hnull : ¬ s.eeprom.data = none := by
    rw [hd]
    simp
  unfold read shadow
  rw [if_neg hin, if_neg hnull, hd]
  rfl

/-- After `begin(8192)` every read gives the byte of the flash. -/
theorem read_begin (h : ∀ d, s.eeprom.data = some d → d.length = 8192) {a : ℕ} (ha : a < 8192) :
    ((s.begin 8192).read a).1 = s.flash (s.eeprom.sector + a) := by
  have hdata : (s.begin 8192).eeprom.data = some (s.sectorBytes 8192) := by rw [begin_whole h]
  have hsize : (s.begin 8192).eeprom.size = 8192 := by rw [begin_whole h]
  rw [read_inside hdata (hsize ▸ ha)]
  exact getD_sectorBytes ha

end Storage

end NeuronWired
