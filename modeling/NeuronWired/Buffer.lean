import NeuronWired.Cint

/-!
# Buffer — `buffer_t` of the SPI link (`spi_link_slave.c`)

A linear buffer with 16-bit positions and sizes.  The positions are updated by signed differences
and the load size is cut to 8 bits whenever it is read, as in the source.
-/

namespace NeuronWired

/-- `result_t`. -/
inductive Result where
  | ok
  | err
  | busy
  | incomplete
  deriving DecidableEq, Repr

/-- `buffer_t`. -/
structure Buffer where
  data : Bytes
  size : ℕ
  readPos : ℕ
  writePos : ℕ
  loadsize : ℕ
  freesize : ℕ
  deriving DecidableEq, Repr

namespace Buffer

/-- `buffer_clear`. -/
def clear (b : Buffer) : Buffer :=
  { b with readPos := 0, writePos := 0, loadsize := 0, freesize := b.size }

/-- `buffer_init`, on a zeroed heap block. -/
def init (bufferSize : ℕ) : Buffer :=
  clear { data := List.replicate bufferSize 0, size := bufferSize,
          readPos := 0, writePos := 0, loadsize := 0, freesize := 0 }

/-- `buffer_update_read_pos`. -/
def updateReadPos (b : Buffer) (len : ℤ) : Buffer :=
  if len = 0 then b
  else { b with
    readPos := u16 (i16 b.readPos + len)
    loadsize := u16 (i16 b.loadsize - len)
    freesize := u16 (i16 b.freesize + len) }

/-- `buffer_update_write_pos`. -/
def updateWritePos (b : Buffer) (len : ℤ) : Buffer :=
  if len = 0 then b
  else { b with
    writePos := u16 (i16 b.writePos + len)
    loadsize := u16 (i16 b.loadsize + len)
    freesize := u16 (i16 b.freesize - len) }

/-- `buffer_get_loadsize`, which returns a `uint8_t`. -/
def getLoadsize (b : Buffer) : ℕ := u8 b.loadsize

/-- `buffer_insert_data`; the one-byte case of the source is a one-byte copy. -/
def insertData (b : Buffer) (data : Bytes) (writePos len : ℕ) : Buffer :=
  if len = 0 then b else { b with data := memcpy b.data writePos (data.take len) }

/-- `buffer_add`. -/
def add (b : Buffer) (data : Bytes) (len : ℕ) : Result × Buffer :=
  if b.freesize < len then (.err, b)
  else (.ok, (b.insertData data b.writePos len).updateWritePos (i16 len))

/-- `buffer_get_from_position`: the bytes copied to the caller. -/
def getFromPosition (b : Buffer) (fromPosition len : ℕ) : Result × Bytes :=
  if b.loadsize < len then (.err, []) else (.ok, (b.data.drop fromPosition).take len)

/-- `buffer_get_load_space_pointer`, as an offset into the data. -/
def getLoadSpacePointer (b : Buffer) (offset : ℕ) : ℕ := b.readPos + offset

/-- `buffer_get_free_space_pointer`, as an offset into the data. -/
def getFreeSpacePointer (b : Buffer) : ℕ := b.writePos

/-- `buffer_get_free_space_line_size`. -/
def getFreeSpaceLineSize (b : Buffer) : ℕ := u16 ((b.size : ℤ) - b.writePos)

/-- `_buffer_recycle`. -/
def recycle (b : Buffer) : Buffer := b.clear

end Buffer

/-! ## What is in a buffer -/

/-- The positions, the sizes and the bytes between the positions: everything the link looks at. -/
@[ext] structure Look where
  readPos : ℕ
  writePos : ℕ
  loadsize : ℕ
  freesize : ℕ
  content : Bytes
  deriving DecidableEq, Repr

namespace Look

/-- A recycled buffer of `size` bytes. -/
def empty (size : ℕ) : Look := ⟨0, 0, 0, size, []⟩

/-- The buffer holds something: this is what the 8-bit load size tests. -/
def Loaded (l : Look) : Prop := l.readPos ≠ l.writePos

instance (l : Look) : Decidable l.Loaded := inferInstanceAs (Decidable (_ ≠ _))

/-- The sizes agree with the positions modulo the word length, and the positions lie in the data.
Every run keeps this much of every buffer. -/
structure Mod (size : ℕ) (l : Look) : Prop where
  size_le : size ≤ 255
  read_le : l.readPos ≤ size
  write_le : l.writePos ≤ size
  load_eq : l.loadsize = u16 ((l.writePos : ℤ) - l.readPos)
  free_eq : l.freesize = u16 ((size : ℤ) - l.loadsize)

/-- The positions are in order, a message that is held has had its header skipped, and the bytes held
are as many as the positions say. -/
structure Ordered (l : Look) : Prop where
  le : l.readPos ≤ l.writePos
  skipped : l.Loaded → 2 ≤ l.readPos
  length : l.content.length = l.writePos - l.readPos

theorem Ordered.content_eq_nil {l : Look} (h : l.Ordered) (hl : ¬l.Loaded) : l.content = [] := by
  have heq : l.readPos = l.writePos := not_not.mp hl
  exact List.eq_nil_of_length_eq_zero (by rw [h.length, heq, Nat.sub_self])

theorem Ordered.content_ne_nil {l : Look} (h : l.Ordered) (hl : l.Loaded) : l.content ≠ [] := by
  intro hnil
  have hlen := h.length
  have hle := h.le
  rw [hnil, List.length_nil] at hlen
  exact hl (by omega)

/-- Positions inside the data and in order, and as many bytes held as they say. -/
structure Good (size : ℕ) (l : Look) : Prop where
  mod : l.Mod size
  le : l.readPos ≤ l.writePos
  length : l.content.length = l.writePos - l.readPos

theorem Mod.load_eq_zero {size : ℕ} {l : Look} (h : l.Mod size) : u8 l.loadsize = 0 ↔ ¬l.Loaded := by
  obtain ⟨h1, h2, h3, h4, -⟩ := h
  rw [h4]
  unfold u8 Loaded u16
  omega

/-- With the positions in order the sizes are what they say, as natural numbers. -/
theorem Mod.nat {size : ℕ} {l : Look} (h : l.Mod size) (ho : l.readPos ≤ l.writePos) :
    l.readPos + l.loadsize = l.writePos ∧ l.writePos ≤ size ∧ l.loadsize + l.freesize = size := by
  obtain ⟨h1, h2, h3, h4, h5⟩ := h
  unfold u16 at h4 h5
  omega

/-- With the positions in order the 8-bit load size is exact. -/
theorem Mod.load_exact {size : ℕ} {l : Look} (h : l.Mod size) (ho : l.readPos ≤ l.writePos) :
    u8 l.loadsize = l.writePos - l.readPos := by
  have hsize := h.size_le
  obtain ⟨h1, h2, h3⟩ := h.nat ho
  unfold u8
  omega

theorem mod_empty {size : ℕ} (h : size ≤ 255) : (empty size).Mod size := by
  refine ⟨h, Nat.zero_le _, Nat.zero_le _, ?_, ?_⟩
  · rfl
  · show size = u16 ((size : ℤ) - (0 : ℕ))
    unfold u16
    omega

theorem good_empty {size : ℕ} (h : size ≤ 255) : (empty size).Good size :=
  ⟨mod_empty h, Nat.le_refl _, rfl⟩

theorem not_loaded_empty (size : ℕ) : ¬(empty size).Loaded := fun h => h rfl

theorem ordered_empty (size : ℕ) : (empty size).Ordered :=
  ⟨Nat.le_refl _, fun h => absurd h (not_loaded_empty size), rfl⟩

end Look

namespace Buffer

/-- The data are as long as `size` says. -/
structure Sized (size : ℕ) (b : Buffer) : Prop where
  size_eq : b.size = size
  data_len : b.data.length = size

/-- The bytes between the two positions. -/
def content (b : Buffer) : Bytes := (b.data.drop b.readPos).take (b.writePos - b.readPos)

/-- What is in the buffer. -/
def look (b : Buffer) : Look := ⟨b.readPos, b.writePos, b.loadsize, b.freesize, b.content⟩

section Look

variable {size : ℕ} {b : Buffer}

theorem getLoadsize_eq_zero (h : b.look.Mod size) : b.getLoadsize = 0 ↔ ¬b.look.Loaded :=
  h.load_eq_zero

theorem getLoadsize_ne_zero (h : b.look.Mod size) : b.getLoadsize ≠ 0 ↔ b.look.Loaded := by
  rw [ne_eq, getLoadsize_eq_zero h, not_not]

theorem look_clear (h : b.Sized size) : b.clear.look = .empty size := by
  unfold look clear content Look.empty
  rw [h.size_eq]
  simp

theorem look_init (size : ℕ) : (init size).look = .empty size :=
  look_clear ⟨rfl, List.length_replicate⟩

theorem look_recycle (h : b.Sized size) : b.recycle.look = .empty size := look_clear h

theorem length_content (h : b.Sized size) (hm : b.look.Mod size) :
    b.content.length = b.writePos - b.readPos := by
  have h1 : b.writePos ≤ size := hm.write_le
  unfold content
  rw [List.length_take, List.length_drop, h.data_len]
  omega

/-- Bytes that arrive in a buffer that holds nothing are not seen. -/
theorem look_setData (h : ¬b.look.Loaded) (data : Bytes) :
    ({ b with data := data } : Buffer).look = b.look := by
  have h0 : b.readPos = b.writePos := not_not.mp h
  unfold look content
  simp only [h0, Nat.sub_self, List.take_zero]

@[simp] theorem data_updateWritePos (b : Buffer) (len : ℤ) :
    (b.updateWritePos len).data = b.data := by unfold updateWritePos; split_ifs <;> rfl

@[simp] theorem readPos_updateWritePos (b : Buffer) (len : ℤ) :
    (b.updateWritePos len).readPos = b.readPos := by unfold updateWritePos; split_ifs <;> rfl

@[simp] theorem data_updateReadPos (b : Buffer) (len : ℤ) :
    (b.updateReadPos len).data = b.data := by unfold updateReadPos; split_ifs <;> rfl

@[simp] theorem writePos_updateReadPos (b : Buffer) (len : ℤ) :
    (b.updateReadPos len).writePos = b.writePos := by unfold updateReadPos; split_ifs <;> rfl

theorem Sized.updateWritePos (h : b.Sized size) (len : ℤ) : (b.updateWritePos len).Sized size := by
  unfold Buffer.updateWritePos
  split_ifs <;> exact ⟨h.size_eq, h.data_len⟩

theorem Sized.updateReadPos (h : b.Sized size) (len : ℤ) : (b.updateReadPos len).Sized size := by
  unfold Buffer.updateReadPos
  split_ifs <;> exact ⟨h.size_eq, h.data_len⟩

theorem Sized.recycle (h : b.Sized size) : b.recycle.Sized size := ⟨h.size_eq, h.data_len⟩

theorem Sized.setData (h : b.Sized size) (off : ℕ) (src : Bytes) :
    ({ b with data := memcpy b.data off src } : Buffer).Sized size :=
  ⟨h.size_eq, (length_memcpy _ _ _).trans h.data_len⟩

theorem sized_init (size : ℕ) : (init size).Sized size := ⟨rfl, List.length_replicate⟩

/-- Moving the write position inside the data. -/
theorem mod_updateWritePos (h : b.look.Mod size) (len : ℤ) (h0 : 0 ≤ b.writePos + len)
    (h1 : b.writePos + len ≤ size) :
    (b.updateWritePos len).look.Mod size ∧
      ((b.updateWritePos len).writePos : ℤ) = b.writePos + len := by
  obtain ⟨g2, g4, g5, g6, g7⟩ := h
  have hw : b.look.writePos = b.writePos := rfl
  have hr : b.look.readPos = b.readPos := rfl
  have hl : b.look.loadsize = b.loadsize := rfl
  have hf : b.look.freesize = b.freesize := rfl
  rw [hw] at g5 g6; rw [hr] at g4 g6; rw [hl] at g6 g7; rw [hf] at g7
  by_cases hz : len = 0
  · unfold Buffer.updateWritePos
    rw [if_pos hz]
    exact ⟨⟨g2, g4, g5, g6, g7⟩, by omega⟩
  · have hpos : u16 (i16 b.writePos + len) = (b.writePos + len).toNat := by
      rw [u16_i16_add]; unfold u16; omega
    have hload : u16 (i16 b.loadsize + len) = u16 ((b.writePos + len) - b.readPos) := by
      rw [u16_i16_add, g6]; unfold u16; omega
    have hfree : u16 (i16 b.freesize - len) = u16 (size - (u16 (i16 b.loadsize + len) : ℤ)) := by
      rw [u16_i16_sub, g7, hload, g6]; unfold u16; omega
    unfold Buffer.updateWritePos
    rw [if_neg hz]
    refine ⟨⟨g2, g4, ?_, ?_, hfree⟩, ?_⟩
    · show u16 (i16 b.writePos + len) ≤ size
      omega
    · show u16 (i16 b.loadsize + len) = u16 ((u16 (i16 b.writePos + len) : ℤ) - b.readPos)
      rw [hpos, hload, Int.toNat_of_nonneg h0]
    · show (u16 (i16 b.writePos + len) : ℤ) = b.writePos + len
      omega

/-- Moving the read position inside the data. -/
theorem mod_updateReadPos (h : b.look.Mod size) (len : ℤ) (h0 : 0 ≤ b.readPos + len)
    (h1 : b.readPos + len ≤ size) :
    (b.updateReadPos len).look.Mod size ∧
      ((b.updateReadPos len).readPos : ℤ) = b.readPos + len := by
  obtain ⟨g2, g4, g5, g6, g7⟩ := h
  have hw : b.look.writePos = b.writePos := rfl
  have hr : b.look.readPos = b.readPos := rfl
  have hl : b.look.loadsize = b.loadsize := rfl
  have hf : b.look.freesize = b.freesize := rfl
  rw [hw] at g5 g6; rw [hr] at g4 g6; rw [hl] at g6 g7; rw [hf] at g7
  by_cases hz : len = 0
  · unfold Buffer.updateReadPos
    rw [if_pos hz]
    exact ⟨⟨g2, g4, g5, g6, g7⟩, by omega⟩
  · have hpos : u16 (i16 b.readPos + len) = (b.readPos + len).toNat := by
      rw [u16_i16_add]; unfold u16; omega
    have hload : u16 (i16 b.loadsize - len) = u16 (b.writePos - (b.readPos + len)) := by
      rw [u16_i16_sub, g6]; unfold u16; omega
    have hfree : u16 (i16 b.freesize + len) = u16 (size - (u16 (i16 b.loadsize - len) : ℤ)) := by
      rw [u16_i16_add, g7, hload, g6]; unfold u16; omega
    unfold Buffer.updateReadPos
    rw [if_neg hz]
    refine ⟨⟨g2, ?_, g5, ?_, hfree⟩, ?_⟩
    · show u16 (i16 b.readPos + len) ≤ size
      omega
    · show u16 (i16 b.loadsize - len) = u16 (b.writePos - (u16 (i16 b.readPos + len) : ℤ))
      rw [hpos, hload, Int.toNat_of_nonneg h0]
    · show (u16 (i16 b.readPos + len) : ℤ) = b.readPos + len
      omega

end Look

/-! ## A message is composed -/

/-- The buffer after `w` has been written behind its write position and `n` bytes have been counted. -/
def append (b : Buffer) (w : Bytes) (n : ℕ) : Buffer :=
  ({ b with data := memcpy b.data b.writePos w } : Buffer).updateWritePos n

section Append

variable {size : ℕ} {b : Buffer} {w : Bytes} {n : ℕ}

theorem Sized.append (h : b.Sized size) (w : Bytes) (n : ℕ) : (b.append w n).Sized size :=
  (h.setData _ _).updateWritePos _

/-- Bytes behind the write position are not seen. -/
theorem look_writeFree (b : Buffer) (w : Bytes) :
    ({ b with data := memcpy b.data b.writePos w } : Buffer).look = b.look := by
  have hcont : ({ b with data := memcpy b.data b.writePos w } : Buffer).content = b.content := by
    show ((memcpy b.data b.writePos w).drop b.readPos).take (b.writePos - b.readPos) =
      (b.data.drop b.readPos).take (b.writePos - b.readPos)
    rw [← List.drop_take, ← List.drop_take, take_memcpy w (Nat.le_refl _)]
  unfold look
  rw [hcont]

theorem mod_append (hg : b.look.Good size) (hroom : b.writePos + n ≤ size) (w : Bytes) :
    (b.append w n).look.Mod size ∧ (b.append w n).writePos = b.writePos + n := by
  have hm : ({ b with data := memcpy b.data b.writePos w } : Buffer).look.Mod size := by
    rw [look_writeFree]
    exact hg.mod
  have h0 : (0 : ℤ) ≤ (b.writePos : ℤ) + n := by omega
  have h1 : (b.writePos : ℤ) + n ≤ size := by omega
  obtain ⟨hmod, hwrite⟩ := mod_updateWritePos hm (n : ℤ) h0 h1
  exact ⟨hmod, Int.ofNat.inj hwrite⟩

theorem good_append (hs : b.Sized size) (hg : b.look.Good size) (hroom : b.writePos + n ≤ size) :
    (b.append w n).look.Good size := by
  obtain ⟨hmod, hwrite⟩ := mod_append hg hroom w
  have hle : b.readPos ≤ b.writePos := hg.le
  have hread : (b.append w n).readPos = b.readPos := readPos_updateWritePos _ _
  refine ⟨hmod, ?_, length_content (hs.append w n) hmod⟩
  show (b.append w n).readPos ≤ (b.append w n).writePos
  omega

/-- **A message is composed** piece by piece. -/
theorem content_append (hs : b.Sized size) (hg : b.look.Good size) (hroom : b.writePos + n ≤ size)
    (hw : w.length = n) : (b.append w n).content = b.content ++ w := by
  obtain ⟨-, hwrite⟩ := mod_append hg hroom w
  have hle : b.readPos ≤ b.writePos := hg.le
  have hlen := hs.data_len
  have hread : (b.append w n).readPos = b.readPos := readPos_updateWritePos _ _
  have hdata : (b.append w n).data = memcpy b.data b.writePos w := data_updateWritePos _ _
  -- what was there, and the bytes behind it
  have hold : (b.data.take b.writePos).drop b.readPos = b.content := List.drop_take
  have hfront : b.content.length = b.writePos - b.readPos := hg.length
  have hcount : b.writePos + n - b.readPos = b.content.length + n := by omega
  show ((b.append w n).data.drop (b.append w n).readPos).take _ = _
  rw [hread, hwrite, hdata, memcpy_of_le (by omega), List.append_assoc,
    List.drop_append_of_le_length (by rw [List.length_take]; omega), hold, hcount,
    List.take_length_add_append, ← hw, List.take_left]

/-- `buffer_add` with room for the bytes. -/
theorem add_eq (hg : b.look.Good size) (hroom : b.writePos + n ≤ size) (h0 : n ≠ 0) (data : Bytes) :
    b.add data n = (.ok, b.append (data.take n) n) := by
  have hsize := hg.mod.size_le
  obtain ⟨h1, h2, h3⟩ := hg.mod.nat hg.le
  have h1 : b.readPos + b.loadsize = b.writePos := h1
  have h3 : b.loadsize + b.freesize = size := h3
  unfold add insertData append
  rw [if_neg (by omega), if_neg h0, i16_of_lt (by omega)]

end Append

/-! ## A message arrives -/

/-- The buffer after `w` has been received behind its write position and counted. -/
def receive (b : Buffer) (w : Bytes) : Buffer :=
  ({ b with data := memcpy b.data b.writePos w } : Buffer).updateWritePos (i16 w.length)

/-- The buffer cut to a message of `len` bytes, its header skipped. -/
def shape (b : Buffer) (len : ℕ) : Buffer :=
  ((b.updateWritePos (-(b.getLoadsize : ℤ))).updateWritePos (len : ℤ)).updateReadPos (2 : ℕ)

section Receive

variable {size : ℕ} {b : Buffer} {w : Bytes}

theorem mod_receive (hm : b.look.Mod size) (hl : ¬b.look.Loaded) (hw : b.writePos + w.length ≤ size) :
    (b.receive w).look.Mod size ∧ (b.receive w).writePos = b.writePos + w.length ∧
      (b.receive w).getLoadsize = w.length := by
  have hsize := hm.size_le
  have h16 : i16 w.length = (w.length : ℤ) := i16_of_lt (by omega)
  have hm' : ({ b with data := memcpy b.data b.writePos w } : Buffer).look.Mod size := by
    rw [look_setData hl]; exact hm
  obtain ⟨hmod, hpos⟩ := mod_updateWritePos hm' (i16 w.length)
    (by rw [h16]; omega) (by rw [h16]; show (b.writePos : ℤ) + _ ≤ _; omega)
  have hwp : (b.receive w).writePos = b.writePos + w.length := by
    rw [h16] at hpos
    have hpos' : ((b.receive w).writePos : ℤ) = b.writePos + w.length := by
      unfold receive; rw [h16]; exact hpos
    omega
  refine ⟨hmod, hwp, ?_⟩
  have hr : (b.receive w).readPos = b.writePos := by
    unfold receive
    rw [readPos_updateWritePos]
    exact not_not.mp hl
  have hnat := (hmod.nat (show (b.receive w).readPos ≤ (b.receive w).writePos by omega)).1
  have hload : (b.receive w).loadsize = w.length := by
    have hnat' : (b.receive w).readPos + (b.receive w).loadsize = (b.receive w).writePos := hnat
    omega
  show u8 (b.receive w).loadsize = _
  rw [hload]
  exact u8_of_lt (by omega)

/-- What stands at the read position is what was received. -/
theorem drop_receive (hs : b.Sized size) (hl : ¬b.look.Loaded) (hw : b.writePos + w.length ≤ size) :
    ((b.receive w).data.drop b.readPos).take w.length = w := by
  have hr : b.readPos = b.writePos := not_not.mp hl
  unfold receive
  rw [data_updateWritePos, hr]
  exact drop_memcpy (by rw [hs.data_len]; exact hw)

theorem getD_receive (hs : b.Sized size) (hl : ¬b.look.Loaded) (hw : b.writePos + w.length ≤ size)
    {k : ℕ} (hk : k < w.length) : (b.receive w).data.getD (b.readPos + k) 0 = w.getD k 0 := by
  have h := drop_receive hs hl hw
  have hget : (((b.receive w).data.drop b.readPos).take w.length).getD k 0 = w.getD k 0 := by rw [h]
  rw [← hget]
  simp only [List.getD_eq_getElem?_getD]
  rw [List.getElem?_take_of_lt hk, List.getElem?_drop]

/-- **A message in its buffer**: the bytes after its header, and positions that lie in the data. -/
theorem look_shape (hs : b.Sized size) (hm : b.look.Mod size) (hl : ¬b.look.Loaded)
    (hw : b.writePos + w.length ≤ size) {len : ℕ} (hlen : len ≤ w.length) (h2 : 2 ≤ w.length) :
    ((b.receive w).shape len).look.Mod size ∧
      ((b.receive w).shape len).readPos = b.readPos + 2 ∧
      ((b.receive w).shape len).writePos = b.readPos + len ∧
      ((b.receive w).shape len).content = (w.take len).drop 2 := by
  obtain ⟨hmod, hwp, hload⟩ := mod_receive hm hl hw
  have hr : b.readPos = b.writePos := not_not.mp hl
  have hrp : (b.receive w).readPos = b.readPos := readPos_updateWritePos _ _
  obtain ⟨hm1, hw1⟩ := mod_updateWritePos hmod (-((b.receive w).getLoadsize : ℤ))
    (by omega) (by omega)
  obtain ⟨hm2, hw2⟩ := mod_updateWritePos hm1 (len : ℤ) (by omega) (by omega)
  have hr2 : (((b.receive w).updateWritePos (-((b.receive w).getLoadsize : ℤ))).updateWritePos
      (len : ℤ)).readPos = b.readPos := by
    rw [readPos_updateWritePos, readPos_updateWritePos, hrp]
  obtain ⟨hm3, hr3⟩ := mod_updateReadPos hm2 ((2 : ℕ) : ℤ) (by omega) (by omega)
  have hread : ((b.receive w).shape len).readPos = b.readPos + 2 := by
    have hr3' : (((b.receive w).shape len).readPos : ℤ) = _ := hr3
    omega
  have hwrite : ((b.receive w).shape len).writePos = b.readPos + len := by
    unfold shape
    rw [writePos_updateReadPos]
    omega
  refine ⟨hm3, hread, hwrite, ?_⟩
  have hdata : ((b.receive w).shape len).data = (b.receive w).data := by
    unfold shape; simp only [data_updateReadPos, data_updateWritePos]
  unfold content
  rw [hread, hwrite, hdata, show b.readPos + len - (b.readPos + 2) = len - 2 by omega]
  have hdrop := drop_receive hs hl hw
  calc ((b.receive w).data.drop (b.readPos + 2)).take (len - 2)
      = ((((b.receive w).data.drop b.readPos).take w.length).take len).drop 2 := by
        rw [List.take_take, Nat.min_eq_left hlen, List.drop_take, List.drop_drop]
    _ = (w.take len).drop 2 := by rw [hdrop]

end Receive

end Buffer

end NeuronWired
