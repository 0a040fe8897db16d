import NeuronWired.SpiSlave

/-!
# PacketLayout — where the fields of a header are

`Communications_protocol::Packet` is declared elsewhere.  What is relied on here: `header` is at the start
of `buf`, and `size` and `crc` are two different bytes of it.
-/

namespace NeuronWired

/-- The positions of `header.size` and `header.crc` in a packet. -/
structure PacketFormat.Layout (F : PacketFormat) where
  sizePos : ℕ
  crcPos : ℕ
  sizePos_ne : sizePos ≠ crcPos
  sizePos_lt : sizePos < F.headerSize
  crcPos_lt : crcPos < F.headerSize
  header_le : F.headerSize ≤ F.packetSize
  size_eq : ∀ p, F.size p = (p.getD sizePos 0).toNat
  crc_eq : ∀ p, F.crc p = p.getD crcPos 0
  setCrc_eq : ∀ c p, F.setCrc c p = p.set crcPos c
  size_setHasMorePackets : ∀ b p, F.size (F.setHasMorePackets b p) = F.size p

/-- `header.size` is not more than the packet has room for. -/
def SizeFits (F : PacketFormat) (packet : Bytes) : Prop := F.headerSize + F.size packet ≤ F.packetSize

instance (F : PacketFormat) (packet : Bytes) : Decidable (SizeFits F packet) := inferInstanceAs (Decidable (_ ≤ _))

namespace PacketFormat.Layout

variable {F : PacketFormat} (L : F.Layout)
include L

/-- `header.size` is not touched when `header.crc` is written. -/
theorem size_setCrc (c : UInt8) (p : Bytes) : F.size (F.setCrc c p) = F.size p := by
  rw [L.size_eq, L.size_eq, L.setCrc_eq, List.getD_eq_getElem?_getD, List.getD_eq_getElem?_getD,
    List.getElem?_set_ne (Ne.symm L.sizePos_ne)]

theorem setCrc_setCrc (c d : UInt8) (p : Bytes) : F.setCrc c (F.setCrc d p) = F.setCrc c p := by
  rw [L.setCrc_eq, L.setCrc_eq, L.setCrc_eq, List.set_set]

end PacketFormat.Layout

/-- Packets of 63 bytes; the header has the size, the checksum and whether more are to come. -/
def wideFormat : PacketFormat where
  packetSize := 63
  headerSize := 3
  size p := (p.getD 0 0).toNat
  crc p := p.getD 1 0
  setCrc c p := p.set 1 c
  setHasMorePackets b p := p.set 2 (if b then 1 else 0)
  packetSize_pos := by decide
  fits := by decide
  length_setCrc _ _ := List.length_set
  length_setHasMorePackets _ _ := List.length_set

/-- The layout of these packets. -/
def wideLayout : wideFormat.Layout where
  sizePos := 0
  crcPos := 1
  sizePos_ne := by decide
  sizePos_lt := by decide
  crcPos_lt := by decide
  header_le := by decide
  size_eq _ := rfl
  crc_eq _ := rfl
  setCrc_eq _ _ := rfl
  size_setHasMorePackets b p := by
    show ((p.set 2 _).getD 0 0).toNat = (p.getD 0 0).toNat
    rw [List.getD_eq_getElem?_getD, List.getD_eq_getElem?_getD, List.getElem?_set_ne (by decide)]

end NeuronWired
