import NeuronWired.Crc.Serial
import NeuronWired.SpiPort

/-!
# PacketCrc — the checksum of a packet, from sender to receiver

`crc_table` holds eight shifts of every byte by the polynomial `x⁸ + x² + x + 1`, so `crc8` is the serial
check of the bits of a message, most significant bit first.  `data_out_process` and `packet_in_process` both
make it with `header.crc` zero and over the length that `header.size` gives.
-/

namespace NeuronWired

open Interrupt SerialCrc

/-! ## The table -/

/-- The polynomial of `crc_table`, without its leading term. -/
def crcPoly : BitVec 8 := 0x07#8

theorem crcPoly_odd : crcPoly.getLsbD 0 = true := rfl

theorem crcTable_shifts :
    ∀ k : Fin 256, crcTable.getD k.1 0 = UInt8.ofBitVec (shifts crcPoly 8 (BitVec.ofNat 8 k.1)) := by
  decide +kernel

theorem crcTable_eq (b : UInt8) :
    (crcTable.getD b.toNat 0).toBitVec = shifts crcPoly 8 b.toBitVec := by
  have hentry := crcTable_shifts ⟨b.toNat, UInt8.toNat_lt b⟩
  have hbits : BitVec.ofNat 8 b.toNat = b.toBitVec :=
    BitVec.eq_of_toNat_eq (by simp)
  rw [hentry, hbits]

/-! ## Bits -/

/-- The bits of a byte, the most significant first. -/
def byteBits (b : UInt8) : List Bool := (List.range 8).map b.toBitVec.getMsbD

/-- The bits of a message. -/
def messageBits (m : Bytes) : List Bool := m.flatMap byteBits

@[simp] theorem length_byteBits (b : UInt8) : (byteBits b).length = 8 := by simp [byteBits]

theorem pack_byteBits (b : UInt8) : pack (byteBits b) = b.toBitVec := by
  refine BitVec.eq_of_getMsbD_eq fun i hi => ?_
  rw [getMsbD_pack hi, byteBits, List.getD_eq_getElem _ _ (by simpa using hi)]
  simp

theorem length_messageBits (m : Bytes) : (messageBits m).length = 8 * m.length := by
  induction m with
  | nil => rfl
  | cons b m ih =>
    show (byteBits b ++ messageBits m).length = _
    rw [List.length_append, ih, length_byteBits, List.length_cons]
    omega

theorem getElem?_messageBits (m : Bytes) (i : ℕ) :
    (messageBits m)[i]? = m[i / 8]?.map fun b => b.toBitVec.getMsbD (i % 8) := by
  induction m generalizing i with
  | nil => simp [messageBits]
  | cons b m ih =>
    show (byteBits b ++ messageBits m)[i]? = _
    by_cases hi : i < 8
    · have hdiv : i / 8 = 0 := by omega
      have hmod : i % 8 = i := by omega
      rw [List.getElem?_append_left (by simpa using hi), hdiv, hmod]
      simp [byteBits, hi]
    · have hdiv : i / 8 = (i - 8) / 8 + 1 := by omega
      have hmod : i % 8 = (i - 8) % 8 := by omega
      rw [List.getElem?_append_right (by simpa using hi), length_byteBits, ih, hdiv, hmod,
        List.getElem?_cons_succ]

theorem messageBits_injective {m m' : Bytes} (h : messageBits m = messageBits m') : m = m' := by
  have hlen : m.length = m'.length := by
    have := congrArg List.length h
    rw [length_messageBits, length_messageBits] at this
    omega
  refine List.ext_getElem hlen fun i hi hi' => ?_
  refine UInt8.toBitVec_inj.mp (BitVec.eq_of_getMsbD_eq fun k hk => ?_)
  have hbit := congrArg (fun l : List Bool => l[8 * i + k]?) h
  have hdiv : (8 * i + k) / 8 = i := by omega
  have hmod : (8 * i + k) % 8 = k := by omega
  simp only [getElem?_messageBits, hdiv, hmod, List.getElem?_eq_getElem hi,
    List.getElem?_eq_getElem hi'] at hbit
  simpa using hbit

/-! ## `crc8` -/

/-- One byte of `crc8` is eight bits of the serial check. -/
theorem run_byteBits (r b : UInt8) : run crcPoly r.toBitVec (byteBits b) =
    (crcTable.getD (r ^^^ b).toNat 0).toBitVec := by
  rw [crcTable_eq, run_eq_shifts _ (length_byteBits b).le, pack_byteBits, length_byteBits]
  rfl

theorem crc8_eq (m : Bytes) (len : ℕ) :
    (crc8 m len).toBitVec = run crcPoly 0#8 (messageBits (m.take len)) := by
  have hfold : ∀ (l : Bytes) (r : UInt8),
      (l.foldl (fun temp b => crcTable.getD (temp ^^^ b).toNat 0) r).toBitVec =
        run crcPoly r.toBitVec (messageBits l) := by
    intro l
    induction l with
    | nil => exact fun r => rfl
    | cons b l ih =>
      intro r
      show _ = run crcPoly r.toBitVec (byteBits b ++ messageBits l)
      rw [List.foldl_cons, ih, run_append, run_byteBits]
  exact hfold _ 0

/-- Two messages of one length that differ within eight consecutive bits have different checksums. -/
theorem crc8_ne_of_burst {m m' : Bytes} {len : ℕ} (hlen : m.length = m'.length)
    (hne : m.take len ≠ m'.take len) {a : ℕ}
    (hburst : ∀ i, (messageBits m)[i]? ≠ (messageBits m')[i]? → a ≤ i ∧ i < a + 8) :
    crc8 m len ≠ crc8 m' len := by
  intro heq
  have hbits := congrArg UInt8.toBitVec heq
  rw [crc8_eq, crc8_eq] at hbits
  refine run_ne_of_burst crcPoly_odd 0#8 (a := a) ?_ (fun h => hne (messageBits_injective h)) ?_ hbits
  · rw [length_messageBits, length_messageBits, List.length_take, List.length_take, hlen]
  · intro i hi
    apply hburst i
    intro hsame
    apply hi
    rw [getElem?_messageBits, getElem?_messageBits] at hsame
    rw [getElem?_messageBits, getElem?_messageBits, List.getElem?_take, List.getElem?_take]
    split_ifs
    · exact hsame
    · rfl

/-! ## What is claimed -/

variable {F : PacketFormat}

/-- Some bits of the covered bytes are altered, all within eight consecutive ones, and none of them in
`header.size` or `header.crc`. -/
structure Burst (L : F.Layout) (packet altered : Bytes) : Prop where
  length_eq : altered.length = packet.length
  ne : altered ≠ packet
  window : ∃ a, ∀ i, (messageBits packet)[i]? ≠ (messageBits altered)[i]? → a ≤ i ∧ i < a + 8
  covered : ∀ i, F.headerSize + F.size packet ≤ i → altered[i]? = packet[i]?
  size_eq : altered[L.sizePos]? = packet[L.sizePos]?
  crc_eq : altered[L.crcPos]? = packet[L.crcPos]?

/-- The `crc` byte is altered and nothing else. -/
def CrcByteAltered (L : F.Layout) (packet altered : Bytes) : Prop :=
  ∃ c, c ≠ F.crc packet ∧ altered = packet.set L.crcPos c

/-! ## The packet that is sent -/

section Sealed

variable (L : F.Layout) {tail behind packet rest : Bytes} {more : Bool}

include L

variable (more tail) in
/-- What `packet_in_process` sees of a sealed packet: its size, its checksum, and with `header.crc`
cleared the bytes that the checksum was made of. -/
theorem sealed_eq (hlen : packet.length = F.packetSize) (hfits : SizeFits F packet) :
    (sealPacket F tail more packet).length = F.packetSize ∧
      F.size (sealPacket F tail more packet) = F.size packet ∧
      F.crc (sealPacket F tail more packet) =
        crc8 (F.setCrc 0 (sealPacket F tail more packet)) (F.headerSize + F.size packet) := by
  have hsize : F.size (F.setCrc 0 (F.setHasMorePackets more packet)) = F.size packet := by
    rw [L.size_setCrc, L.size_setHasMorePackets]
  have hcrc := L.crcPos_lt
  have hheader := L.header_le
  -- the checksum ends before what is behind the packet
  have hcovered : crc8 (F.setCrc 0 (F.setHasMorePackets more packet) ++ tail) (F.headerSize + F.size packet) =
      crc8 (F.setCrc 0 (F.setHasMorePackets more packet)) (F.headerSize + F.size packet) := by
    unfold crc8
    rw [List.take_append_of_le_length]
    rw [F.length_setCrc, F.length_setHasMorePackets, hlen]
    exact hfits
  unfold sealPacket
  refine ⟨?_, ?_, ?_⟩
  · rw [F.length_setCrc, F.length_setCrc, F.length_setHasMorePackets, hlen]
  · rw [L.size_setCrc, hsize]
  · rw [L.setCrc_setCrc, L.setCrc_setCrc, hsize, hcovered]
    generalize crc8 _ _ = c
    rw [L.crc_eq, L.setCrc_eq, List.getD_eq_getElem?_getD,
      List.getElem?_set_self (by rw [F.length_setHasMorePackets]; omega)]
    rfl

theorem sealed_valid (hlen : packet.length = F.packetSize) (hfits : SizeFits F packet)
    (hrest : rest.take F.packetSize = sealPacket F tail more packet) : CrcValid F behind rest := by
  obtain ⟨hl, hs, hc⟩ := sealed_eq L tail more hlen hfits
  rw [crcValid_iff (by rw [hrest]; exact hl) (by unfold SizeFits; rw [hrest, hs]; exact hfits), hrest,
    hs, hc]

/-! ## The packet that is altered -/

/-- Clearing `header.crc` neither hides nor adds a difference. -/
theorem Burst.cleared {altered : Bytes} (h : Burst L packet altered) (i : ℕ) :
    (F.setCrc 0 altered)[i]? = (F.setCrc 0 packet)[i]? ↔ altered[i]? = packet[i]? := by
  rw [L.setCrc_eq, L.setCrc_eq, List.getElem?_set, List.getElem?_set, h.length_eq]
  by_cases hi : L.crcPos = i
  · subst hi
    simp [h.crc_eq]
  · rw [if_neg hi, if_neg hi]

omit L in
/-- Another value in one covered byte is a burst. -/
theorem Burst.of_byte (L : F.Layout) {k : ℕ} (hk : k < packet.length)
    (hcovered : k < F.headerSize + F.size packet) (hsize : k ≠ L.sizePos) (hcrc : k ≠ L.crcPos)
    {b : UInt8} (hb : b ≠ packet[k]) : Burst L packet (packet.set k b) where
  length_eq := List.length_set
  ne heq := hb (by
    have hbyte := congrArg (fun l : Bytes => l[k]?) heq
    simp only [List.getElem?_set_self hk, List.getElem?_eq_getElem hk] at hbyte
    exact Option.some.inj hbyte)
  window := by
    refine ⟨8 * k, fun i hi => ?_⟩
    rw [getElem?_messageBits, getElem?_messageBits] at hi
    by_cases hbyte : k = i / 8
    · omega
    · exact absurd (by rw [List.getElem?_set_ne hbyte]) hi
  covered i hi := List.getElem?_set_ne (by omega)
  size_eq := List.getElem?_set_ne hsize
  crc_eq := List.getElem?_set_ne hcrc

theorem burst_invalid {altered : Bytes} (hlen : packet.length = F.packetSize) (hfits : SizeFits F packet)
    (hburst : Burst L (sealPacket F tail more packet) altered)
    (hrest : rest.take F.packetSize = altered) : ¬ CrcValid F behind rest := by
  obtain ⟨hl, hs, hc⟩ := sealed_eq L tail more hlen hfits
  have hsize : F.size altered = F.size packet := by
    rw [← hs, L.size_eq, L.size_eq, List.getD_eq_getElem?_getD, List.getD_eq_getElem?_getD,
      hburst.size_eq]
  have hcrc : F.crc altered = F.crc (sealPacket F tail more packet) := by
    rw [L.crc_eq, L.crc_eq, List.getD_eq_getElem?_getD, List.getD_eq_getElem?_getD, hburst.crc_eq]
  have hfits' : SizeFits F altered := by unfold SizeFits; rw [hsize]; exact hfits
  rw [crcValid_iff (by rw [hrest]; exact hburst.length_eq.trans hl) (by rw [hrest]; exact hfits'), hrest,
    hsize, hcrc, hc]
  obtain ⟨a, hwindow⟩ := hburst.window
  have hlength : (F.setCrc 0 altered).length = (F.setCrc 0 (sealPacket F tail more packet)).length := by
    rw [F.length_setCrc, F.length_setCrc, hburst.length_eq]
  refine crc8_ne_of_burst (a := a) hlength (fun hsame => hburst.ne ?_) fun i hi => ?_
  · -- the covered bytes are the same, and so are the others
    refine List.ext_getElem? fun i => ?_
    by_cases hi : i < F.headerSize + F.size packet
    · rw [← hburst.cleared]
      have hbyte := congrArg (fun l : Bytes => l[i]?) hsame
      simpa only [List.getElem?_take_of_lt hi] using hbyte
    · exact hburst.covered i (by rw [hs]; omega)
  · refine hwindow i fun hsame => hi ?_
    rw [getElem?_messageBits, getElem?_messageBits] at hsame ⊢
    by_cases hbyte : altered[i / 8]? = (sealPacket F tail more packet)[i / 8]?
    · rw [(hburst.cleared L _).mpr hbyte]
    · have hpos : L.crcPos ≠ i / 8 := fun hpos => hbyte (hpos ▸ hburst.crc_eq)
      rw [L.setCrc_eq, L.setCrc_eq, List.getElem?_set_ne hpos, List.getElem?_set_ne hpos]
      exact hsame.symm

theorem crcByte_invalid {altered : Bytes} (hlen : packet.length = F.packetSize)
    (hfits : SizeFits F packet) (haltered : CrcByteAltered L (sealPacket F tail more packet) altered)
    (hrest : rest.take F.packetSize = altered) : ¬ CrcValid F behind rest := by
  obtain ⟨hl, hs, hc⟩ := sealed_eq L tail more hlen hfits
  obtain ⟨c, hne, rfl⟩ := haltered
  have hcrc := L.crcPos_lt
  have hheader := L.header_le
  rw [← L.setCrc_eq] at hrest
  have hfits' : SizeFits F (F.setCrc c (sealPacket F tail more packet)) := by
    unfold SizeFits
    rw [L.size_setCrc, hs]
    exact hfits
  rw [crcValid_iff (by rw [hrest, F.length_setCrc]; exact hl) (by rw [hrest]; exact hfits'), hrest,
    L.setCrc_setCrc, L.size_setCrc, hs, ← hc]
  intro heq
  apply hne
  rw [heq, L.crc_eq, L.setCrc_eq, List.getD_eq_getElem?_getD, List.getElem?_set_self (by omega)]
  rfl

end Sealed

/-! ## From sender to receiver -/

/-- **The checksum of a packet**: a packet whose size fits, sealed by `data_out_process` and presented to
`packet_in_process` anywhere in an array, is put with `header.crc` zero and all else as it was; after a
burst of at most eight bits, or with another `crc` byte, it is not put.  What is on the stack behind it
makes no difference on either side. -/
theorem packet_crc (L : F.Layout) (more : Bool) {packet : Bytes} (hlen : packet.length = F.packetSize)
    (hfits : SizeFits F packet) {s : Sys} {items : List (Item F.packetSize)}
    (hrx : s.slave.spiRxFifo.Holds items) (hroom : items.length < FifoBuffer.capacity F.packetSize)
    (tail behind pData : Bytes) (pos : ℕ) :
    ((pData.drop pos).take F.packetSize = sealPacket F tail more packet →
      ∃ x : Item F.packetSize, x.1 = (sealPacket F tail more packet).set L.crcPos 0 ∧
        ((packetInProcess F behind pData pos).run s).2.slave.spiRxFifo.Holds (items ++ [x])) ∧
    ∀ altered, Burst L (sealPacket F tail more packet) altered ∨
        CrcByteAltered L (sealPacket F tail more packet) altered →
      (pData.drop pos).take F.packetSize = altered →
        ((packetInProcess F behind pData pos).run s).2.slave.spiRxFifo = s.slave.spiRxFifo := by
  rw [run_packetInProcess]
  refine ⟨fun hslice => ?_, fun altered haltered hslice => ?_⟩
  · have hl := (sealed_eq L tail more hlen hfits).1
    rw [if_pos (sealed_valid L hlen hfits hslice), hslice]
    refine ⟨⟨F.setCrc 0 (sealPacket F tail more packet), (F.length_setCrc _ _).trans hl⟩, L.setCrc_eq _ _, ?_⟩
    exact (hrx.put F.packetSize_pos ⟨F.setCrc 0 (sealPacket F tail more packet), _⟩
      ((Nat.le_div_iff_mul_le F.packetSize_pos).mp hroom)).2
  · have hinvalid : ¬ CrcValid F behind (pData.drop pos) :=
      haltered.elim (fun h => burst_invalid L hlen hfits h hslice) fun h =>
        crcByte_invalid L hlen hfits h hslice
    rw [if_neg hinvalid]
    rfl

/-- A packet with four bytes of payload. -/
def samplePacket : Bytes := [4, 0, 0, 11, 12, 13, 14] ++ List.replicate 56 0

/-- It is put as it was sent, and not with its first byte of payload inverted. -/
theorem packet_crc_sample :
    (∃ x : Item 63, x.1 = (sealPacket wideFormat [9] false samplePacket).set 1 0 ∧
      ((packetInProcess wideFormat [5] (sealPacket wideFormat [9] false samplePacket) 0).run
        (slaveStart wideFormat ⟨8, true, true, 0⟩)).2.slave.spiRxFifo.Holds ([] ++ [x])) ∧
    ((packetInProcess wideFormat [5] ((sealPacket wideFormat [9] false samplePacket).set 3 244) 0).run
      (slaveStart wideFormat ⟨8, true, true, 0⟩)).2.slave.spiRxFifo =
        (slaveStart wideFormat ⟨8, true, true, 0⟩).slave.spiRxFifo := by
  have hrx : (slaveStart wideFormat ⟨8, true, true, 0⟩).slave.spiRxFifo.Holds
      ([] : List (Item wideFormat.packetSize)) := by
    have hnew : (slaveStart wideFormat ⟨8, true, true, 0⟩).slave.spiRxFifo = .new 63 := by
      decide +kernel
    rw [hnew]
    exact FifoBuffer.holds_new 63
  have h := fun pData => packet_crc wideLayout false (show samplePacket.length = 63 by decide) (by decide) hrx
    (by decide) [9] [5] pData 0
  refine ⟨(h _).1 (by decide +kernel),
    (h _).2 ((sealPacket wideFormat [9] false samplePacket).set 3 244) (.inl ?_) (by decide +kernel)⟩
  exact .of_byte wideLayout (k := 3) (by decide +kernel) (by decide +kernel) (by decide) (by decide)
    (by decide +kernel)

end NeuronWired
