import NeuronWired.Cint
import NeuronWired.Crc.Reflected

/-!
# Crc32 — `dl_crc32.c`

The table has an entry for every value of the last eight bits of the register, so one look-up replaces eight
shifts of the reflected register.  The polynomial is 0x04C11DB7, which reads 0xEDB88320 from the other end.
-/

namespace NeuronWired

open SerialCrc

/-- `_crc32_lookup_table`. -/
def crc32LookupTable : Array UInt32 := #[
  0x00000000, 0x77073096, 0xee0e612c, 0x990951ba, 0x076dc419, 0x706af48f, 0xe963a535, 0x9e6495a3,
  0x0edb8832, 0x79dcb8a4, 0xe0d5e91e, 0x97d2d988, 0x09b64c2b, 0x7eb17cbd, 0xe7b82d07, 0x90bf1d91,
  0x1db71064, 0x6ab020f2, 0xf3b97148, 0x84be41de, 0x1adad47d, 0x6ddde4eb, 0xf4d4b551, 0x83d385c7,
  0x136c9856, 0x646ba8c0, 0xfd62f97a, 0x8a65c9ec, 0x14015c4f, 0x63066cd9, 0xfa0f3d63, 0x8d080df5,
  0x3b6e20c8, 0x4c69105e, 0xd56041e4, 0xa2677172, 0x3c03e4d1, 0x4b04d447, 0xd20d85fd, 0xa50ab56b,
  0x35b5a8fa, 0x42b2986c, 0xdbbbc9d6, 0xacbcf940, 0x32d86ce3, 0x45df5c75, 0xdcd60dcf, 0xabd13d59,
  0x26d930ac, 0x51de003a, 0xc8d75180, 0xbfd06116, 0x21b4f4b5, 0x56b3c423, 0xcfba9599, 0xb8bda50f,
  0x2802b89e, 0x5f058808, 0xc60cd9b2, 0xb10be924, 0x2f6f7c87, 0x58684c11, 0xc1611dab, 0xb6662d3d,
  0x76dc4190, 0x01db7106, 0x98d220bc, 0xefd5102a, 0x71b18589, 0x06b6b51f, 0x9fbfe4a5, 0xe8b8d433,
  0x7807c9a2, 0x0f00f934, 0x9609a88e, 0xe10e9818, 0x7f6a0dbb, 0x086d3d2d, 0x91646c97, 0xe6635c01,
  0x6b6b51f4, 0x1c6c6162, 0x856530d8, 0xf262004e, 0x6c0695ed, 0x1b01a57b, 0x8208f4c1, 0xf50fc457,
  0x65b0d9c6, 0x12b7e950, 0x8bbeb8ea, 0xfcb9887c, 0x62dd1ddf, 0x15da2d49, 0x8cd37cf3, 0xfbd44c65,
  0x4db26158, 0x3ab551ce, 0xa3bc0074, 0xd4bb30e2, 0x4adfa541, 0x3dd895d7, 0xa4d1c46d, 0xd3d6f4fb,
  0x4369e96a, 0x346ed9fc, 0xad678846, 0xda60b8d0, 0x44042d73, 0x33031de5, 0xaa0a4c5f, 0xdd0d7cc9,
  0x5005713c, 0x270241aa, 0xbe0b1010, 0xc90c2086, 0x5768b525, 0x206f85b3, 0xb966d409, 0xce61e49f,
  0x5edef90e, 0x29d9c998, 0xb0d09822, 0xc7d7a8b4, 0x59b33d17, 0x2eb40d81, 0xb7bd5c3b, 0xc0ba6cad,
  0xedb88320, 0x9abfb3b6, 0x03b6e20c, 0x74b1d29a, 0xead54739, 0x9dd277af, 0x04db2615, 0x73dc1683,
  0xe3630b12, 0x94643b84, 0x0d6d6a3e, 0x7a6a5aa8, 0xe40ecf0b, 0x9309ff9d, 0x0a00ae27, 0x7d079eb1,
  0xf00f9344, 0x8708a3d2, 0x1e01f268, 0x6906c2fe, 0xf762575d, 0x806567cb, 0x196c3671, 0x6e6b06e7,
  0xfed41b76, 0x89d32be0, 0x10da7a5a, 0x67dd4acc, 0xf9b9df6f, 0x8ebeeff9, 0x17b7be43, 0x60b08ed5,
  0xd6d6a3e8, 0xa1d1937e, 0x38d8c2c4, 0x4fdff252, 0xd1bb67f1, 0xa6bc5767, 0x3fb506dd, 0x48b2364b,
  0xd80d2bda, 0xaf0a1b4c, 0x36034af6, 0x41047a60, 0xdf60efc3, 0xa867df55, 0x316e8eef, 0x4669be79,
  0xcb61b38c, 0xbc66831a, 0x256fd2a0, 0x5268e236, 0xcc0c7795, 0xbb0b4703, 0x220216b9, 0x5505262f,
  0xc5ba3bbe, 0xb2bd0b28, 0x2bb45a92, 0x5cb36a04, 0xc2d7ffa7, 0xb5d0cf31, 0x2cd99e8b, 0x5bdeae1d,
  0x9b64c2b0, 0xec63f226, 0x756aa39c, 0x026d930a, 0x9c0906a9, 0xeb0e363f, 0x72076785, 0x05005713,
  0x95bf4a82, 0xe2b87a14, 0x7bb12bae, 0x0cb61b38, 0x92d28e9b, 0xe5d5be0d, 0x7cdcefb7, 0x0bdbdf21,
  0x86d3d2d4, 0xf1d4e242, 0x68ddb3f8, 0x1fda836e, 0x81be16cd, 0xf6b9265b, 0x6fb077e1, 0x18b74777,
  0x88085ae6, 0xff0f6a70, 0x66063bca, 0x11010b5c, 0x8f659eff, 0xf862ae69, 0x616bffd3, 0x166ccf45,
  0xa00ae278, 0xd70dd2ee, 0x4e048354, 0x3903b3c2, 0xa7672661, 0xd06016f7, 0x4969474d, 0x3e6e77db,
  0xaed16a4a, 0xd9d65adc, 0x40df0b66, 0x37d83bf0, 0xa9bcae53, 0xdebb9ec5, 0x47b2cf7f, 0x30b5ffe9,
  0xbdbdf21c, 0xcabac28a, 0x53b39330, 0x24b4a3a6, 0xbad03605, 0xcdd70693, 0x54de5729, 0x23d967bf,
  0xb3667a2e, 0xc4614ab8, 0x5d681b02, 0x2a6f2b94, 0xb40bbe37, 0xc30c8ea1, 0x5a05df1b, 0x2d02ef8d
]

/-- `CRC32_UPDATE`. -/
def crc32Update (octet : UInt8) (crc : UInt32) : UInt32 :=
  crc32LookupTable.getD ((crc ^^^ octet.toUInt32) &&& 0xff).toNat 0 ^^^ (crc >>> 8)

/-- `dlcrc32_calculate_data`, over the bytes `_data[0..len)`. -/
def dlcrc32CalculateData (crc32 : UInt32) (data : Bytes) (len : ℕ) : UInt32 :=
  ~~~(data.take len).foldl (fun crc octet => crc32Update octet crc) crc32

/-- `crc32` of `CRC_wrapper.cpp`. -/
def crc32 (ptr : Bytes) (len : ℕ) : UInt32 := dlcrc32CalculateData 0xFFFFFFFF ptr len

/-! ## The table -/

/-- The polynomial, without its leading term. -/
def crc32Poly : BitVec 32 := 0x04C11DB7#32

theorem reverse_crc32Poly : crc32Poly.reverse = 0xEDB88320#32 := by decide +kernel

theorem crc32LookupTable_shifts : ∀ k : Fin 256, (crc32LookupTable.getD k.1 0).toBitVec =
    Reflected.shifts crc32Poly.reverse 8 (BitVec.ofNat 32 k.1) := by
  rw [reverse_crc32Poly]
  decide +kernel

/-- The entry for the last byte of a register is eight shifts of it. -/
theorem crc32LookupTable_eq (r : UInt32) : (crc32LookupTable.getD (r &&& 0xff).toNat 0).toBitVec =
    Reflected.shifts crc32Poly.reverse 8 (Reflected.low 8 r.toBitVec) := by
  have hmask : (r &&& 0xff).toNat = r.toNat % 2 ^ 8 := by
    rw [UInt32.toNat_and]
    exact Nat.and_two_pow_sub_one_eq_mod r.toNat 8
  have hlt : r.toNat % 2 ^ 8 < 256 := Nat.mod_lt _ (by decide)
  have hlow : BitVec.ofNat 32 (r.toNat % 2 ^ 8) = Reflected.low 8 r.toBitVec := by
    refine BitVec.eq_of_toNat_eq ?_
    unfold Reflected.low
    rw [BitVec.toNat_setWidth, BitVec.toNat_setWidth]
    rfl
  rw [hmask, crc32LookupTable_shifts ⟨_, hlt⟩, hlow]

/-! ## Bits -/

/-- The bits of a byte as the register takes them, the least significant first. -/
def octetBits (b : UInt8) : List Bool := (List.range 8).map b.toBitVec.getLsbD

/-- The bits of a byte string. -/
def octetsBits (m : Bytes) : List Bool := m.flatMap octetBits

@[simp] theorem length_octetBits (b : UInt8) : (octetBits b).length = 8 := by simp [octetBits]

theorem reverse_pack_octetBits (b : UInt8) :
    (pack (octetBits b) : BitVec 32).reverse = b.toUInt32.toBitVec := by
  refine BitVec.eq_of_getLsbD_eq fun i hi => ?_
  rw [BitVec.getLsbD_reverse, getMsbD_pack hi]
  show _ = (b.toBitVec.setWidth 32).getLsbD i
  rw [BitVec.getLsbD_setWidth, decide_eq_true hi, Bool.true_and]
  by_cases h8 : i < 8
  · rw [List.getD_eq_getElem _ _ (by simpa using h8)]
    simp [octetBits]
  · rw [List.getD_eq_default _ _ (by simpa using h8), BitVec.getLsbD_of_ge _ _ (by omega)]

/-! ## One byte -/

/-- One `CRC32_UPDATE` is eight bits of the register. -/
theorem crc32Update_eq (octet : UInt8) (crc : UInt32) : (crc32Update octet crc).toBitVec =
    Reflected.run crc32Poly.reverse crc.toBitVec (octetBits octet) := by
  have hmoved : (crc ^^^ octet.toUInt32).toBitVec >>> 8 = (crc >>> 8).toBitVec := by
    refine BitVec.eq_of_getLsbD_eq fun i hi => ?_
    have hoctet : (octet.toBitVec.setWidth 32).getLsbD (8 + i) = false := by
      rw [BitVec.getLsbD_setWidth, BitVec.getLsbD_of_ge octet.toBitVec _ (by omega), Bool.and_false]
    have hshift : (crc >>> 8).toBitVec = crc.toBitVec >>> 8 := rfl
    rw [hshift, BitVec.getLsbD_ushiftRight, BitVec.getLsbD_ushiftRight, UInt32.toBitVec_xor, BitVec.getLsbD_xor]
    exact (congrArg (xor _) hoctet).trans (Bool.xor_false _)
  have hupdate : (crc32Update octet crc).toBitVec =
      (crc32LookupTable.getD ((crc ^^^ octet.toUInt32) &&& 0xff).toNat 0).toBitVec ^^^
        (crc >>> 8).toBitVec := rfl
  rw [hupdate, crc32LookupTable_eq, ← hmoved, ← Reflected.shifts_eq_low, UInt32.toBitVec_xor,
    Reflected.run_eq_shifts _ (by rw [length_octetBits]; decide), reverse_pack_octetBits, length_octetBits]

/-! ## Byte strings -/

theorem foldl_crc32Update (m : Bytes) (crc : UInt32) :
    (m.foldl (fun crc octet => crc32Update octet crc) crc).toBitVec =
      Reflected.run crc32Poly.reverse crc.toBitVec (octetsBits m) := by
  induction m generalizing crc with
  | nil => rfl
  | cons octet m ih =>
    show _ = Reflected.run crc32Poly.reverse crc.toBitVec (octetBits octet ++ octetsBits m)
    rw [List.foldl_cons, ih, Reflected.run_append, crc32Update_eq]

theorem dlcrc32CalculateData_eq (crc : UInt32) (data : Bytes) (len : ℕ) :
    (dlcrc32CalculateData crc data len).toBitVec =
      ~~~Reflected.run crc32Poly.reverse crc.toBitVec (octetsBits (data.take len)) := by
  rw [← foldl_crc32Update]
  rfl

/-- `crc32` starts from all ones, which read the same from both ends. -/
theorem crc32_eq (ptr : Bytes) (len : ℕ) : (crc32 ptr len).toBitVec =
    ~~~(run crc32Poly (BitVec.allOnes 32) (octetsBits (ptr.take len))).reverse := by
  have hones : (BitVec.allOnes 32).reverse = (0xFFFFFFFF : UInt32).toBitVec := by decide +kernel
  unfold crc32
  rw [dlcrc32CalculateData_eq, Reflected.reverse_run, hones]

/-- The register after the first part is what the second part starts from. -/
theorem dlcrc32CalculateData_append (crc : UInt32) (a b : Bytes) :
    dlcrc32CalculateData (~~~dlcrc32CalculateData crc a a.length) b b.length =
      dlcrc32CalculateData crc (a ++ b) (a ++ b).length := by
  unfold dlcrc32CalculateData
  rw [List.take_length, List.take_length, List.take_length, UInt32.not_not, List.foldl_append]

/-- **`dlcrc32_calculate_data` is the reflected CRC-32**: from every register and for every byte string it
gives the complement of what the bits leave in the register that shifts to the right with 0xEDB88320, which
is the register that shifts to the left with 0x04C11DB7 read backwards; and it chains. -/
theorem dlcrc32_reflected (crc : UInt32) (data : Bytes) (len : ℕ) :
    (dlcrc32CalculateData crc data len).toBitVec =
        ~~~Reflected.run 0xEDB88320#32 crc.toBitVec (octetsBits (data.take len)) ∧
      (dlcrc32CalculateData crc data len).toBitVec =
        ~~~(run 0x04C11DB7#32 crc.toBitVec.reverse (octetsBits (data.take len))).reverse ∧
      ∀ a b : Bytes, dlcrc32CalculateData (~~~dlcrc32CalculateData crc a a.length) b b.length =
        dlcrc32CalculateData crc (a ++ b) (a ++ b).length := by
  have hright := dlcrc32CalculateData_eq crc data len
  refine ⟨?_, ?_, dlcrc32CalculateData_append crc⟩
  · rw [hright, reverse_crc32Poly]
  · rw [Reflected.reverse_run, BitVec.reverse_reverse_eq]
    exact hright

/-- The check value of CRC-32, over the digits from 1 to 9. -/
example : crc32 [0x31, 0x32, 0x33, 0x34, 0x35, 0x36, 0x37, 0x38, 0x39] 9 = 0xCBF43926 := by decide +kernel

end NeuronWired
