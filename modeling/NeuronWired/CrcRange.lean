import NeuronWired.SpiPort

/-!
# CrcRange — the bytes a checksum covers

`crc8` reads `sizeof( Header ) + header.size` bytes, and `header.size` is taken from the packet before
anything has checked it.  The range stays inside the packet exactly while the sizes of what is received
and sent do.
-/

namespace NeuronWired

open Interrupt

/-! ## What is claimed -/

variable (F : PacketFormat)

/-- Every checksum made so far covers no more than its packet. -/
def ChecksInside (p : Port) : Prop := ∀ len ∈ crcLengths p.sys.ghost.trace, len ≤ F.packetSize

instance (p : Port) : Decidable (ChecksInside F p) := inferInstanceAs (Decidable (∀ _ ∈ _, _))

/-- The packets that an event checks: the slices of the payload, and the packet to be sent. -/
def checked (p : Port) : PortEvent → List Bytes
  | .run stack =>
    (runReceived stack p.sys).toList.flatMap (payloadSlices F) ++ (runSends F stack p.sys).toList
  | _ => []

/-- The sizes of the packets that an event checks fit. -/
def SizesFit (p : Port) (e : PortEvent) : Prop := ∀ packet ∈ checked F p e, SizeFits F packet

instance (p : Port) (e : PortEvent) : Decidable (SizesFit F p e) :=
  inferInstanceAs (Decidable (∀ _ ∈ _, _))

variable {F}

/-! ## One event -/

section Step

variable {size : ℕ} {p : Port} {e : PortEvent}

/-- An event makes one checksum for each packet that it checks. -/
theorem lengths_step (L : F.Layout) (hB : Base size p.sys) : Base size (p.step F e).sys ∧
    crcLengths (p.step F e).sys.ghost.trace = crcLengths p.sys.ghost.trace ++
      (checked F p e).map fun q => F.headerSize + F.size q := by
  have hnone : crcLengths p.sys.ghost.trace = crcLengths p.sys.ghost.trace ++ [] :=
    (List.append_nil _).symm
  cases e with
  | irq i =>
    have hirq := hB.aside.irq i
    exact ⟨hirq.base, hirq.lens.trans hnone⟩
  | run stack =>
    obtain ⟨more, hrun⟩ := hB.aside.slaveRun (F := F) stack
    refine ⟨hrun.base, hrun.lens.trans ?_⟩
    unfold checked
    simp only [List.map_append, List.append_assoc, L.size_setCrc, L.size_setHasMorePackets]
  | sendPacket packet => exact ⟨hB.congr rfl rfl rfl, hnone⟩
  | readPacket =>
    refine ⟨((frame_base_only size).slaveProg F .readPacket).run hB, Eq.trans ?_ hnone⟩
    show crcLengths (readPacket.run p.sys).2.ghost.trace = _
    unfold readPacket
    rw [Prog.run_bind, run_readSlave, Prog.run_ite]
    split_ifs <;> rfl
  | peekPacket =>
    show Base size (peekPacket.run p.sys).2 ∧ crcLengths (peekPacket.run p.sys).2.ghost.trace = _
    rw [run_peekPacket]
    exact ⟨hB, hnone⟩
  | clearRead =>
    have hkeep : Keeps (fun s => Base size s ∧ crcLengths s.ghost.trace = crcLengths p.sys.ghost.trace)
        (clearRead p.sys.slave.spiRxFifo.index.toNat) :=
      keeps_clearRead (fun _ _ hs => ⟨hs.1.congr rfl rfl rfl, hs.2⟩) _
    obtain ⟨hbase, hlens⟩ := hkeep.run (s := p.sys) ⟨hB, rfl⟩
    exact ⟨hbase, hlens.trans hnone⟩

theorem checksInside_step (L : F.Layout) (hB : Base size p.sys) :
    ChecksInside F (p.step F e) ↔ ChecksInside F p ∧ SizesFit F p e := by
  unfold ChecksInside SizesFit SizeFits
  rw [(lengths_step L hB).2]
  simp only [List.mem_append, List.mem_map, or_imp, forall_and, forall_exists_index, and_imp,
    forall_apply_eq_imp_iff₂]

end Step

/-! ## Every run -/

theorem checksInside_start (hw : Board) : ChecksInside F (.start F hw) := by
  obtain ⟨h, heq, -⟩ := start_eq (spiSlaveConf F) hw (.new F)
  have hnone : crcLengths (Port.start F hw).sys.ghost.trace = [] := by
    show crcLengths (slaveStart F hw).ghost.trace = _
    unfold slaveStart
    rw [heq]
    unfold Sys.rearm Sys.answer
    rw [prepared_eq (spiSlaveConf_ok F)]
    rfl
  unfold ChecksInside
  rw [hnone]
  exact fun len hlen => by cases hlen

/-- **Checksum ranges**: no checksum has covered more than its packet after exactly the runs in which
`header.size` fits in every slice of every payload and in every packet sent. -/
theorem checks_inside (L : F.Layout) (hw : Board) (events : List PortEvent) :
    ChecksInside F (Run.after (Port.step F) (.start F hw) events) ↔
      Run.Along (Port.step F) (SizesFit F) (.start F hw) events := by
  have hB : Base ((spiSlaveConf F).messageSizeMax + 2) (Port.start F hw).sys :=
    base_start (spiSlaveConf_ok F) hw _
  have hstep : ∀ p e, Base ((spiSlaveConf F).messageSizeMax + 2) p.sys → True →
      Base ((spiSlaveConf F).messageSizeMax + 2) (Port.step F p e).sys :=
    fun p e h _ => (lengths_step L h).1
  rw [(Run.along_true _ events).after_iff (by exact hB) hstep fun p e h _ => checksInside_step L h,
    and_iff_right (checksInside_start hw)]

/-- A payload of two packets arrives, one of them full, and a packet with four bytes is sent. -/
def sampleFitting : List PortEvent :=
  deliver ⟨fun _ => [], []⟩ ((9 :: List.replicate 62 0) ++ (60 :: List.replicate 62 0)) ++
    [.sendPacket (4 :: List.replicate 62 0), .run ⟨fun _ => [], []⟩]

theorem checks_inside_fitting :
    crcLengths (Run.after (Port.step wideFormat) (.start wideFormat ⟨8, true, true, 0⟩)
        sampleFitting).sys.ghost.trace = [12, 63, 7] ∧
      ChecksInside wideFormat
        (Run.after (Port.step wideFormat) (.start wideFormat ⟨8, true, true, 0⟩) sampleFitting) :=
  ⟨by decide +kernel, (checks_inside wideLayout ⟨8, true, true, 0⟩ sampleFitting).mpr (by decide +kernel)⟩

/-- A payload of one packet whose size is 255, and a packet of that size to be sent: 258 bytes are
covered where there are 63. -/
theorem checks_outside :
    (∃ bytes : Bytes, bytes.length = 63 ∧ ¬ ChecksInside wideFormat
      (Run.after (Port.step wideFormat) (.start wideFormat ⟨8, true, true, 0⟩) (deliver ⟨fun _ => [], []⟩ bytes))) ∧
    ∃ packet : Bytes, packet.length = 63 ∧ ¬ ChecksInside wideFormat
      (Run.after (Port.step wideFormat) (.start wideFormat ⟨8, true, true, 0⟩)
        [.sendPacket packet, .run ⟨fun _ => [], []⟩]) :=
  ⟨⟨255 :: List.replicate 62 0, by decide, by decide +kernel⟩,
    ⟨255 :: List.replicate 62 0, by decide, by decide +kernel⟩⟩

end NeuronWired
