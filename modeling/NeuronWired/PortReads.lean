import NeuronWired.SpiPort

/-!
# PortReads — what the reader gets

`packet_in_process` does not look at what `put` returns.  While `rx_fifo` has room for the valid packets of
every payload, the packets that leave it and those still in it are the valid packets received, in order;
one payload without room breaks this for good.
-/

namespace NeuronWired

open Interrupt

/-! ## The packets in a queue -/

/-- The packets stored in a queue. -/
def FifoBuffer.contents (f : FifoBuffer) : List Bytes :=
  slices f.itemSize f.numItems.toNat f.internalBuffer

section Queue

variable {n : ℕ} {f : FifoBuffer} {items : List (Item n)}

theorem length_slices (size n : ℕ) (rest : Bytes) : (slices size n rest).length = n := by
  induction n generalizing rest with
  | zero => rfl
  | succ n ih => rw [slices, List.length_cons, ih]

theorem slices_items (items : List (Item n)) (zs : Bytes) :
    slices n items.length (itemBytes items ++ zs) = items.map Subtype.val := by
  induction items with
  | nil => rfl
  | cons x items ih =>
    rw [itemBytes_cons, List.append_assoc, List.length_cons, slices, List.take_left' x.2,
      List.drop_left' x.2, ih]
    rfl

theorem FifoBuffer.Holds.contents (h : f.Holds items) : f.contents = items.map Subtype.val := by
  unfold FifoBuffer.contents
  rw [h.itemSize, h.numItems, Int.toNat_natCast, h.buffer, slices_items]

/-- The queue takes what it has room for, and the rest is lost. -/
theorem FifoBuffer.Holds.putAll (h : f.Holds items) (hpos : 0 < n) (hn : n ≤ internalBufferSize)
    (packets : List (Item n)) :
    (f.putAll (packets.map Subtype.val)).Holds
      (items ++ packets.take (capacity n - items.length)) := by
  induction packets generalizing f items with
  | nil => simpa [FifoBuffer.putAll] using h
  | cons x packets ih =>
    show ((f.put x.1).2.putAll (packets.map Subtype.val)).Holds _
    by_cases hfull : internalBufferSize < (items.length + 1) * n
    · have hcap : capacity n < items.length + 1 := (Nat.div_lt_iff_lt_mul hpos).mpr hfull
      have hput := h.put_full hn x.1 hfull
      have hnone : capacity n - items.length = 0 := by omega
      have hrest := ih h
      rw [hnone, List.take_zero] at hrest ⊢
      rw [hput]
      exact hrest
    · have hcap : items.length + 1 ≤ capacity n :=
        (Nat.le_div_iff_mul_le hpos).mpr (Nat.le_of_not_lt hfull)
      have hput := (h.put hpos x (Nat.le_of_not_lt hfull)).2
      have hrest := ih hput
      have hone : capacity n - items.length = capacity n - (items ++ [x]).length + 1 := by
        simp only [List.length_append, List.length_cons, List.length_nil]
        omega
      rw [hone, List.take_succ_cons]
      simpa using hrest

/-- Packets of the right length are items. -/
theorem exists_items {packets : List Bytes} (h : ∀ p ∈ packets, p.length = n) :
    ∃ items : List (Item n), items.map Subtype.val = packets := by
  induction packets with
  | nil => exact ⟨[], rfl⟩
  | cons p packets ih =>
    obtain ⟨items, hitems⟩ := ih fun q hq => h q (List.mem_cons_of_mem _ hq)
    exact ⟨⟨p, h p List.mem_cons_self⟩ :: items, by rw [List.map_cons, hitems]⟩

/-- A queue never holds more than its capacity. -/
theorem FifoBuffer.Holds.length_le_capacity (h : f.Holds items) (hpos : 0 < n) :
    items.length ≤ capacity n := (Nat.le_div_iff_mul_le hpos).mpr h.fits

end Queue

/-! ## What is claimed -/

variable (F : PacketFormat)

/-- What left `rx_fifo` and what is in it are the valid packets of the payloads, in order. -/
def Intact (p : Port) : Prop :=
  p.gone.map Departure.packet ++ p.sys.slave.spiRxFifo.contents =
    p.payloads.flatMap (payloadValid F)

instance (p : Port) : Decidable (Intact F p) := inferInstanceAs (Decidable (_ = _))

/-- The payload that an event receives. -/
def receivedBy (p : Port) : PortEvent → List Payload
  | .run stack => (runReceived stack p.sys).toList
  | _ => []

/-- A payload is of up to four packets. -/
def UpToFour (p : Port) (e : PortEvent) : Prop :=
  ∀ r ∈ receivedBy p e, r.read.dataSize.getD 0 ≤ F.packetSize * 4

/-- `rx_fifo` has room for the valid packets of the payload. -/
def HasRoom (p : Port) (e : PortEvent) : Prop :=
  p.sys.slave.spiRxFifo.getNumItems + ((receivedBy p e).flatMap (payloadValid F)).length ≤
    FifoBuffer.capacity F.packetSize

instance (p : Port) (e : PortEvent) : Decidable (UpToFour F p e) :=
  inferInstanceAs (Decidable (∀ r ∈ _, _))

instance (p : Port) (e : PortEvent) : Decidable (HasRoom F p e) :=
  inferInstanceAs (Decidable (_ ≤ _))

variable {F}

/-! ## The slices -/

theorem length_validPackets {behind : ℕ → Bytes} {n : ℕ} {rest : Bytes} (h : n * F.packetSize ≤ rest.length) :
    ∀ p ∈ validPackets F behind n rest, p.length = F.packetSize := by
  induction n generalizing rest with
  | zero => exact fun p hp => by cases hp
  | succ n ih =>
    have hmul : (n + 1) * F.packetSize = n * F.packetSize + F.packetSize := by ring
    have hrest : n * F.packetSize ≤ (rest.drop F.packetSize).length := by
      rw [List.length_drop]
      omega
    have hothers := ih hrest
    intro p hp
    rw [validPackets_succ] at hp
    split_ifs at hp
    · rcases List.mem_cons.mp hp with rfl | hp
      · rw [F.length_setCrc, List.length_take]
        omega
      · exact hothers p hp
    · exact hothers p hp

/-- Up to four packets are inside `p_data`. -/
theorem length_payloadValid {r : Payload} (h : r.read.dataSize.getD 0 ≤ F.packetSize * 4) :
    ∀ p ∈ payloadValid F r, p.length = F.packetSize := by
  apply length_validPackets
  unfold payloadArray spilsMessageSizeMax payloadPackets
  rw [length_memcpy, List.length_replicate]
  exact Nat.le_trans (Nat.div_mul_le_self _ _) h

theorem length_receivedBy {p : Port} {e : PortEvent} (h : UpToFour F p e) :
    ∀ q ∈ (receivedBy p e).flatMap (payloadValid F), q.length = F.packetSize := by
  intro q hq
  obtain ⟨r, hr, hq⟩ := List.mem_flatMap.mp hq
  exact length_payloadValid (h r hr) q hq

/-! ## The calls of the reader -/

section Calls

variable {s : Sys} {items : List (Item F.packetSize)}

theorem run_readPacket (h : s.slave.spiRxFifo.Holds items) :
    (readPacket.run s).2.slave.spiRxFifo.Holds items.tail ∧
      (readable s).toList = (items.take 1).map Subtype.val := by
  have hempty := h.isEmpty F.packetSize_pos
  unfold readPacket readable
  rw [Prog.run_bind, run_readSlave]
  dsimp only
  rw [Prog.run_ite, hempty]
  cases items with
  | nil =>
    rw [if_pos List.isEmpty_nil, if_pos List.isEmpty_nil]
    exact ⟨h, rfl⟩
  | cons x items =>
    obtain ⟨hgot, hrest⟩ := h.get F.packetSize_pos
    have hfull : ¬ (x :: items).isEmpty = true := Bool.false_ne_true
    rw [if_neg hfull, if_neg hfull, hgot]
    exact ⟨hrest, rfl⟩

/-- `clearRead` removes everything, the oldest packet first. -/
theorem run_clearRead {k : ℕ} (h : s.slave.spiRxFifo.Holds items) (hk : items.length ≤ k) :
    ((clearRead k).run s).1 = items.map Subtype.val ∧
      ((clearRead k).run s).2.slave.spiRxFifo.Holds ([] : List (Item F.packetSize)) := by
  induction items generalizing k s with
  | nil =>
    cases k with
    | zero => exact ⟨rfl, h⟩
    | succ k =>
      have hempty : s.slave.spiRxFifo.isEmpty = true := h.isEmpty F.packetSize_pos
      unfold clearRead
      rw [Prog.run_bind, run_readSlave, if_pos hempty]
      exact ⟨rfl, h⟩
  | cons x items ih =>
    rw [List.length_cons] at hk
    obtain ⟨k, rfl⟩ : ∃ j, k = j + 1 := ⟨k - 1, by omega⟩
    have hfull : ¬ s.slave.spiRxFifo.isEmpty = true := by
      rw [h.isEmpty F.packetSize_pos]
      exact Bool.false_ne_true
    obtain ⟨hrest, hempty⟩ := ih (k := k)
      (s := s.mapSlave fun p => { p with spiRxFifo := p.spiRxFifo.removeOne.2 })
      (h.forward F.packetSize_pos) (by omega)
    unfold clearRead
    rw [Prog.run_bind, run_readSlave, if_neg hfull, Prog.run_bind, run_readSlave, Prog.run_bind,
      run_writeSlave, Prog.run_bind, Prog.run_pure, h.peek F.packetSize_pos]
    dsimp only
    exact ⟨by rw [hrest]; rfl, hempty⟩

end Calls

/-! ## One event -/

section Step

variable {size : ℕ} {p : Port} {e : PortEvent} {items : List (Item F.packetSize)}

/-- `left` goes, `kept` stays, and of what comes the queue takes what it has room for. -/
theorem Port.step_cases (hB : Base size p.sys) (h : p.sys.slave.spiRxFifo.Holds items)
    (hfour : UpToFour F p e) : ∃ left kept incoming : List (Item F.packetSize),
      incoming.map Subtype.val = (receivedBy p e).flatMap (payloadValid F) ∧
      left ++ kept = items ++ incoming.take (FifoBuffer.capacity F.packetSize - items.length) ∧
      Base size (p.step F e).sys ∧ (p.step F e).sys.slave.spiRxFifo.Holds kept ∧
      (p.step F e).gone.map Departure.packet =
        p.gone.map Departure.packet ++ left.map Subtype.val ∧
      (p.step F e).payloads = p.payloads ++ receivedBy p e := by
  have hslave := frame_base_only size
  have hsame : items = [] ++ items := rfl
  cases e with
  | irq i =>
    have hirq := hB.aside.irq i
    exact ⟨[], items, [], rfl, by simp, hirq.base, hirq.rx ▸ h, by simp [Port.step],
      by simp [Port.step, receivedBy]⟩
  | run stack =>
    obtain ⟨more, hrun⟩ := hB.aside.slaveRun (F := F) stack
    have hn : F.packetSize ≤ internalBufferSize := by
      have := F.fits
      unfold internalBufferSize
      omega
    obtain ⟨incoming, hin⟩ : ∃ incoming : List (Item F.packetSize), incoming.map Subtype.val =
        (receivedBy p (.run stack)).flatMap (payloadValid F) := exists_items (length_receivedBy hfour)
    have hput := h.putAll F.packetSize_pos hn incoming
    refine ⟨[], _, incoming, hin, rfl, hrun.base, ?_, by simp [Port.step], rfl⟩
    rw [hin] at hput
    show ((spiSlaveRun F stack).run p.sys).2.slave.spiRxFifo.Holds _
    rw [hrun.rx]
    exact hput
  | sendPacket packet =>
    exact ⟨[], items, [], rfl, by simp, hB.congr rfl rfl rfl, h, by simp [Port.step],
      by simp [Port.step, receivedBy]⟩
  | readPacket =>
    obtain ⟨hkept, hleft⟩ := run_readPacket h
    refine ⟨items.take 1, items.tail, [], rfl, ?_, (hslave.slaveProg F .readPacket).run hB, hkept, ?_,
      by simp [Port.step, receivedBy]⟩
    · cases items <;> simp
    · show (p.gone ++ (readable p.sys).toList.map Departure.read).map _ = _
      rw [hleft, List.map_append, List.map_map]
      congr 1
      exact List.map_id _
  | peekPacket =>
    refine ⟨[], items, [], rfl, by simp, ?_, ?_, by simp [Port.step], by simp [Port.step, receivedBy]⟩
    · show Base size (peekPacket.run p.sys).2
      rw [run_peekPacket]
      exact hB
    · show (peekPacket.run p.sys).2.slave.spiRxFifo.Holds items
      rw [run_peekPacket]
      exact h
  | clearRead =>
    have hbytes : items.length ≤ p.sys.slave.spiRxFifo.index.toNat := by
      rw [h.index, Int.toNat_natCast]
      exact Nat.le_mul_of_pos_right _ F.packetSize_pos
    have hkeep : Keeps (Base size) (clearRead p.sys.slave.spiRxFifo.index.toNat) :=
      keeps_clearRead (fun _ _ hs => hs.congr rfl rfl rfl) _
    obtain ⟨hleft, hkept⟩ := run_clearRead h hbytes
    refine ⟨items, [], [], rfl, by simp, hkeep.run hB, hkept, ?_, by simp [Port.step, receivedBy]⟩
    show (p.gone ++ ((clearRead _).run p.sys).1.map Departure.cleared).map _ = _
    rw [hleft, List.map_append, List.map_map]
    congr 1
    exact List.map_id _

end Step

/-! ## Every run -/

section Runs

variable {size : ℕ} {p : Port} {e : PortEvent}

variable (F size) in
/-- The queue is in shape, and no packet has come from nowhere. -/
def Accounted (p : Port) : Prop :=
  Base size p.sys ∧ ∃ items : List (Item F.packetSize), p.sys.slave.spiRxFifo.Holds items ∧
    p.gone.length + items.length ≤ (p.payloads.flatMap (payloadValid F)).length

theorem Accounted.step (h : Accounted F size p) (hfour : UpToFour F p e) :
    Accounted F size (p.step F e) := by
  obtain ⟨hB, items, hitems, hcount⟩ := h
  obtain ⟨left, kept, incoming, hin, hmoved, hB', hkept, hgone, hpay⟩ := Port.step_cases hB hitems hfour
  refine ⟨hB', kept, hkept, ?_⟩
  have hg := congrArg List.length hgone
  have hm := congrArg List.length hmoved
  have hi := congrArg List.length hin
  rw [hpay, List.flatMap_append, List.length_append, ← hi]
  simp only [List.length_append, List.length_map, List.length_take] at hg hm ⊢
  omega

/-- One event keeps the account exactly when the queue has room. -/
theorem intact_step (h : Accounted F size p) (hfour : UpToFour F p e) :
    Intact F (p.step F e) ↔ Intact F p ∧ HasRoom F p e := by
  obtain ⟨hB, items, hitems, hcount⟩ := h
  obtain ⟨left, kept, incoming, hin, hmoved, -, hkept, hgone, hpay⟩ :=
    Port.step_cases hB hitems hfour
  have hlen := hitems.length_le_capacity F.packetSize_pos
  have hall : ∀ packets : List Bytes, packets ++ left.map Subtype.val ++ kept.map Subtype.val =
      packets ++ items.map Subtype.val ++
        (incoming.take (FifoBuffer.capacity F.packetSize - items.length)).map Subtype.val := by
    intro packets
    rw [List.append_assoc, List.append_assoc, ← List.map_append, ← List.map_append, hmoved]
  unfold Intact HasRoom
  rw [hgone, hkept.contents, hitems.contents, hall, hpay, List.flatMap_append, ← hin,
    hitems.getNumItems F.packetSize_pos, List.length_map]
  constructor
  · intro heq
    have hl := congrArg List.length heq
    simp only [List.length_append, List.length_map, List.length_take] at hl
    have hroom : items.length + incoming.length ≤ FifoBuffer.capacity F.packetSize := by omega
    rw [List.take_of_length_le (by omega)] at heq
    exact ⟨List.append_cancel_right heq, hroom⟩
  · rintro ⟨heq, hroom⟩
    rw [heq, List.take_of_length_le (by omega)]

theorem accounted_start (hw : Board) :
    Accounted F ((spiSlaveConf F).messageSizeMax + 2) (Port.start F hw) ∧ Intact F (Port.start F hw) := by
  have hB := base_start (spiSlaveConf_ok F) hw (.new F)
  have hrx : (Port.start F hw).sys.slave.spiRxFifo = .new F.packetSize := by
    obtain ⟨h, heq, -⟩ := start_eq (spiSlaveConf F) hw (.new F)
    show (slaveStart F hw).slave.spiRxFifo = _
    unfold slaveStart
    rw [heq]
    unfold Sys.rearm Sys.answer
    rw [prepared_eq (spiSlaveConf_ok F)]
    rfl
  have hholds : (Port.start F hw).sys.slave.spiRxFifo.Holds ([] : List (Item F.packetSize)) :=
    hrx ▸ FifoBuffer.holds_new _
  refine ⟨⟨hB, [], hholds, Nat.le_refl _⟩, ?_⟩
  unfold Intact
  rw [hholds.contents]
  rfl

end Runs

/-- **What the reader gets**: the packets that left `rx_fifo` and those in it are the valid packets of the
payloads, each once and in order, after exactly the runs in which `rx_fifo` had room for the valid packets
of every payload. -/
theorem packets_reach_reader (hw : Board) (events : List PortEvent)
    (hfour : Run.Along (Port.step F) (UpToFour F) (.start F hw) events) :
    Intact F (Run.after (Port.step F) (.start F hw) events) ↔
      Run.Along (Port.step F) (HasRoom F) (.start F hw) events := by
  obtain ⟨hacc, hintact⟩ := accounted_start (F := F) hw
  rw [hfour.after_iff hacc (fun p e h hf => h.step hf) fun p e h hf => intact_step h hf,
    and_iff_right hintact]

/-- A packet whose size is 255: its checksum covers six bytes behind the array. -/
def overlong : Bytes := 255 :: 254 :: List.replicate 61 0

/-- It arrives three times and passes the check twice; one is read, the other removed. -/
def sampleReads : List PortEvent :=
  deliver ⟨fun _ => [1, 2, 3, 4, 5, 6], []⟩ overlong ++ [.peekPacket, .readPacket] ++
    deliver ⟨fun _ => [0, 0, 0, 0, 0, 0], []⟩ overlong ++ deliver ⟨fun _ => [1, 2, 3, 4, 5, 6], []⟩ overlong ++
    [.clearRead]

theorem packets_reach_reader_two :
    (Run.after (Port.step wideFormat) (.start wideFormat ⟨8, true, true, 0⟩) sampleReads).gone =
        [.read (255 :: List.replicate 62 0), .cleared (255 :: List.replicate 62 0)] ∧
      Intact wideFormat
        (Run.after (Port.step wideFormat) (.start wideFormat ⟨8, true, true, 0⟩) sampleReads) :=
  ⟨by decide +kernel,
    (packets_reach_reader ⟨8, true, true, 0⟩ sampleReads (by decide +kernel)).mpr (by decide +kernel)⟩

/-- Twelve messages of four packets arrive before the reader looks. -/
def flood : List PortEvent := (List.replicate 12 (deliver ⟨fun _ => [], []⟩ (List.replicate 252 0))).flatten

/-- The queue holds 47 packets, and the last one of the 48 is gone. -/
theorem packets_lost :
    Run.Along (Port.step wideFormat) (UpToFour wideFormat) (.start wideFormat ⟨8, true, true, 0⟩) flood ∧
      ¬ Intact wideFormat
        (Run.after (Port.step wideFormat) (.start wideFormat ⟨8, true, true, 0⟩) flood) := by
  refine ⟨by decide +kernel, fun h => ?_⟩
  have hlen := congrArg List.length h
  rw [List.length_append, FifoBuffer.contents, length_slices] at hlen
  exact absurd hlen (by decide +kernel)

end NeuronWired
