import NeuronWired.Delivery
import NeuronWired.Notification
import NeuronWired.PortReads
import NeuronWired.Interrupt.History

/-!
# PortInbound — from the wire to the reader

The two halves of the inbound path together, with chip-select interrupts at any point: the link hands each
acknowledged payload to `data_in_process` once and in order, which hands its valid packets to `rx_fifo`, out
of which `SpiPort::readPacket` takes them.  What the master was told has arrived reaches the reader.
-/

namespace NeuronWired

open Interrupt

/-! ## What has come through the link -/

section ReadSoFar

variable {size : ℕ} {T : List Bytes} {rx : FifoBuffer} {s : Sys}

/-- The payloads that `spils_data_read` has returned, and the packets received. -/
structure ReadSoFar (size : ℕ) (T : List Bytes) (rx : FifoBuffer) (s : Sys) : Prop where
  base : Base size s
  returned : returned s.ghost.trace = T
  rx : s.slave.spiRxFifo = rx

/-- The interrupt, for everything between the wire and the reader. -/
structure PortRely (size : ℕ) (s s' : Sys) : Prop where
  inbound : InRely size True (fun _ => True) s s'
  base : Base size s → Base size s'
  returned : NeuronWired.returned s'.ghost.trace = NeuronWired.returned s.ghost.trace
  rx : s'.slave.spiRxFifo = s.slave.spiRxFifo

theorem stable_readSoFar : Stable (PortRely size) (ReadSoFar size T rx) :=
  fun _ _ hR h => ⟨hR.base h.base, hR.returned.trans h.returned, hR.rx.trans h.rx⟩

theorem ReadSoFar.log (h : ReadSoFar size T rx s) {x : Obs} (hx : x.Local)
    (hr : ∀ n d, x ≠ .readRet .ok n d) : ReadSoFar size T rx (s.log x) := by
  refine ⟨(frame_base_only size).log s x hx h.base, ?_, h.rx⟩
  rw [Sys.trace_log, returned_append, ← h.returned]
  cases x with
  | readRet r n d =>
    cases r with
    | ok => exact absurd rfl (hr n d)
    | _ => exact List.append_nil _
  | _ => exact List.append_nil _

theorem ReadSoFar.event (h : ReadSoFar size T rx s) (e : SpilsEventType) :
    ReadSoFar size T rx ((s.mapSlave (spilsEventHandler e)).log (.event e)) := by
  have hs : ReadSoFar size T rx (s.mapSlave (spilsEventHandler e)) :=
    ⟨h.base.congr rfl rfl rfl, h.returned, by rw [← h.rx]; cases e <;> rfl⟩
  exact hs.log trivial nofun

theorem conFrame_readSoFar : ConFrame (ReadSoFar size T rx) where
  link s f hf h := ⟨(frame_base_only size).con.link s f hf h.base, h.returned, h.rx⟩
  event _ e _ h := h.event e

theorem moveFrame_readSoFar : MoveFrame (ReadSoFar size T rx) where
  isIn s h := (frame_base_only size).isIn s h.base
  link s f hf hp hc h := ⟨(frame_base_only size).inFrame.link s f hf hp hc h.base, h.returned, h.rx⟩
  swapIn _ _ h := ⟨h.base.congr rfl rfl rfl, h.returned, h.rx⟩
  event _ h := h.event _

theorem outFrame_readSoFar : OutFrame (ReadSoFar size T rx) where
  isOut s h := (frame_base_only size).isOut s h.base
  link s f hf h := ⟨(frame_base_only size).outFrame.link s f hf h.base, h.returned, h.rx⟩
  buf s i b _ hb h := ⟨(frame_base_only size).buf s i b hb h.base, h.returned, h.rx⟩
  filling _ _ h := ⟨h.base.congr rfl rfl rfl, h.returned, h.rx⟩
  failed _ _ h := h.log trivial nofun

theorem keeps_spilsPoll_readSoFar : Keeps (ReadSoFar size T rx) spilsPoll :=
  .bind conFrame_readSoFar.conMachine fun _ => moveFrame_readSoFar.lineInBusyProcess

theorem ReadSoFar.mapSlave {f : SpiSlave → SpiSlave} (h : ReadSoFar size T rx s)
    (hf : ∀ p, (f p).spiRxFifo = p.spiRxFifo) : ReadSoFar size T rx (s.mapSlave f) :=
  ⟨h.base.congr rfl rfl rfl, h.returned, (hf s.slave).trans h.rx⟩

theorem keeps_writeSlave_readSoFar {f : SpiSlave → SpiSlave} (hf : ∀ p, (f p).spiRxFifo = p.spiRxFifo) :
    Keeps (ReadSoFar size T rx) (writeSlave f) := keeps_write fun _ h => h.mapSlave hf

theorem dataOutFrame_readSoFar : DataOutFrame (ReadSoFar size T rx) where
  outFrame := outFrame_readSoFar
  txFifo _ _ h := h.mapSlave fun _ => rfl
  txGet _ _ h := h.log trivial nofun
  crcRange _ _ _ _ h := h.log trivial nofun
  sending _ _ h := h.mapSlave fun _ => rfl
  sendRet _ _ _ _ h := h.log trivial nofun

/-- `spils_data_read` returns one payload more. -/
theorem wp_spilsDataRead_returned (h : ReadSoFar size T rx s) :
    wp (PortRely size) (fun _ => True) spilsDataRead
      (fun r t => r.result = .ok → ReadSoFar size (T ++ entry r.data) rx t) s := by
  have hst : Stable (PortRely size) (ReadSoFar size T rx) := stable_readSoFar
  have hF : MoveFrame (ReadSoFar size T rx) := moveFrame_readSoFar
  have hA : ∀ t, ReadSoFar size T rx t → True := fun _ _ => trivial
  have hframe : ∀ {α : Type} {p : Code α} (t : Sys), Keeps (ReadSoFar size T rx) p → ReadSoFar size T rx t →
      wp (PortRely size) (fun _ => True) p (fun _ => ReadSoFar size T rx) t :=
    fun t hk ht => wp_always_mono (wp_frame hst hk ht) hA
  have hret : ∀ (r : DataRead) (t : Sys), ReadSoFar size T rx t → wp (PortRely size) (fun _ => True)
      (returnRead r) (fun r t => r.result = .ok → ReadSoFar size (T ++ entry r.data) rx t) t := by
    intro r t ht
    refine wp_write hst hA ht fun t ht => wp_pure ?_ (fun _ _ => trivial) fun hr => ?_
    · exact fun _ _ hR h hr => stable_readSoFar _ _ hR (h hr)
    · refine ⟨(frame_base_only size).log t _ trivial ht.base, ?_, ht.rx⟩
      rw [Sys.trace_log, returned_append, ht.returned, hr]
  have hfin : ∀ (r : DataRead) (t : Sys), ReadSoFar size T rx t → wp (PortRely size) (fun _ => True)
      (do mutexInUnlock; returnRead r)
        (fun r t => r.result = .ok → ReadSoFar size (T ++ entry r.data) rx t) t :=
    fun r t ht => wp_bind (wp_mono (hframe t hF.mutexInUnlock ht) fun _ t ht => hret r t ht)
  have hghost : ∀ b, Keeps (ReadSoFar size T rx) (writeGhost fun g => { g with reading := b }) :=
    fun _ => keeps_write fun _ h => ⟨h.base.congr rfl rfl rfl, h.returned, h.rx⟩
  have hbuf : ∀ i (f : Buffer → Buffer), (∀ b n, Buffer.Sized n b → (f b).Sized n) →
      Keeps (ReadSoFar size T rx) (writeBuf i f) :=
    fun i f hf => keeps_write fun s h =>
      ⟨(frame_base_only size).buf s i _ (fun n => hf _ n) h.base, h.returned, h.rx⟩
  have hget : ∀ i n, Keeps (ReadSoFar size T rx) (bufferGetAndDiscard i n) := by
    refine fun i n => .bind (keeps_read _) fun pos => .bind ?_ fun _ => .ite (keeps_pure _)
      (.bind (hbuf i _ fun _ _ h => h.updateReadPos _) fun _ => keeps_pure _)
    refine keeps_atomic fun s hs => ?_
    dsimp only
    split_ifs
    · exact hs.log trivial nofun
    · exact hs
  unfold spilsDataRead
  refine wp_read hst hA h fun t ht => ?_
  by_cases hav : t.link.dataInAvailable = false
  · rw [if_pos hav]
    exact hret _ t ht
  rw [if_neg hav]
  refine wp_bind (wp_mono (hframe t hF.mutexInTrylock ht) fun locked t ht => ?_)
  by_cases hlock : locked = false
  · rw [if_pos hlock]
    exact hret _ t ht
  rw [if_neg hlock]
  refine wp_read hst hA ht fun t ht => ?_
  refine wp_bind (wp_mono (hframe t (hghost _) ht) fun _ t ht => ?_)
  refine wp_read hst hA ht fun t ht => ?_
  refine wp_bind (wp_mono (hframe t (hget _ _) ht) fun r t ht => ?_)
  by_cases hr : r.1 = .err
  · rw [if_pos hr]
    exact wp_bind (wp_mono (hframe t (hghost _) ht) fun _ t ht => hfin _ t ht)
  rw [if_neg hr]
  refine wp_bind (wp_mono (hframe t (hbuf _ _ fun _ _ h => h.recycle) ht) fun _ t ht => ?_)
  refine wp_bind (wp_mono (hframe t (hghost _) ht) fun _ t ht => ?_)
  refine wp_bind (wp_mono (hframe t ?_ ht) fun _ t ht => hfin _ t ht)
  exact hF.writeLink (fun _ => rfl) fun _ => ⟨rfl, rfl⟩

end ReadSoFar

/-! ## `data_in_process` under interrupts -/

/-- A payload that the link returned, with `behind` after `p_data`. -/
def returnedPayload (behind : ℕ → Bytes) (payload : Bytes) : Payload :=
  ⟨⟨.ok, some payload.length, payload⟩, behind⟩

/-- The valid packets of a payload that the link returned. -/
def packetsOf (F : PacketFormat) (behind : ℕ → Bytes) (payload : Bytes) : List Bytes :=
  payloadValid F (returnedPayload behind payload)

/-- `header.size` stays inside every packet of the payload. -/
def PayloadFits (F : PacketFormat) (payload : Bytes) : Prop :=
  ∀ packet ∈ payloadSlices F (returnedPayload (fun _ => []) payload), SizeFits F packet

instance (F : PacketFormat) (payload : Bytes) : Decidable (PayloadFits F payload) :=
  inferInstanceAs (Decidable (∀ _ ∈ _, _))

section DataIn

variable {F : PacketFormat} {size : ℕ} {T : List Bytes} {rx : FifoBuffer} {s : Sys}
  {behind : ℕ → Bytes}

theorem packetsOf_nil : packetsOf F behind [] = [] := by
  have hnone : payloadPackets F (returnedPayload behind []) = 0 := Nat.zero_div _
  unfold packetsOf payloadValid
  rw [hnone]
  rfl

theorem packetsOf_entry (p : Bytes) : (entry p).flatMap (packetsOf F behind) = packetsOf F behind p := by
  unfold entry
  split_ifs with h
  · rw [h, packetsOf_nil, List.flatMap_nil]
  · rw [List.flatMap_singleton]

theorem length_validPackets_le (n : ℕ) (rest : Bytes) : (validPackets F behind n rest).length ≤ n := by
  induction n generalizing rest with
  | zero => exact Nat.le_refl _
  | succ n ih =>
    have hrest := ih (rest.drop F.packetSize)
    rw [validPackets_succ]
    split_ifs
    · rw [List.length_cons]
      omega
    · omega

/-- A payload that fits the message carries up to four packets. -/
theorem length_packetsOf {p : Bytes} (h : p.length ≤ F.packetSize * 4) :
    (packetsOf F behind p).length ≤ 4 := by
  refine Nat.le_trans (length_validPackets_le _ _) ?_
  show p.length / F.packetSize ≤ 4
  rw [Nat.div_le_iff_le_mul_add_pred F.packetSize_pos]
  have := F.packetSize_pos
  rw [Nat.mul_comm]
  omega

theorem validPackets_eq {n : ℕ} {rest : Bytes} (h : n * F.packetSize ≤ rest.length)
    (hfits : ∀ packet ∈ slices F.packetSize n rest, SizeFits F packet) (behind' : ℕ → Bytes) :
    validPackets F behind n rest = validPackets F behind' n rest := by
  induction n generalizing rest with
  | zero => rfl
  | succ n ih =>
    have hmul : (n + 1) * F.packetSize = n * F.packetSize + F.packetSize := by ring
    rw [slices] at hfits
    have hlen : (rest.take F.packetSize).length = F.packetSize := by
      rw [List.length_take]
      omega
    have hfit := hfits _ List.mem_cons_self
    have hrest : validPackets F behind n (rest.drop F.packetSize) =
        validPackets F behind' n (rest.drop F.packetSize) :=
      ih (by rw [List.length_drop]; omega) fun packet hp => hfits packet (List.mem_cons_of_mem _ hp)
    have hcheck : CrcValid F (behind n) rest ↔ CrcValid F (behind' n) rest := by
      rw [crcValid_iff hlen hfit, crcValid_iff hlen hfit]
    rw [validPackets_succ, validPackets_succ, hrest]
    simp only [hcheck]

/-- Where the sizes fit, what is behind the array makes no difference. -/
theorem packetsOf_eq {p : Bytes} (h : p.length ≤ F.packetSize * 4) (hfits : PayloadFits F p)
    (behind' : ℕ → Bytes) : packetsOf F behind p = packetsOf F behind' p := by
  refine validPackets_eq ?_ hfits behind'
  unfold payloadArray spilsMessageSizeMax payloadPackets
  rw [length_memcpy, List.length_replicate]
  exact Nat.le_trans (Nat.div_mul_le_self _ _) h

/-- The link is between two calls of its interface, and so much has come through it. -/
structure Between (size : ℕ) (T : List Bytes) (rx : FifoBuffer) (s : Sys) : Prop where
  link : InAt size (InOpen size True False []) s
  readSoFar : ReadSoFar size T rx s

theorem stable_between : Stable (PortRely size) (Between size T rx) := fun s s' hR h =>
  ⟨stable_open s s' hR.inbound h.link, stable_readSoFar s s' hR h.readSoFar⟩

/-- What neither the link nor the history notices. -/
theorem wp_between {α : Type} {p : Code α} (hk : Keeps (InAt size (InOpen size True False [])) p)
    (hk' : Keeps (ReadSoFar size T rx) p) (h : Between size T rx s) :
    wp (PortRely size) (fun _ => True) p (fun _ => Between size T rx) s := by
  have hst : Stable (PortRely size) (InAt size (InOpen size True False [])) :=
    Stable.anti stable_open fun _ _ hR => hR.inbound
  have hboth := wp_and (wp_frame hst hk h.link) (wp_frame stable_readSoFar hk' h.readSoFar)
  exact wp_mono (wp_always_mono hboth fun _ _ => trivial) fun _ _ ht => ⟨ht.1, ht.2⟩

theorem Between.log (h : Between size T rx s) {x : Obs} (hx : x.Elsewhere) (hl : x.Local)
    (hr : ∀ n d, x ≠ .readRet .ok n d) : Between size T rx (s.log x) :=
  ⟨h.link.logElsewhere hx, h.readSoFar.log hl hr⟩

/-- One packet is checked, and put if it is valid. -/
theorem wp_packetInProcess (behind pData : Bytes) (pos : ℕ) (h : Between size T rx s) :
    wp (PortRely size) (fun _ => True) (packetInProcess F behind pData pos)
      (fun pData' t => pData' = memcpy pData pos (F.setCrc 0 ((pData.drop pos).take F.packetSize)) ∧
        Between size T (if CrcValid F behind (pData.drop pos) then
          (rx.put (F.setCrc 0 ((pData.drop pos).take F.packetSize))).2 else rx) t) s := by
  have hcheck : CrcValid F behind (pData.drop pos) ↔
      crc8 ((memcpy pData pos (F.setCrc 0 ((pData.drop pos).take F.packetSize))).drop pos ++ behind)
        (F.headerSize + F.size ((pData.drop pos).take F.packetSize)) =
          F.crc ((pData.drop pos).take F.packetSize) := by
    rw [(drop_cleared pData pos).1]
    rfl
  have hA : ∀ {rx' : FifoBuffer} (t : Sys), Between size T rx' t → True := fun _ _ => trivial
  unfold packetInProcess
  refine wp_write stable_between hA h fun t ht => ?_
  have hlog : Between size T rx (t.log (.crcRange pos
      (F.headerSize + F.size ((pData.drop pos).take F.packetSize)) pData.length)) :=
    ht.log trivial trivial nofun
  simp only [← hcheck]
  by_cases hvalid : CrcValid F behind (pData.drop pos)
  · rw [if_pos hvalid, if_pos hvalid]
    refine wp_write stable_between hA hlog fun t ht => ?_
    refine wp_pure (stable_between.const_and _) (fun _ _ => trivial) ⟨rfl, ?_, ?_⟩
    · have hput : Keeps (InAt size (InOpen size True False [])) (writeSlave fun p =>
          { p with spiRxFifo := (p.spiRxFifo.put (F.setCrc 0 ((pData.drop pos).take F.packetSize))).2 }) :=
        keeps_writeSlave fun _ => rfl
      exact hput.run ht.link
    · refine ⟨ht.readSoFar.base.congr rfl rfl rfl, ht.readSoFar.returned, ?_⟩
      rw [← ht.readSoFar.rx]
      rfl
  · rw [if_neg hvalid, if_neg hvalid]
    exact wp_pure (stable_between.const_and _) (fun _ _ => trivial) ⟨rfl, hlog⟩

/-- The loop puts the valid packets. -/
theorem wp_packetsInProcess (behind : ℕ → Bytes) (n : ℕ) (pData : Bytes) (pos : ℕ) (h : Between size T rx s) :
    wp (PortRely size) (fun _ => True) (packetsInProcess F behind n pData pos)
      (fun _ => Between size T (rx.putAll (validPackets F behind n (pData.drop pos)))) s := by
  induction n generalizing rx s pData pos with
  | zero => exact wp_pure stable_between (fun _ _ => trivial) h
  | succ n ih =>
    unfold packetsInProcess
    refine wp_bind (wp_mono (wp_packetInProcess (behind n) pData pos h) ?_)
    rintro pData' t ⟨rfl, ht⟩
    refine wp_mono (ih _ _ ht) fun _ t ht => ?_
    rw [(drop_cleared pData pos).2] at ht
    rw [validPackets_succ]
    split_ifs at ht ⊢
    · exact ht
    · exact ht

/-- `data_in_process` takes a payload from the link and puts its valid packets. -/
theorem wp_dataInProcess_between (behind : ℕ → Bytes) (h : Between size T rx s) :
    wp (PortRely size) (fun _ => True) (dataInProcess F behind)
      (fun _ t => ∃ p : Bytes, p.length + 2 ≤ size ∧
        Between size (T ++ entry p) (rx.putAll (packetsOf F behind p)) t) s := by
  have hA : ∀ {T' : List Bytes} {rx' : FifoBuffer} (t : Sys), Between size T' rx' t → True :=
    fun _ _ => trivial
  have hst : Stable (PortRely size) fun t => ∃ p : Bytes, p.length + 2 ≤ size ∧
      Between size (T ++ entry p) (rx.putAll (packetsOf F behind p)) t :=
    Stable.exists fun p => stable_between.const_and _
  have hsize : 2 ≤ size := by
    have := h.link.shape.size_eq
    omega
  unfold dataInProcess
  refine wp_read stable_between hA h fun t ht => ?_
  by_cases hflag : t.slave.spilsDataInReceived = false
  · rw [if_pos hflag]
    refine wp_pure hst (fun _ _ => trivial) ⟨[], hsize, ?_⟩
    rw [packetsOf_nil, entry_nil, List.append_nil]
    exact ht
  rw [if_neg hflag]
  have hread := wp_and (wp_anti (wp_spilsDataRead_whole ht.link) fun _ _ hR => hR.inbound)
    (wp_spilsDataRead_returned ht.readSoFar)
  refine wp_bind (wp_mono (wp_always_mono hread fun _ _ => trivial) ?_)
  rintro r t ⟨⟨hlink, hok, hlen⟩, hret⟩
  obtain ⟨hdata, hle⟩ := hlen trivial
  have ht : Between size (T ++ entry r.data) rx t := ⟨hlink, hret hok⟩
  have hout : OutFrame (InAt size (InOpen size True False [])) := outFrame_inAt _
  refine wp_bind (wp_mono (wp_between (hout.assertDygma _ _) (outFrame_readSoFar.assertDygma _ _) ht)
    fun _ t ht => ?_)
  rw [if_neg (not_not.mpr hok)]
  refine wp_atomic stable_between hA ht fun t ht => ⟨_, _, rfl, ?_⟩
  have hghost : ∀ (t : Sys) b, Between size (T ++ entry r.data) rx t →
      Between size (T ++ entry r.data) rx (t.mapGhost fun g => { g with availRead := b }) := by
    intro t b ht
    refine ⟨ht.link.mapGhost ?_, ht.readSoFar.base.congr rfl rfl rfl, ht.readSoFar.returned, ht.readSoFar.rx⟩
    obtain ⟨⟨g1, g2, g3, g4, g5, g6, g7, g8⟩, h2, h3, h4, h5, -⟩ := ht.link.view
    exact ⟨⟨g1, g2, g3, g4, g5, g6, g7, g8⟩, h2, h3, h4, h5, fun hf => hf.elim⟩
  have hstore : ∀ (t : Sys) b, Between size (T ++ entry r.data) rx t →
      Between size (T ++ entry r.data) rx (t.mapSlave fun p => { p with spilsDataInReceived := b }) := by
    intro t b ht
    refine ⟨ht.link.mapSlave ?_, ht.readSoFar.base.congr rfl rfl rfl, ht.readSoFar.returned, ht.readSoFar.rx⟩
    obtain ⟨⟨g1, g2, g3, g4, g5, g6, g7, g8⟩, h2, h3, h4, h5, -⟩ := ht.link.view
    exact ⟨⟨g1, g2, g3, g4, g5, g6, g7, g8⟩, h2, h3, h4, h5, fun hf => hf.elim⟩
  refine wp_write stable_between hA (hghost t _ ht) fun t ht => ?_
  refine wp_mono (wp_packetsInProcess _ _ _ _ (hghost _ none (hstore t _ ht))) fun _ t ht => ⟨r.data, hle, ?_⟩
  rw [List.drop_zero, hdata] at ht
  exact ht

/-- One `Spi_slave::run` takes up to one payload from the link. -/
theorem wp_spiSlaveRun_between (stack : Stack) (h : Between size T rx s) :
    wp (PortRely size) (fun _ => True) (spiSlaveRun F stack)
      (fun _ t => ∃ p : Bytes, p.length + 2 ≤ size ∧
        Between size (T ++ entry p) (rx.putAll (packetsOf F stack.pData p)) t) s := by
  have hpoll := wp_and (wp_anti (wp_spilsPoll h.link) fun _ _ hR => hR.inbound)
    (wp_frame stable_readSoFar keeps_spilsPoll_readSoFar h.readSoFar)
  unfold spiSlaveRun
  refine wp_bind (wp_mono (wp_always_mono hpoll fun _ _ => trivial) fun _ t ht => ?_)
  refine wp_bind (wp_mono (wp_dataInProcess_between _ ⟨ht.1, ht.2⟩) ?_)
  rintro - t ⟨p, hp, ht⟩
  refine wp_mono (wp_between (dataOutFrame_inAt.dataOutProcess _) (dataOutFrame_readSoFar.dataOutProcess _) ht) ?_
  exact fun _ t ht => ⟨p, hp, ht⟩

end DataIn

/-! ## The reader -/

/-- `Spi_slave::run` is called while `rx_fifo` has room for the four packets of a message. -/
def RoomForMessage (F : PacketFormat) : SlaveCall → Sys → Prop
  | .run _, s => s.slave.spiRxFifo.getNumItems + 4 ≤ FifoBuffer.capacity F.packetSize
  | .sendPacket _, _ | .readPacket, _ => True

instance (F : PacketFormat) (k : SlaveCall) (s : Sys) : Decidable (RoomForMessage F k s) :=
  match k with
  | .run _ => inferInstanceAs (Decidable (_ ≤ _))
  | .sendPacket _ | .readPacket => .isTrue trivial

/-- `Spi_slave` and a reader that keeps `rx_fifo` from filling up. -/
def readerMachine (F : PacketFormat) : Machine Sys SlaveCall Irq :=
  { slaveMachine F (DataAtLeast 3) with callOk := RoomForMessage F }

instance (F : PacketFormat) (r : Recorder Sys SlaveCall Irq (List Bytes)) (k : SlaveCall)
    (x : Sys × List Bytes) : Decidable (((readerMachine F).recorded r).callOk k x) :=
  inferInstanceAs (Decidable (RoomForMessage F k x.1))

instance (F : PacketFormat) (r : Recorder Sys SlaveCall Irq (List Bytes)) (i : Irq)
    (x : Sys × List Bytes) : Decidable (((readerMachine F).recorded r).irqOk i x) :=
  inferInstanceAs (Decidable (DataAtLeast 3 i x.1))

/-- The packets that `readPacket` has copied out. -/
def packetsRead : Recorder Sys SlaveCall Irq (List Bytes) where
  call k s read :=
    match k with
    | .readPacket => read ++ (readable s).toList
    | .run _ | .sendPacket _ => read
  step _ _ read := read
  irq _ _ read := read

section Reader

variable {F : PacketFormat} {size : ℕ} {behind : ℕ → Bytes}

/-- The packets read and those in `rx_fifo` are the valid packets of what the link returned, while
`header.size` stayed inside the packets. -/
def Reading (F : PacketFormat) (size : ℕ) (behind : ℕ → Bytes) (x : Sys × List Bytes) : Prop :=
  ∃ (T : List Bytes) (rx : FifoBuffer) (items : List (Item F.packetSize)), Between size T rx x.1 ∧
    rx.Holds items ∧ ((∀ p ∈ T, PayloadFits F p) →
      x.2 ++ items.map Subtype.val = T.flatMap (packetsOf F behind))

/-- The interrupt leaves what has been returned as it is. -/
theorem returned_irq {s : Sys} (hB : Base size s) (i : Irq) :
    returned ((irqProg i).run s).2.ghost.trace = returned s.ghost.trace := by
  cases i with
  | tick ms => rfl
  | edge e =>
    cases hB.run_edge e with
    | again g silent armed same eq => rw [eq, Sys.ghost_mapSpi, (link_clockIn s e).2.2.2]
    | done p st ready g valid resend processed armed eq =>
      obtain ⟨l₁, l₂, htrace, hl⟩ := trace_done processed g
      rw [eq, htrace, List.append_cons _ (Obs.armed _ _ _ _) l₂,
        returned_append_note _ fun x hx => hl x (List.mem_append_right _ hx), returned_append,
        List.append_nil, List.append_cons _ (Obs.transfer _) l₁,
        returned_append_note _ fun x hx => hl x (List.mem_append_left _ hx), returned_append, List.append_nil]

theorem portRely_irq {s : Sys} (hB : Base size s) {i : Irq} (hi : DataAtLeast 3 i s) :
    PortRely size s ((irqProg i).run s).2 where
  inbound := inRely_irq hB i
    (fun _ _ he => (noShort_of_dataAtLeast (he ▸ hi) (by decide)).passes) fun _ _ _ => trivial
  base _ := hB.run_irq i
  returned := returned_irq hB i
  rx := hB.field_irq SpiSlave.spiRxFifo (fun e _ => by cases e <;> rfl) i

/-- The interrupt beside the history. -/
def ReaderRely (size : ℕ) (x x' : Sys × List Bytes) : Prop := PortRely size x.1 x'.1 ∧ x'.2 = x.2

theorem stable_reading : Stable (ReaderRely size) (Reading F size behind) := by
  rintro x x' ⟨hR, he⟩ ⟨T, rx, items, hbetween, hitems, heq⟩
  exact ⟨T, rx, items, stable_between _ _ hR hbetween, hitems, fun hfits => by rw [he]; exact heq hfits⟩

/-- What a message brings fits. -/
theorem Reading.received (hF : size = F.packetSize * 4 + 2) {s : Sys} {read : List Bytes} {T : List Bytes}
    {rx : FifoBuffer} {items : List (Item F.packetSize)} (hitems : rx.Holds items)
    (hroom : items.length + 4 ≤ FifoBuffer.capacity F.packetSize)
    (heq : (∀ p ∈ T, PayloadFits F p) →
      read ++ items.map Subtype.val = T.flatMap (packetsOf F behind)) {p : Bytes}
    {behind' : ℕ → Bytes} (hp : p.length + 2 ≤ size)
    (hb : Between size (T ++ entry p) (rx.putAll (packetsOf F behind' p)) s) :
    Reading F size behind (s, read) := by
  have hlen : p.length ≤ F.packetSize * 4 := by omega
  obtain ⟨incoming, hin⟩ :
      ∃ incoming : List (Item F.packetSize), incoming.map Subtype.val = packetsOf F behind' p :=
    exists_items (length_payloadValid hlen)
  have hn : F.packetSize ≤ internalBufferSize := by
    have := F.fits
    unfold internalBufferSize
    omega
  have hfour : incoming.length ≤ 4 := by
    have h4 : (packetsOf F behind' p).length ≤ 4 := length_packetsOf hlen
    rw [← hin, List.length_map] at h4
    exact h4
  have hput := hitems.putAll F.packetSize_pos hn incoming
  rw [hin, List.take_of_length_le (by omega)] at hput
  refine ⟨T ++ entry p, _, items ++ incoming, hb, hput, fun hfits => ?_⟩
  have hold : ∀ q ∈ T, PayloadFits F q := fun q hq => hfits q (List.mem_append_left _ hq)
  have hnew : packetsOf F behind' p = packetsOf F behind p := by
    by_cases hnil : p = []
    · rw [hnil, packetsOf_nil, packetsOf_nil]
    · have hp : p ∈ entry p := by simp [entry, hnil]
      exact packetsOf_eq hlen (hfits p (List.mem_append_right _ hp)) behind
  rw [List.flatMap_append, packetsOf_entry, List.map_append, ← List.append_assoc, heq hold, hin, hnew]

/-- `readPacket` hands out the oldest packet. -/
theorem wp_readPacket {x : Sys × List Bytes} (h : Reading F size behind x) :
    wp (ReaderRely size) (fun _ => True)
      ((slaveProg F .readPacket).recorded packetsRead.step (packetsRead.call .readPacket))
      (fun _ => Reading F size behind) x := by
  show wp _ _ (readPacket.recorded _ _) _ _
  unfold readPacket
  refine wp_recorded_read stable_reading (fun _ _ => trivial) h fun s read hs => ?_
  obtain ⟨T, rx, items, hbetween, hitems, heq⟩ := hs
  have hempty : s.slave.spiRxFifo.isEmpty = items.isEmpty := by
    rw [hbetween.readSoFar.rx]
    exact hitems.isEmpty F.packetSize_pos
  have hreadable := (run_readPacket (s := s) (by rw [hbetween.readSoFar.rx]; exact hitems)).2
  show wp _ _ (Prog.beside _ (if s.slave.spiRxFifo.isEmpty = true then pure ()
    else writeSlave fun p => { p with spiRxFifo := p.spiRxFifo.get.2 })) _ (s, read ++ (readable s).toList)
  rw [hempty, hreadable]
  cases items with
  | nil =>
    rw [if_pos List.isEmpty_nil, List.take_nil, List.map_nil, List.append_nil]
    exact wp_pure stable_reading (fun _ _ => trivial) ⟨T, rx, [], hbetween, hitems, heq⟩
  | cons packet items =>
    rw [if_neg (show ¬(packet :: items).isEmpty = true from Bool.false_ne_true)]
    -- the packet is in the history, and still in `rx_fifo`
    refine wp_recorded_write_last
      (P := fun x => Between size T rx x.1 ∧ x.2 = read ++ [packet.1]) ?_ (fun _ _ => trivial)
      ⟨hbetween, rfl⟩ stable_reading (fun _ _ => trivial) ?_
    · rintro y y' ⟨hR, he⟩ ⟨hy, hy'⟩
      exact ⟨stable_between _ _ hR hy, he.trans hy'⟩
    · rintro t e ⟨ht, rfl⟩
      have hget : Keeps (InAt size (InOpen size True False [])) (writeSlave fun p =>
          { p with spiRxFifo := p.spiRxFifo.get.2 }) := keeps_writeSlave fun _ => rfl
      refine ⟨T, rx.get.2, items, ⟨hget.run ht.link, ht.readSoFar.base.congr rfl rfl rfl,
        ht.readSoFar.returned, ?_⟩, (hitems.get F.packetSize_pos).2, ?_⟩
      · rw [← ht.readSoFar.rx]
        rfl
      · intro hfits
        show (read ++ [packet.1]) ++ items.map Subtype.val = _
        rw [List.append_assoc]
        exact heq hfits

/-- Every call, beside the history. -/
theorem wp_reader (hF : size = F.packetSize * 4 + 2) {x : Sys × List Bytes} (h : Reading F size behind x)
    (k : SlaveCall) (hk : RoomForMessage F k x.1) :
    wp (ReaderRely size) (fun _ => True)
      ((slaveProg F k).recorded packetsRead.step (packetsRead.call k)) (fun _ => Reading F size behind) x := by
  obtain ⟨s, read⟩ := x
  cases k with
  | readPacket => exact wp_readPacket h
  | run stack =>
    obtain ⟨T, rx, items, hbetween, hitems, heq⟩ := h
    have hroom : items.length + 4 ≤ FifoBuffer.capacity F.packetSize := by
      rw [← hitems.getNumItems F.packetSize_pos, ← hbetween.readSoFar.rx]
      exact hk
    have hrun := wp_beside (R := ReaderRely size) (fun _ _ hR => hR) read
      (wp_spiSlaveRun_between (F := F) stack hbetween)
    refine wp_mono (wp_always_mono hrun fun _ _ => trivial) ?_
    rintro - ⟨t, _⟩ ⟨⟨p, hp, ht⟩, rfl⟩
    exact Reading.received hF hitems hroom heq hp ht
  | sendPacket packet =>
    obtain ⟨T, rx, items, hbetween, hitems, heq⟩ := h
    have hsend := wp_beside (R := ReaderRely size) (fun _ _ hR => hR) read
      (wp_between (p := sendPacket packet) (keeps_writeSlave fun _ => rfl)
        (keeps_writeSlave_readSoFar fun _ => rfl) hbetween)
    refine wp_mono (wp_always_mono hsend fun _ _ => trivial) ?_
    rintro - ⟨t, _⟩ ⟨ht, rfl⟩
    exact ⟨T, rx, items, ht, hitems, heq⟩

theorem outline_reader (hF : size = F.packetSize * 4 + 2) :
    ((readerMachine F).recorded packetsRead).Outline
      (fun x => Reading F size behind x ∧ Base size x.1) fun _ x => True ∧ Base size x.1 := by
  have hirq : ∀ x x', Base size x.1 → ((readerMachine F).recorded packetsRead).Rely x x' →
      ReaderRely size x x' := by
    intro x x' hB hR
    obtain ⟨i, hi, hst, he⟩ := Machine.rely_recorded hR
    refine ⟨?_, he.elim id id⟩
    rw [hst]
    exact portRely_irq hB hi
  refine Machine.Outline.within (R := ReaderRely size) ?_ (fun k => ?_) hirq stable_reading
    fun k x h hk => wp_reader hF h k hk
  · exact fun x x' hR hB => (hirq x x' hB hR).1.base hB
  · exact ((frame_base_only size).slaveProg F k).recorded

end Reader

theorem reading_start (F : PacketFormat) (behind : ℕ → Bytes) (hw : Board) :
    Reading F (F.packetSize * 4 + 2) behind (slaveStart F hw, []) ∧
      Base (F.packetSize * 4 + 2) (slaveStart F hw) := by
  have hsize : (spiSlaveConf F).messageSizeMax + 2 = F.packetSize * 4 + 2 := by
    have := F.fits
    show u8 (F.packetSize * 4) + 2 = _
    rw [u8_of_lt (by omega)]
  have hB := base_start (spiSlaveConf_ok F) hw (.new F)
  have hin := inAt_start (g := True) (spiSlaveConf_ok F) hw (.new F)
  rw [hsize] at hB hin
  obtain ⟨h, heq, -⟩ := start_eq (spiSlaveConf F) hw (.new F)
  have hrx : (slaveStart F hw).slave.spiRxFifo = .new F.packetSize := by
    unfold slaveStart
    rw [heq]
    unfold Sys.rearm Sys.answer
    rw [prepared_eq (spiSlaveConf_ok F)]
    rfl
  have hreturned : returned (slaveStart F hw).ghost.trace = [] := by
    unfold slaveStart
    rw [heq]
    unfold Sys.rearm Sys.answer
    rw [prepared_eq (spiSlaveConf_ok F)]
    rfl
  exact ⟨⟨[], _, [], ⟨hin.mono fun v hv => hv.mono fun hf => hf.elim, hB, hreturned, hrx⟩,
    FifoBuffer.holds_new _, fun _ => rfl⟩, hB⟩

/-- What the master was told has arrived and has bytes is among all of it. -/
theorem mem_payloads {trace : List Obs} {p : Bytes} (h : p ∈ acked trace) : p ∈ payloads trace := by
  obtain ⟨x, hx, hp⟩ := List.mem_flatMap.mp h
  refine List.mem_filterMap.mpr ⟨x, hx, ?_⟩
  cases ha : x.accepted with
  | none =>
    rw [Exchange.gain_none ha] at hp
    cases hp
  | some q =>
    rw [Exchange.gain_some ha] at hp
    rw [mem_entry hp]

/-- A payload without bytes carries no packet. -/
theorem acked_packetsOf (F : PacketFormat) (behind : ℕ → Bytes) (trace : List Obs) :
    (acked trace).flatMap (packetsOf F behind) = (payloads trace).flatMap (packetsOf F behind) := by
  unfold acked payloads
  generalize (heard trace).exchanges = xs
  induction xs with
  | nil => rfl
  | cons x xs ih =>
    rw [List.flatMap_cons, List.flatMap_append, ih]
    cases hx : x.accepted with
    | none => rw [List.filterMap_cons_none hx, Exchange.gain_none hx, List.flatMap_nil, List.nil_append]
    | some p =>
      rw [List.filterMap_cons_some hx, Exchange.gain_some hx, packetsOf_entry, List.flatMap_cons]

/-- Two packets arrive, one more while `run` reads them, and the first is read. -/
def sampleInbound : Cfg (Sys × List Bytes) SlaveCall :=
  let c := ((readerMachine sampleFormat).recorded packetsRead).play
    [.irq (.edge (.of [2, 1])), .irq (.edge (.of [6, 3, 0, 0, 0, 0])), .call (.run ⟨fun _ => [5], []⟩), .go 12,
      .irq (.edge (.of [2, 1])), .irq (.edge (.of [4, 3, 0, 0])), .go 80, .call .readPacket, .go 4]
    ((sampleSlave, []), none)
  ⟨c.1, c.2, none⟩

end NeuronWired
