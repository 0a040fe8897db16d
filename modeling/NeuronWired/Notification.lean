import NeuronWired.Inbound

/-!
# Notification — `spils_data_in_received` and the message it stands for

`data_in_process` copies `data_in_available` into `spils_data_in_received` in two steps.  A message that is
moved to `p_buffer_in` between them sets the flag, and the second step clears it again: the message
stays, and no event comes any more.  While no message is moved there, the flag stands for every message
that has not been read.
-/

namespace NeuronWired

open Interrupt

/-! ## The window -/

/-- No message with a payload is taken between a read of `data_in_available` that found nothing and the
store that follows it. -/
def NotMissed : Irq → Sys → Prop
  | .edge e, s => s.ghost.availRead = some false → ¬TakesPayload s e
  | .tick _, _ => True

theorem takesPayload_iff (s : Sys) (e : Edge) :
    TakesPayload s e ↔ (s.link.state = .dataReceiving ∧ s.link.lineInBusy = false ∧
      s.link.lineInIsSaturated = false) ∧ ∃ h ∈ Exchange.header (s.received e),
        h.2 = MessType.data ∧ h.1.toNat ≤ (s.received e).length ∧ h.1.toNat ≠ 2 := by
  constructor
  · rintro ⟨len, ⟨h1, h2, h3, hh⟩, hle, hne⟩
    exact ⟨⟨h1, h2, h3⟩, _, hh, rfl, hle, hne⟩
  · rintro ⟨⟨h1, h2, h3⟩, ⟨len, type⟩, hh, rfl, hle, hne⟩
    exact ⟨len, ⟨h1, h2, h3, hh⟩, hle, hne⟩

instance (s : Sys) (e : Edge) : Decidable (TakesPayload s e) := decidable_of_iff' _ (takesPayload_iff s e)

instance (i : Irq) (s : Sys) : Decidable (NotMissed i s) :=
  match i with
  | .edge e => inferInstanceAs (Decidable (s.ghost.availRead = some false → ¬TakesPayload s e))
  | .tick _ => .isTrue trivial

/-- What the interrupt may not do: swap while a read that found nothing waits to be stored. -/
def InView.Swappable (v : InView) : Prop := v.availRead ≠ some false

section Notification

variable {size : ℕ} {g : Prop} {Φ : InView → Prop} {s : Sys} {v v' : InView}

/-- `data_in_available` has been read and `b` is about to be stored. -/
structure InRead (size : ℕ) (b : Bool) (v : InView) : Prop where
  openAt : InOpen size False True [] v
  availRead : v.availRead = some b
  empty : b = false → ¬v.inL.Loaded

theorem InEff.availRead {mv : Prop} (h : InEff size g mv v v') : v'.availRead = v.availRead := by
  cases h <;> rfl

theorem InRead.eff {b : Bool} (hsize : size ≤ 255) (h : InRead size b v)
    (he : InEff size False v.Swappable v v') : InRead size b v' := by
  refine ⟨h.openAt.eff hsize he, he.availRead.trans h.availRead, fun hb => ?_⟩
  cases he with
  | same => exact h.empty hb
  | recycled flag hbusy hf =>
    have hin : ({ v.put v.pCache (.empty size) with flag := flag } : InView).inL = v.inL :=
      h.openAt.core.inL_put_cache _
    rw [hin]
    exact h.empty hb
  | kept l p hbusy hfull hm hg =>
    have hin : ({ v.put v.pCache l with busy := true, acked := v.acked ++ entry p } : InView).inL =
      v.inL := h.openAt.core.inL_put_cache _
    rw [hin]
    exact h.empty hb
  | swapped l p hbusy hfree hroom hl hm hg hmv => exact absurd (hb ▸ h.availRead) hmv

/-! ## The steps of `data_in_process` -/

theorem InAt.keepsReceived {f : SpiSlave → SpiSlave} (h : InAt size Φ s)
    (hf : ∀ p, (f p).spilsDataInReceived = p.spilsDataInReceived) : InAt size Φ (s.mapSlave f) := by
  refine h.mapSlave ?_
  have hv : inView (s.mapSlave f) = inView s := by
    ext1 <;> first | rfl | exact hf s.slave
  rw [hv]
  exact h.view

theorem keeps_writeSlave {f : SpiSlave → SpiSlave}
    (hf : ∀ p, (f p).spilsDataInReceived = p.spilsDataInReceived) :
    Keeps (InAt size Φ) (writeSlave f) := keeps_write fun _ hs => hs.keepsReceived hf

theorem packetFrame_inAt : PacketFrame (InAt size Φ) where
  crcRange _ _ _ _ h := h.logElsewhere trivial
  put _ _ h := h.keepsReceived fun _ => rfl

theorem dataOutFrame_inAt : DataOutFrame (InAt size Φ) where
  outFrame := outFrame_inAt Φ
  txFifo _ _ h := h.keepsReceived fun _ => rfl
  txGet _ _ h := h.logElsewhere trivial
  crcRange _ _ _ _ h := h.logElsewhere trivial
  sending _ _ h := h.keepsReceived fun _ => rfl
  sendRet _ pData dataSize r h := inAt_sendRet pData dataSize _ r h

variable (F : PacketFormat)

/-- The interrupt as `Spi_slave` needs it. -/
abbrev NotedRely (size : ℕ) : Sys → Sys → Prop := InRely size False InView.Swappable

theorem stable_read {b : Bool} : Stable (NotedRely size) (InAt size (InRead size b)) :=
  stable_inAt (fun _ h => h.openAt.wf) fun hsize _ _ h he => h.eff hsize he

theorem wp_dataInProcess (behind : ℕ → Bytes) (h : InAt size (InOpen size False True []) s) :
    wp (NotedRely size) (InAt size (Seen size False 1)) (dataInProcess F behind)
      (fun _ => InAt size (InOpen size False True [])) s := by
  have hst : Stable (NotedRely size) (InAt size (InOpen size False True [])) := stable_open
  have hA : ∀ t, InAt size (InOpen size False True []) t → InAt size (Seen size False 1) t :=
    seen_open (Nat.zero_le _)
  have hframe : ∀ {α : Type} {p : Code α} (t : Sys), Keeps (InAt size (InOpen size False True [])) p →
      InAt size (InOpen size False True []) t →
      wp (NotedRely size) (InAt size (Seen size False 1)) p
        (fun _ => InAt size (InOpen size False True [])) t :=
    fun t hk ht => wp_always_mono (wp_frame hst hk ht) hA
  unfold dataInProcess
  refine wp_read hst hA h fun t ht => ?_
  by_cases hrec : t.slave.spilsDataInReceived = false
  · rw [if_pos hrec]
    exact wp_pure hst hA ht
  rw [if_neg hrec]
  refine wp_bind (wp_mono (wp_spilsDataRead ht) fun r t ht => ?_)
  refine wp_bind (wp_mono (hframe t ((outFrame_inAt _).assertDygma _ _) ht) fun _ t ht => ?_)
  by_cases hr : r.result = .ok
  · rw [if_neg (not_not.mpr hr)]
    refine wp_atomic hst hA ht fun t ht => ⟨_, _, rfl, ?_⟩
    -- the value read is on its way into the flag
    have hread : InAt size (InRead size t.link.dataInAvailable) (t.mapGhost fun g =>
        { g with availRead := some t.link.dataInAvailable }) := by
      refine ht.mapGhost ⟨?_, rfl, fun hb hl => ?_⟩
      · obtain ⟨⟨g1, g2, g3, g4, g5, g6, g7, g8⟩, h2, h3, h4, h5, h6⟩ := ht.view
        exact ⟨⟨g1, g2, g3, g4, g5, g6, g7, g8⟩, h2, h3, h4, h5, h6⟩
      · exact absurd (hb.symm.trans (ht.view.avail.mpr hl)) (by decide)
    generalize t.link.dataInAvailable = b at hread ⊢
    refine wp_write stable_read (fun u hu => hA u (hu.mono fun _ hv => hv.openAt)) hread fun u hu => ?_
    have hstored : InAt size (InOpen size False True []) ((u.mapSlave fun p =>
        { p with spilsDataInReceived := b }).mapGhost fun g => { g with availRead := none }) := by
      have hmapped : InAt size (fun _ => True)
          (u.mapSlave fun p => { p with spilsDataInReceived := b }) := InAt.mapSlave hu trivial
      refine hmapped.mapGhost ?_
      obtain ⟨⟨⟨g1, g2, g3, g4, g5, g6, g7, g8⟩, h2, h3, h4, h5, -⟩, -, hempty⟩ := hu.view
      refine ⟨⟨g1, g2, g3, g4, g5, g6, g7, g8⟩, h2, h3, h4, h5, fun _ hl => ?_⟩
      show b = true
      cases b with
      | true => rfl
      | false => exact absurd hl (hempty rfl)
    exact hframe _ (packetFrame_inAt.packetsInProcess _ _ _ _) hstored
  · rw [if_pos hr]
    exact wp_pure hst hA ht

/-- `Spi_slave::run` keeps what is between two calls. -/
theorem wp_spiSlaveRun (stack : Stack) (h : InAt size (InOpen size False True []) s) :
    wp (NotedRely size) (InAt size (Seen size False 1)) (spiSlaveRun F stack)
      (fun _ => InAt size (InOpen size False True [])) s := by
  have hst : Stable (NotedRely size) (InAt size (InOpen size False True [])) := stable_open
  refine wp_bind (wp_mono (wp_always_mono (wp_spilsPoll h) fun t ht => ?_) fun _ t ht => ?_)
  · obtain ⟨h1, h2, ⟨g1, g2, g3, g4, g5, g6, g7, g8⟩⟩ := ht
    exact ⟨h1, h2, g1, g2, g3, g4, fun hf => hf.elim, fun hf => hf.elim, fun hf => hf.elim, g8⟩
  refine wp_bind (wp_mono (wp_dataInProcess F _ ht) fun _ t ht => ?_)
  exact wp_always_mono (wp_frame hst (dataOutFrame_inAt.dataOutProcess _) ht) (seen_open (Nat.zero_le _))

end Notification

/-! ## Every run -/

/-- What is known of the inbound half during a call of `Spi_slave`. -/
def NotedDuring (size : ℕ) : SlaveCall → InView → Prop
  | .run _ => Seen size False 1
  | .sendPacket _ | .readPacket => InOpen size False True []

theorem outline_noted (F : PacketFormat) (size : ℕ) :
    (slaveMachine F NotMissed).Outline
      (fun s => InAt size (InOpen size False True []) s ∧ Base size s)
      fun k s => InAt size (NotedDuring size k) s ∧ Base size s := by
  refine Machine.Outline.within (R := NotedRely size) (stable_base _ rfl size)
    (fun k => (frame_base_only size).slaveProg F k) ?_ stable_open fun k s h _ => ?_
  · rintro s s' hB ⟨i, hi, rfl⟩
    refine inRely_irq hB i (fun hf => hf.elim) fun e he htakes hread => ?_
    subst he
    exact hi hread htakes
  · have hst : Stable (NotedRely size) (InAt size (InOpen size False True [])) := stable_open
    cases k with
    | run stack => exact wp_spiSlaveRun F stack h
    | sendPacket packet => exact wp_frame hst (keeps_writeSlave fun _ => rfl) h
    | readPacket =>
      exact wp_frame hst (.bind (keeps_read _) fun _ => .ite (keeps_pure _)
        (keeps_writeSlave fun _ => rfl)) h

/-- **No message is stranded**: outside `Spi_slave::run` the flag is set while `p_buffer_in` holds a
message, in every run in which no message comes in inside the window. -/
theorem notification_kept (F : PacketFormat) (hw : Board) {c : Cfg Sys SlaveCall}
    (hc : (slaveMachine F NotMissed).Reach (slaveStart F hw) c) (hq : c.irq = none)
    (hout : OutsideRun c) : c.st.inB.getLoadsize ≠ 0 → c.st.slave.spilsDataInReceived = true := by
  set size := (spiSlaveConf F).messageSizeMax + 2
  have O := outline_noted F size
  have hstart : InAt size (InOpen size False True []) (slaveStart F hw) ∧ Base size (slaveStart F hw) :=
    ⟨inAt_start (spiSlaveConf_ok F) hw _, base_start (spiSlaveConf_ok F) hw _⟩
  obtain ⟨s, m, q⟩ := c
  obtain rfl : q = none := hq
  have hopen : InAt size (InOpen size False True []) s := by
    cases m with
    | none => exact (O.idle hstart hc).1
    | some kp =>
      obtain ⟨k, p⟩ := kp
      have hd := (O.during hstart hc).1
      cases k with
      | run stack => exact absurd rfl (hout stack p)
      | sendPacket packet => exact hd
      | readPacket => exact hd
  intro hl
  have hm := hopen.view.inMod
  have hnoted := hopen.view.noted trivial
  rw [inL_inView hopen.shape] at hm hnoted
  exact hnoted ((Buffer.getLoadsize_ne_zero hm).mp hl)

/-- One packet is received; the next one arrives `n` steps after `run` has begun. -/
def sampleReceiving (n : ℕ) : List (Act SlaveCall Irq) :=
  [.irq (.edge (.of [2, 1])), .irq (.edge (.of [4, 3, 7, 9])), .call (.run ⟨fun _ => [], []⟩), .go n,
    .irq (.edge (.of [2, 1])), .irq (.edge (.of [4, 3, 5, 6])), .go 60]

/-- The second packet arrives after `run` has returned. -/
def sampleKept : Cfg Sys SlaveCall :=
  let c := (slaveMachine sampleFormat NotMissed).play (sampleReceiving 40) (sampleSlave, none)
  ⟨c.1, c.2, none⟩

theorem notification_kept_after :
    sampleKept.st.inB.getLoadsize = 2 ∧
      (sampleKept.st.inB.getLoadsize ≠ 0 → sampleKept.st.slave.spilsDataInReceived = true) := by
  have hreach : (slaveMachine sampleFormat NotMissed).Reach sampleSlave sampleKept :=
    .play (c := (sampleSlave, none)) (sampleReceiving 40) .init (by decide +kernel)
  have hout : OutsideRun sampleKept := outsideRun_of_idle (by decide +kernel)
  exact ⟨by decide +kernel, notification_kept sampleFormat ⟨8, true, true, 0⟩ hreach rfl hout⟩

/-- When the second message arrives inside the window its notification is lost. -/
theorem notification_lost :
    ∃ c : Cfg Sys SlaveCall, (slaveMachine sampleFormat fun _ _ => True).Reach sampleSlave c ∧
      c.irq = none ∧ c.main = none ∧ c.st.inB.content = [5, 6] ∧ c.st.inB.getLoadsize ≠ 0 ∧
      c.st.slave.spilsDataInReceived = false := by
  have hfree := Machine.allowed_of_free (M := slaveMachine sampleFormat fun _ _ => True)
    (fun _ _ => trivial) fun _ _ => trivial
  refine ⟨_, .play (c := (sampleSlave, none)) (sampleReceiving 23) .init (hfree _ _), rfl, ?_, ?_, ?_, ?_⟩
  · decide +kernel
  · decide +kernel
  · decide +kernel
  · decide +kernel

end NeuronWired
