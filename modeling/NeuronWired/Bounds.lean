import NeuronWired.Inbound
import NeuronWired.Outbound

/-!
# Bounds — positions and copies

Nothing on the wire is checked against the length of a header.  A DATA message with `head.len` below two
puts the read position behind the write position, and the next `spils_data_read` copies 254 or 255
bytes.  Without such a message every buffer is what its positions say, whatever else the master sends
and whatever the calls are given.
-/

namespace NeuronWired

open Interrupt

/-- The sizes of a buffer say, as natural numbers, what its positions say. -/
def Buffer.Consistent (b : Buffer) : Prop :=
  b.readPos + b.loadsize = b.writePos ∧ b.writePos ≤ b.size ∧ b.loadsize + b.freesize = b.size

instance (b : Buffer) : Decidable b.Consistent := inferInstanceAs (Decidable (_ ∧ _ ∧ _))

/-- The four buffers are consistent, and no copy so far has left its source or its target. -/
structure Sys.Bounded (s : Sys) : Prop where
  buffers : ∀ i, (s.pool.get i).Consistent
  copies : ∀ x ∈ s.ghost.trace, x.Safe s.link.messageSizeMax

/-- No DATA message is taken that does not cover its own header. -/
def CoversHeader : Irq → Sys → Prop
  | .edge e, s => NoShort s e
  | .tick _, _ => True

theorem noShort_iff (s : Sys) (e : Edge) :
    NoShort s e ↔ (s.link.state = .dataReceiving ∧ s.link.lineInBusy = false ∧
      s.link.lineInIsSaturated = false →
        ∀ h ∈ Exchange.header (s.received e), h.2 = MessType.data → 2 ≤ h.1.toNat) := by
  constructor
  · rintro hs ⟨h1, h2, h3⟩ ⟨len, type⟩ hh rfl
    exact hs len ⟨h1, h2, h3, hh⟩
  · rintro hs len ⟨h1, h2, h3, hh⟩
    exact hs ⟨h1, h2, h3⟩ _ hh rfl

instance (i : Irq) (s : Sys) : Decidable (CoversHeader i s) :=
  match i with
  | .edge e =>
    have : Decidable (∀ h ∈ Exchange.header (s.received e), h.2 = MessType.data → 2 ≤ h.1.toNat) :=
      Option.decidableForallMem _
    decidable_of_iff' _ (noShort_iff s e)
  | .tick _ => .isTrue trivial

theorem Look.Mod.consistent {size : ℕ} {b : Buffer} (hs : b.Sized size) (hm : b.look.Mod size)
    (hle : b.readPos ≤ b.writePos) : b.Consistent := by
  obtain ⟨h1, h2, h3⟩ := hm.nat hle
  unfold Buffer.Consistent
  rw [hs.size_eq]
  exact ⟨h1, h2, h3⟩

/-! ## Both halves at once -/

theorem BufId.in_pair {i j : BufId} (hi : i.isIn = true) (hj : j.isIn = true) (h : i ≠ j) :
    (i = .b0 ∧ j = .b1) ∨ (i = .b1 ∧ j = .b0) := by
  cases i <;> cases j <;> simp_all [BufId.isIn]

theorem BufId.out_pair {i j : BufId} (hi : i.isIn = false) (hj : j.isIn = false) (h : i ≠ j) :
    (i = .b2 ∧ j = .b3) ∨ (i = .b3 ∧ j = .b2) := by
  cases i <;> cases j <;> simp_all [BufId.isIn]

theorem OutDuring.seen {size : ℕ} {g : Prop} {k : LinkCall} {v : OutView} (h : OutDuring size g k v) :
    ∃ fl, OutSeen size g fl v := by
  cases k with
  | dataSend pData n => exact ⟨_, h⟩
  | poll => exact ⟨[], OutOpen.seen h List.nil_prefix⟩
  | dataRead => exact ⟨[], OutOpen.seen h List.nil_prefix⟩

/-- What both halves of the link know between two steps of the main loop. -/
structure Watched (size : ℕ) (g : Prop) (s : Sys) : Prop where
  base : Base size s
  inbound : ∃ n, InAt size (Seen size g n) s
  outbound : ∃ fl, OutAt size (OutSeen size False fl) s

/-- The two outlines side by side. -/
theorem outline_watched (callOk : LinkCall → Sys → Prop) (irqOk : Irq → Sys → Prop) {g : Prop}
    (hok : ∀ e s, irqOk (.edge e) s → g → NoShortPasses s e) {conf : SpilsConf} (hc : conf.Ok) (hw : Board)
    (slave : SpiSlave) :
    ∃ Inv A, (linkMachine callOk irqOk).Outline Inv A ∧ Inv (start conf hw slave) ∧
      (∀ s, Inv s → Watched (conf.messageSizeMax + 2) g s) ∧
      ∀ k s, A k s → Watched (conf.messageSizeMax + 2) g s := by
  set size := conf.messageSizeMax + 2
  have hB := base_start hc hw slave
  refine ⟨_, _, (outline_inbound callOk irqOk size hok).and
    (outline_outbound (g := False) irqOk size fun _ _ _ _ _ hf => hf.elim),
    ⟨⟨inAt_start hc hw slave, hB⟩, outAt_start hc hw slave, hB⟩, fun s h => ?_, fun k s h => ?_⟩
  · obtain ⟨⟨hin, hbase⟩, hout, -⟩ := h
    have hseen : OutSeen size False [] (outView s) := hout.view.seen List.nil_prefix
    exact ⟨hbase, ⟨0, seen_open (Nat.zero_le _) s hin⟩, [], hout.shape, hseen⟩
  · obtain ⟨⟨hin, hbase⟩, hout, -⟩ := h
    obtain ⟨fl, hseen⟩ := OutDuring.seen hout.view
    exact ⟨hbase, ⟨_, hin⟩, fl, hout.shape, hseen⟩

/-! ## The buffers -/

theorem Watched.bounded {size : ℕ} {s : Sys} (h : Watched size True s) : s.Bounded := by
  obtain ⟨-, ⟨n, hin⟩, fl, hout⟩ := h
  have hs := hin.shape
  have hgood : ∀ i, (s.pool.get i).look.Mod size ∧ (s.pool.get i).readPos ≤ (s.pool.get i).writePos := by
    intro i
    by_cases hi : i.isIn = true
    · have h := hin.view.looks trivial i hi
      have hlook : (inView s).look i = (s.pool.get i).look := inLook_of_isIn hi
      rw [hlook] at h
      exact h
    · -- an output buffer is one of the two that the output pointers name
      have h1 := And.intro hout.view.outGood.mod hout.view.outGood.le
      have h2 := And.intro hout.view.cacheGood.mod hout.view.cacheGood.le
      have hpair : i = s.link.pBufferOut ∨ i = s.link.pBufferOutCache := by
        rcases BufId.out_pair hs.outBuf hs.outCache hout.view.ne with ⟨h1, h2⟩ | ⟨h1, h2⟩ <;>
          rw [h1, h2] <;> revert hi <;> cases i <;> simp [BufId.isIn]
      rcases hpair with rfl | rfl
      · exact h1
      · exact h2
  refine ⟨fun i => (hgood i).1.consistent (hs.sized i) (hgood i).2, fun x hx => ?_⟩
  have hsafe : s.ghost.trace.all (Obs.safe s.link.messageSizeMax) = true := hin.view.safe trivial
  exact Obs.safe_iff.mp (List.all_eq_true.mp hsafe x hx)

/-- **Bounds**: every buffer is consistent and every copy stays inside its bounds, in every run in which
no DATA message is taken that is shorter than its header. -/
theorem buffer_bounds {s₀ : Sys} (h₀ : Initial s₀) {c : Cfg Sys LinkCall}
    (hc : (linkMachine (fun _ _ => True) CoversHeader).Reach s₀ c) (hq : c.irq = none) :
    c.st.Bounded := by
  obtain ⟨conf, hw, slave, hok, rfl⟩ := h₀
  obtain ⟨Inv, A, O, hInv, hI, hA⟩ := outline_watched (g := True) (fun _ _ => True) CoversHeader
    (fun _ _ h _ => h.passes) hok hw slave
  exact O.always hInv (fun s h => (hI s h).bounded) (fun k s h => (hA k s h).bounded) hc hq

/-- The master announces a message and sends one whose `head.len` is `len`. -/
def sampleAnnounced (len : UInt8) : List (Act LinkCall Irq) :=
  [.irq (.edge (.of [2, 1])), .irq (.edge (.of [len, 3]))]

/-- Two messages arrive, the second while the first is being read. -/
def sampleCopied : Cfg Sys LinkCall :=
  let c := (linkMachine (fun _ _ => True) CoversHeader).play
    [.irq (.edge (.of [2, 1])), .irq (.edge (.of [6, 3, 7, 9, 5, 3])), .call .dataRead, .go 7,
      .irq (.edge (.of [2, 1])), .irq (.edge (.of [3, 3, 8])), .go 40, .call .poll] (sampleLink, none)
  ⟨c.1, c.2, none⟩

theorem buffer_bounds_copied :
    Obs.readRet .ok (some 4) [7, 9, 5, 3] ∈ sampleCopied.st.ghost.trace ∧
      sampleCopied.st.cacheB.content = [8] ∧ sampleCopied.st.Bounded := by
  have hreach : (linkMachine (fun _ _ => True) CoversHeader).Reach sampleLink sampleCopied :=
    .play (c := (sampleLink, none)) _ .init (by decide +kernel)
  exact ⟨by decide +kernel, by decide +kernel, buffer_bounds sampleLink_initial hreach rfl⟩

/-- With a `head.len` of one the positions are out of order, and the next read copies 255 bytes out of
six and reports as many to a caller who has four. -/
theorem buffer_bounds_short :
    ∃ c d : Cfg Sys LinkCall,
      (linkMachine (fun _ _ => True) fun _ _ => True).Reach sampleLink c ∧ c.irq = none ∧
      (linkMachine (fun _ _ => True) fun _ _ => True).Reach sampleLink d ∧ d.irq = none ∧
      ((c.st.pool.get .b0).readPos = 2 ∧ (c.st.pool.get .b0).writePos = 1 ∧
        (c.st.pool.get .b0).loadsize = 65535) ∧ ¬c.st.Bounded ∧
      (Obs.bufferGet 2 255 6 ∈ d.st.ghost.trace ∧
        Obs.readRet .ok (some 255) [0, 0, 0, 0] ∈ d.st.ghost.trace ∧
        d.st.link.messageSizeMax = 4) ∧ ¬d.st.Bounded := by
  have hfree := Machine.allowed_of_free (M := linkMachine (fun _ _ => True) fun _ _ => True)
    (fun _ _ => trivial) fun _ _ => trivial
  refine ⟨_, _, .play (c := (sampleLink, none)) (sampleAnnounced 1) .init (hfree _ _), rfl,
    .play (c := (sampleLink, none)) (sampleAnnounced 1 ++ [.call .dataRead, .go 40]) .init (hfree _ _),
    rfl, by decide, fun h => ?_, by decide, fun h => ?_⟩
  · exact absurd (h.buffers .b0) (by decide)
  · have hsafe := h.copies (.bufferGet 2 255 6) (by decide)
    exact absurd hsafe (by unfold Obs.Safe; decide)

end NeuronWired
