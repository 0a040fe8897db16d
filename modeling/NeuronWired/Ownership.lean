import NeuronWired.Bounds

/-!
# Ownership — which buffer belongs to whom

The DMA channels work on the two caches, `spils_data_read` and `spils_data_send` on the other two
buffers.  `Owned` says so of every step, inside the interrupt and in the middle of a pointer swap; the
interrupt is followed step by step here, since `Handled` speaks of its end only.
-/

namespace NeuronWired

open Interrupt

/-! ## What is claimed -/

/-- The four pointers to link buffers. -/
def Spils.pointers (l : Spils) : List BufId :=
  [l.pBufferInCache, l.pBufferIn, l.pBufferOutCache, l.pBufferOut]

/-- Where a transfer that is armed receives: the pointer of the driver, which a resend uses again, and
the address that the running channel was given. -/
def Sys.Receives (s : Sys) (p : Ptr) : Prop :=
  (s.spi.busy = true ∧ s.spi.pDataIn = some p) ∨
    (s.spi.dmaRx.running = true ∧ s.spi.dmaRx.writeAddress = .mem p)

/-- Where a transfer that is armed reads what it sends. -/
def Sys.Transmits (s : Sys) (p : Ptr) : Prop :=
  (s.spi.busy = true ∧ s.spi.pDataOut = some p) ∨
    (s.spi.dmaTx.running = true ∧ s.spi.dmaTx.readAddress = .mem p)

/-- A transfer that is armed works on the caches, away from what the main loop is reading and filling;
outside a swap each buffer has one pointer. -/
structure Owned (s : Sys) : Prop where
  rx : ∀ p, s.Receives p → p.buf = s.link.pBufferInCache ∧ s.ghost.reading ≠ some p.buf
  tx : ∀ p, s.Transmits p → p.buf = s.link.pBufferOutCache ∧ s.ghost.filling ≠ some p.buf
  sends : s.spi.busy = true → ∃ p, s.spi.pDataOut = some p
  each : s.ghost.swapIn = false → s.ghost.swapOut = false → ∀ i, s.link.pointers.count i = 1

/-! ## What the interrupt finds and keeps -/

/-- The pointers, the mutexes and the marks of the main loop. -/
def Sys.marks (s : Sys) :
    (List BufId × Bool × Bool) × Option BufId × Option BufId × Bool × Bool :=
  ((s.link.pointers, s.link.mutexIn, s.link.mutexOut),
    s.ghost.reading, s.ghost.filling, s.ghost.swapIn, s.ghost.swapOut)

/-- The pointers apart, each on its side, and what the main loop is working on kept by a mutex. -/
structure Parted (s : Sys) : Prop where
  inBuf : s.link.pBufferIn.isIn = true
  inCache : s.link.pBufferInCache.isIn = true
  outBuf : s.link.pBufferOut.isIn = false
  outCache : s.link.pBufferOutCache.isIn = false
  neIn : s.ghost.swapIn = false → s.link.pBufferIn ≠ s.link.pBufferInCache
  neOut : s.link.pBufferOut ≠ s.link.pBufferOutCache
  swapOut : s.ghost.swapOut = false
  reading : s.ghost.reading ≠ some s.link.pBufferInCache
  filling : s.ghost.filling ≠ some s.link.pBufferOutCache
  lockIn : s.link.mutexIn = false → s.ghost.reading = none ∧ s.ghost.swapIn = false
  lockOut : s.link.mutexOut = false → s.ghost.filling = none

/-- A driver without a transfer, and with both channels stopped. -/
structure Stopped (h : HalMcuSpi) : Prop where
  busy : h.busy = false
  rx : h.dmaRx.running = false
  tx : h.dmaTx.running = false

/-- No transfer is armed. -/
structure Idle (s : Sys) : Prop where
  parted : Parted s
  off : Stopped s.spi

/-- The pointers of the driver lie in the two caches. -/
structure Live (s : Sys) : Prop where
  parted : Parted s
  aimed : Aimed s.spi
  rx : ∀ p, s.spi.pDataIn = some p → p.buf = s.link.pBufferInCache
  tx : ∃ p, s.spi.pDataOut = some p ∧ p.buf = s.link.pBufferOutCache

section Phases

variable {s s' : Sys}

theorem Parted.each (h : Parted s) (hs : s.ghost.swapIn = false) (i : BufId) :
    s.link.pointers.count i = 1 := by
  unfold Spils.pointers
  rcases BufId.in_pair h.inBuf h.inCache (h.neIn hs) with ⟨h1, h2⟩ | ⟨h1, h2⟩ <;>
    rcases BufId.out_pair h.outBuf h.outCache h.neOut with ⟨h3, h4⟩ | ⟨h3, h4⟩ <;>
    rw [h1, h2, h3, h4] <;> cases i <;> rfl

theorem Parted.congr (h : Parted s) (hm : s'.marks = s.marks) : Parted s' := by
  obtain ⟨h1, h2, h3, h4, h5, h6, h7, h8, h9, h10, h11⟩ := h
  simp only [Sys.marks, Spils.pointers, Prod.mk.injEq, List.cons.injEq, and_true] at hm
  obtain ⟨⟨⟨g1, g2, g3, g4⟩, g5, g6⟩, g7, g8, g9, g10⟩ := hm
  constructor <;> simp only [g1, g2, g3, g4, g5, g6, g7, g8, g9, g10] <;> assumption

/-- With no transfer armed nothing is claimed but the four pointers. -/
theorem owned_of_off (h : Stopped s.spi)
    (hp : s.ghost.swapIn = false → s.ghost.swapOut = false → ∀ i, s.link.pointers.count i = 1) :
    Owned s := by
  have hoff : ∀ {b : Bool}, b = false → b ≠ true := fun h1 h2 => absurd (h2.symm.trans h1) (by decide)
  refine ⟨fun p hp => ?_, fun p hp => ?_, fun hf => absurd hf (hoff h.busy), hp⟩
  · rcases hp with ⟨hf, -⟩ | ⟨hf, -⟩
    · exact absurd hf (hoff h.busy)
    · exact absurd hf (hoff h.rx)
  · rcases hp with ⟨hf, -⟩ | ⟨hf, -⟩
    · exact absurd hf (hoff h.busy)
    · exact absurd hf (hoff h.tx)

theorem Idle.owned (h : Idle s) : Owned s :=
  owned_of_off h.off fun hs _ => h.parted.each hs

theorem Live.owned (h : Live s) : Owned s := by
  obtain ⟨q, hq, hbuf⟩ := h.tx
  refine ⟨fun p hp => ?_, fun p hp => ?_, fun _ => ⟨q, hq⟩, fun hs _ => h.parted.each hs⟩
  · have hin : s.spi.pDataIn = some p := by
      rcases hp with ⟨-, hin⟩ | ⟨hrun, haddr⟩
      · exact hin
      · exact h.aimed.rx hrun p haddr
    rw [h.rx p hin]
    exact ⟨rfl, h.parted.reading⟩
  · have hout : p.buf = q.buf := by
      rcases hp with ⟨-, hout⟩ | ⟨hrun, haddr⟩
      · rw [Option.some.inj (hq.symm.trans hout)]
      · obtain ⟨r, hr, hr'⟩ := h.aimed.tx hrun p haddr
        rw [Option.some.inj (hq.symm.trans hr), hr']
    rw [hout, hbuf]
    exact ⟨rfl, h.parted.filling⟩

end Phases

/-! ## Code that leaves the pointers alone -/

/-- Assertions about the marks and the driver. -/
def Steady (P : Sys → Prop) : Prop := ∀ s s', s'.marks = s.marks → s'.spi = s.spi → P s → P s'

theorem steady_idle : Steady Idle := fun _ _ hm hs h =>
  ⟨h.parted.congr hm, hs ▸ h.off⟩

theorem pointers_eq {s s' : Sys} (hm : s'.marks = s.marks) :
    s'.link.pBufferInCache = s.link.pBufferInCache ∧
      s'.link.pBufferOutCache = s.link.pBufferOutCache := by
  simp only [Sys.marks, Spils.pointers, Prod.mk.injEq, List.cons.injEq] at hm
  exact ⟨hm.1.1.1, hm.1.1.2.2.1⟩

theorem Live.congr {s s' : Sys} (h : Live s) (hm : s'.marks = s.marks) (ha : Aimed s'.spi)
    (hin : s'.spi.pDataIn = s.spi.pDataIn) (hout : s'.spi.pDataOut = s.spi.pDataOut) : Live s' := by
  obtain ⟨h1, h2⟩ := pointers_eq hm
  refine ⟨h.parted.congr hm, ha, fun p hp => ?_, ?_⟩
  · rw [h1]
    exact h.rx p (hin ▸ hp)
  · rw [h2, hout]
    exact h.tx

theorem steady_live : Steady Live := fun _ _ hm hs h =>
  h.congr hm (hs ▸ h.aimed) (hs ▸ rfl) (hs ▸ rfl)

theorem steady_settled : Steady fun s => Idle s ∨ Live s :=
  fun s s' hm hs h => h.imp (steady_idle s s' hm hs) (steady_live s s' hm hs)

namespace Steady

variable {P : Sys → Prop} (F : Steady P)
include F

theorem writeLink {f : Spils → Spils}
    (hf : ∀ l, ((f l).pointers, (f l).mutexIn, (f l).mutexOut) = (l.pointers, l.mutexIn, l.mutexOut)) :
    Keeps P (writeLink f) := by
  refine keeps_write fun s hs => F s _ ?_ rfl hs
  unfold Sys.marks
  rw [Sys.link_mapLink, hf]
  rfl

theorem setState (st : SpilsState) : Keeps P (setState st) := F.writeLink fun _ => rfl

theorem writeBuf (i : BufId) (f : Buffer → Buffer) : Keeps P (writeBuf i f) :=
  keeps_write fun s hs => F s _ rfl rfl hs

theorem logObs (x : Obs) : Keeps P (logObs x) := keeps_write fun s hs => F s _ rfl rfl hs

theorem assertDygma (cond : Bool) (msg : String) : Keeps P (assertDygma cond msg) :=
  .ite (keeps_pure _) (F.logObs _)

theorem eventHandler (e : SpilsEventType) : Keeps P (eventHandler e) :=
  keeps_write fun s hs => F s _ rfl rfl hs

theorem recycleInCache : Keeps P recycleInCache := keeps_write fun s hs => F s _ rfl rfl hs

theorem messComposeResult (i : BufId) (r : UInt8) : Keeps P (messComposeResult i r) :=
  .bind (F.writeBuf _ _) fun _ => .bind (F.writeBuf _ _) fun _ => F.writeBuf _ _

theorem dummyMessage (i : BufId) : Keeps P (messComposeData i none 0) :=
  .bind (keeps_read _) fun _ => .ite (.bind (F.assertDygma _ _) fun _ => keeps_pure _)
    (.bind (F.writeBuf _ _) fun _ => .bind (F.writeBuf _ _) fun _ => .bind (F.writeBuf _ _) fun _ =>
      keeps_pure _)

theorem shapeMessage (i : BufId) (loadsize len : ℕ) : Keeps P (shapeMessage i loadsize len) :=
  .bind (F.writeBuf _ _) fun _ => .bind (F.writeBuf _ _) fun _ => F.writeBuf _ _

theorem transferDataInPrepare : Keeps P transferDataInPrepare :=
  .bind (keeps_read _) fun _ => .ite (.bind (F.writeLink fun _ => rfl) fun _ => keeps_pure _)
    (.bind (F.writeLink fun _ => rfl) fun _ => keeps_read _)

theorem buffersSetDoneHandler : Keeps P buffersSetDoneHandler := by
  refine .bind (keeps_read _) fun st => ?_
  cases st <;> first | exact F.setState _ | exact keeps_pure _

theorem transferDataOutProcess : Keeps P transferDataOutProcess :=
  .bind (keeps_write fun s hs => F s _ rfl rfl hs) fun _ => .bind (keeps_read _) fun _ =>
    .ite (F.eventHandler _) (keeps_pure _)

end Steady

/-! ## The driver leaves its pointers alone -/

/-- Steps of the driver that keep the pointers, and do not start a channel elsewhere. -/
theorem keeps_writeSpi {g : HalMcuSpi → HalMcuSpi} (ha : ∀ h, Aimed h → Aimed (g h))
    (hg : ∀ h, (g h).pDataIn = h.pDataIn ∧ (g h).pDataOut = h.pDataOut) : Keeps Live (writeSpi g) :=
  keeps_write fun s hs => hs.congr rfl (ha _ hs.aimed) (hg s.spi).1 (hg s.spi).2

theorem keeps_slaveTransferFinish : Keeps Live slaveTransferFinish := by
  have hsame : ∀ {g : HalMcuSpi → HalMcuSpi}, (∀ h, Aimed h → Aimed (g h)) →
      (∀ h, (g h).pDataIn = h.pDataIn ∧ (g h).pDataOut = h.pDataOut) → Keeps Live (writeSpi g) :=
    fun ha hg => keeps_writeSpi ha hg
  refine .bind (.bind (keeps_read _) fun _ => .ite (keeps_pure _)
    (.bind (hsame (fun _ h => ⟨h.rx, h.tx⟩) fun _ => ⟨rfl, rfl⟩) fun _ => .bind ?_ fun _ => .ite
      (.bind (hsame (fun _ h => ⟨h.rx, h.tx⟩) fun _ => ⟨rfl, rfl⟩) fun _ => keeps_pure _)
      (keeps_pure _))) fun _ => .ite
    (.bind (hsame (fun _ _ => aimed_of_stopped rfl rfl) fun _ => ⟨rfl, rfl⟩) fun _ => .ite
      (.bind (hsame (fun _ h => ⟨h.rx, h.tx⟩) fun _ => ⟨rfl, rfl⟩) fun _ => keeps_pure _)
      (.bind (hsame (fun _ h => ⟨h.rx, h.tx⟩) fun _ => ⟨rfl, rfl⟩) fun _ => keeps_pure _))
    (keeps_pure _)
  refine keeps_atomic fun s hs => ?_
  split_ifs
  · exact hs.congr rfl ⟨hs.aimed.rx, hs.aimed.tx⟩ rfl rfl
  · exact hs

/-! ## The interrupt, step by step -/

section Walk

variable {α β : Type} {s t : Sys} {Q : β → Sys → Prop}

/-- The interrupt runs `p` from `s` with `Owned` at every step, and `Q` holds in the end. -/
abbrev Along (p : Code α) (Q : α → Sys → Prop) (s : Sys) : Prop := wp (Quiet Sys) Owned p Q s

/-- Code that leaves the pointers alone, with no transfer armed. -/
theorem along_idle {p : Code α} {k : α → Code β} (hp : Keeps Idle p) (h : Idle s)
    (hk : ∀ a t, p.run s = (a, t) → Idle t → Along (k a) Q t) : Along (p >>= k) Q s :=
  wp_bind (wp_mono (wp_always_mono (wp_run hp h) fun _ ht => ht.owned) fun a t ht =>
    hk a t ht.1 ht.2)

/-- Code that keeps a transfer armed. -/
theorem along_live {p : Code α} (hp : Keeps Live p) (h : Live s) : Along p (fun _ => Live) s :=
  wp_always_mono (wp_frame stable_quiet hp h) fun _ ht => ht.owned

/-- Code that ends the interrupt, with a transfer armed or not. -/
theorem along_settled {p : Code α} (hp : Keeps (fun s => Idle s ∨ Live s) p) (h : Idle s ∨ Live s) :
    Along p (fun _ t => Idle t ∨ Live t) s :=
  wp_always_mono (wp_frame stable_quiet hp h) fun _ ht => ht.elim Idle.owned Live.owned

theorem along_read {g : Sys → α} {k : α → Code β} (h : Owned s) (hk : Along (k (g s)) Q s) :
    Along (Prog.read g >>= k) Q s := by
  refine wp_read (P := fun t => t = s) stable_quiet (fun t ht => ht ▸ h) rfl fun t ht => ?_
  rw [ht]
  exact hk

theorem along_write {f : Sys → Sys} {k : Unit → Code β} (h : Owned s) (hk : Along (k ()) Q (f s)) :
    Along (Prog.write f >>= k) Q s := by
  refine wp_write (P := fun t => t = s) stable_quiet (fun t ht => ht ▸ h) rfl fun t ht => ?_
  rw [ht]
  exact hk

theorem along_atomic {f : Sys → α × Sys} {k : α → Code β} {a : α} (h : Owned s) (hf : f s = (a, t))
    (hk : Along (k a) Q t) : Along (Prog.atomic f >>= k) Q s := by
  refine wp_atomic (P := fun t => t = s) stable_quiet (fun t ht => ht ▸ h) rfl fun u hu => ?_
  rw [hu]
  exact ⟨a, t, hf, hk⟩

theorem along_pure {Q : α → Sys → Prop} {a : α} (h : Owned s) (hQ : Q a s) : Along (pure a) Q s := by
  have hw : Along (pure a) (fun b t => t = s ∧ Q b t) s :=
    wp_pure stable_quiet (fun _ ht => ht.1 ▸ h) ⟨rfl, hQ⟩
  exact wp_mono hw fun _ _ ht => ht.2

theorem along_write_last {f : Sys → Sys} {Q : Unit → Sys → Prop} (h : Owned s) (ho : Owned (f s))
    (hQ : Q () (f s)) : Along (Prog.write f) Q s := by
  refine wp_step (P := fun t => t = s) stable_quiet (fun t ht => ht ▸ h) rfl fun t ht => ?_
  rw [ht]
  exact along_pure ho hQ

/-! ### The pointer moves -/

/-- In the middle of a swap nothing is claimed of the pointers. -/
theorem Owned.of_swap (h : Stopped s.spi) (hs : s.ghost.swapIn = true ∨ s.ghost.swapOut = true) :
    Owned s := by
  refine owned_of_off h fun h1 h2 => ?_
  rcases hs with hs | hs
  · exact absurd (hs.symm.trans h1) (by decide)
  · exact absurd (hs.symm.trans h2) (by decide)

/-- The interrupt holds the input mutex. -/
structure MineIn (s : Sys) : Prop where
  idle : Idle s
  reading : s.ghost.reading = none
  swap : s.ghost.swapIn = false

/-- The interrupt holds the output mutex. -/
structure MineOut (s : Sys) : Prop where
  idle : Idle s
  filling : s.ghost.filling = none

theorem MineIn.mapLink (h : MineIn s) {f : Spils → Spils} (hp : (f s.link).pointers = s.link.pointers)
    (hm : (f s.link).mutexOut = s.link.mutexOut) : MineIn (s.mapLink f) := by
  obtain ⟨⟨⟨h1, h2, h3, h4, h5, h6, h7, h8, h9, h10, h11⟩, hb⟩, hr, hs⟩ := h
  simp only [Spils.pointers, List.cons.injEq, and_true] at hp
  obtain ⟨g1, g2, g3, g4⟩ := hp
  refine ⟨⟨⟨?_, ?_, ?_, ?_, ?_, ?_, h7, ?_, ?_, fun _ => ⟨hr, hs⟩, ?_⟩, hb⟩, hr, hs⟩ <;>
    simp only [Sys.link_mapLink, Sys.ghost_mapLink, g1, g2, g3, g4, hm] <;> assumption

theorem MineOut.mapLink (h : MineOut s) {f : Spils → Spils} (hp : (f s.link).pointers = s.link.pointers)
    (hm : (f s.link).mutexIn = s.link.mutexIn) : MineOut (s.mapLink f) := by
  obtain ⟨⟨⟨h1, h2, h3, h4, h5, h6, h7, h8, h9, h10, h11⟩, hb⟩, hf⟩ := h
  simp only [Spils.pointers, List.cons.injEq, and_true] at hp
  obtain ⟨g1, g2, g3, g4⟩ := hp
  refine ⟨⟨⟨?_, ?_, ?_, ?_, ?_, ?_, h7, ?_, ?_, ?_, fun _ => hf⟩, hb⟩, hf⟩ <;>
    simp only [Sys.link_mapLink, Sys.ghost_mapLink, g1, g2, g3, g4, hm] <;> assumption

theorem along_unlockIn (h : MineIn s) (r : Result) :
    Along (do mutexInUnlock; pure r) (fun _ t => Idle t) s := by
  have hu := (h.mapLink (f := fun l => { l with mutexIn := false }) rfl rfl).idle
  exact along_write h.idle.owned (along_pure hu.owned hu)

theorem along_unlockOut (h : MineOut s) (r : Result) :
    Along (do mutexOutUnlock; pure r) (fun _ t => Idle t) s := by
  have hu := (h.mapLink (f := fun l => { l with mutexOut := false }) rfl rfl).idle
  exact along_write h.idle.owned (along_pure hu.owned hu)

/-- The two assignments of the input swap, and the marks around them. -/
theorem along_swapIn {k : Unit → Code α} {Q : α → Sys → Prop} (h : MineIn s)
    (hk : ∀ t, MineIn t → Along (k ()) Q t) : Along (bufferInCacheSwap >>= k) Q s := by
  obtain ⟨⟨h1, h2, h3, h4, h5, h6, h7, h8, h9, h10, h11⟩, hb⟩ := h.idle
  refine wp_bind (along_read h.idle.owned (along_write h.idle.owned (along_write ?_ (along_write ?_ ?_))))
  · exact .of_swap hb (.inl rfl)
  · exact .of_swap hb (.inl rfl)
  · have hne : s.link.pBufferIn ≠ s.link.pBufferInCache := h5 h.swap
    have hr : s.ghost.reading ≠ some s.link.pBufferIn := by
      rw [h.reading]
      exact fun hf => by cases hf
    have hmine : MineIn (((s.mapLink fun l => { l with
        pBufferIn := l.pBufferInCache, pBufferInCache := s.link.pBufferIn }).mapGhost
          fun g => { g with swapIn := false })) :=
      ⟨⟨⟨h2, h1, h3, h4, fun _ => hne.symm, h6, h7, hr, h9, fun _ => ⟨h.reading, rfl⟩, h11⟩, hb⟩,
        h.reading, rfl⟩
    exact along_write_last (.of_swap hb (.inl rfl)) hmine.idle.owned (hk _ hmine)

/-- The two assignments of the output swap, and the marks around them. -/
theorem along_swapOut {k : Unit → Code α} {Q : α → Sys → Prop} (h : MineOut s)
    (hk : ∀ t, MineOut t → Along (k ()) Q t) : Along (bufferOutCacheSwap >>= k) Q s := by
  obtain ⟨⟨h1, h2, h3, h4, h5, h6, h7, h8, h9, h10, h11⟩, hb⟩ := h.idle
  refine wp_bind (along_read h.idle.owned (along_write h.idle.owned (along_write ?_ (along_write ?_ ?_))))
  · exact .of_swap hb (.inr rfl)
  · exact .of_swap hb (.inr rfl)
  · have hf : s.ghost.filling ≠ some s.link.pBufferOut := by
      rw [h.filling]
      exact fun hf => by cases hf
    have hmine : MineOut (((s.mapLink fun l => { l with
        pBufferOut := l.pBufferOutCache, pBufferOutCache := s.link.pBufferOut }).mapGhost
          fun g => { g with swapOut := false })) :=
      ⟨⟨⟨h1, h2, h4, h3, h5, h6.symm, rfl, h8, hf, h10, fun _ => h.filling⟩, hb⟩, h.filling⟩
    exact along_write_last (.of_swap hb (.inr rfl)) hmine.idle.owned (hk _ hmine)

/-- `_buffer_in_cache_data_move` of the interrupt. -/
theorem along_moveIn (h : Idle s) : Along bufferInCacheDataMove (fun _ t => Idle t) s := by
  unfold bufferInCacheDataMove
  cases hm : s.link.mutexIn with
  | true =>
    refine along_atomic (t := s) (a := false) h.owned (if_pos hm) ?_
    rw [if_pos rfl]
    exact along_pure h.owned h
  | false =>
    obtain ⟨hr, hs⟩ := h.parted.lockIn hm
    have hlock : MineIn s.lockIn := MineIn.mapLink ⟨h, hr, hs⟩ rfl rfl
    refine along_atomic (t := s.lockIn) (a := true) h.owned (if_neg (by rw [hm]; decide)) ?_
    rw [if_neg (by decide)]
    refine along_read hlock.idle.owned ?_
    split_ifs
    · have hm := hlock.mapLink (f := fun l => { l with lineInBusy := false }) rfl rfl
      exact along_write hlock.idle.owned (along_unlockIn hm _)
    · refine along_read hlock.idle.owned ?_
      split_ifs
      · exact along_unlockIn hlock _
      · refine along_swapIn hlock fun t ht => ?_
        have h1 := ht.mapLink (f := fun l => { l with dataInAvailable := true }) rfl rfl
        have h2 := h1.mapLink (f := fun l => { l with lineInBusy := false }) rfl rfl
        exact along_write ht.idle.owned (along_write h1.idle.owned (along_unlockIn h2 _))

/-- `_buffer_out_cache_data_move`. -/
theorem along_moveOut (h : Idle s) : Along bufferOutCacheDataMove (fun _ t => Idle t) s := by
  unfold bufferOutCacheDataMove
  cases hm : s.link.mutexOut with
  | true =>
    refine along_atomic (t := s) (a := false) h.owned (if_pos hm) ?_
    rw [if_pos rfl]
    exact along_pure h.owned h
  | false =>
    have hlock : MineOut s.lockOut := MineOut.mapLink ⟨h, h.parted.lockOut hm⟩ rfl rfl
    refine along_atomic (t := s.lockOut) (a := true) h.owned (if_neg (by rw [hm]; decide)) ?_
    rw [if_neg (by decide)]
    refine along_read hlock.idle.owned (along_read hlock.idle.owned ?_)
    have hclear : ∀ t, MineOut t → Along (do
        writeLink fun l => { l with dataOutAvailable := false }
        mutexOutUnlock
        pure Result.ok) (fun _ t => Idle t) t := fun t ht =>
      along_write ht.idle.owned
        (along_unlockOut (ht.mapLink (f := fun l => { l with dataOutAvailable := false }) rfl rfl) _)
    split_ifs
    · exact along_swapOut hlock hclear
    · exact hclear _ hlock

/-! ### Starting the next transfer -/

/-- The two halves of the configuration keep the pointers and the channels. -/
theorem pointers_rxTransferConfig (h : HalMcuSpi) :
    (rxTransferConfig h).2.pDataIn = h.pDataIn ∧ (rxTransferConfig h).2.pDataOut = h.pDataOut ∧
      (Aimed h → Aimed (rxTransferConfig h).2) := by
  rw [rxTransferConfig_snd]
  exact ⟨rfl, rfl, fun ha => ⟨ha.rx, ha.tx⟩⟩

theorem pointers_txTransferConfig (h : HalMcuSpi) :
    (txTransferConfig h).2.pDataIn = h.pDataIn ∧ (txTransferConfig h).2.pDataOut = h.pDataOut ∧
      (Aimed h → Aimed (txTransferConfig h).2) := by
  rw [txTransferConfig_snd]
  exact ⟨rfl, rfl, fun ha => ⟨ha.rx, ha.tx⟩⟩

/-- `_slave_transfer` starts the channels on the pointers it finds. -/
theorem along_slaveTransfer (h : Live s) : Along slaveTransfer (fun _ => Live) s := by
  unfold slaveTransfer
  refine along_read h.owned (wp_bind (wp_mono (along_live (steady_live.assertDygma _ _) h)
    fun _ t ht => ?_))
  obtain ⟨hin, hout, haim⟩ := pointers_rxTransferConfig t.spi
  have h1 : Live (t.mapSpi fun h => (rxTransferConfig h).2) := ht.congr rfl (haim ht.aimed) hin hout
  refine along_atomic ht.owned rfl ?_
  set u := t.mapSpi fun h => (rxTransferConfig h).2
  obtain ⟨hin', hout', haim'⟩ := pointers_txTransferConfig u.spi
  have h2 : Live (u.mapSpi fun h => (txTransferConfig h).2) := h1.congr rfl (haim' h1.aimed) hin' hout'
  refine along_atomic h1.owned rfl ?_
  set v := u.mapSpi fun h => (txTransferConfig h).2
  set r := preFill v.load v.spi.txDepth (txTransferConfig u.spi).1.bufferSize
    (txTransferConfig u.spi).1.readAddress v.spi.txFifo with hr
  have h3 : Live (v.mapSpi fun h => { h with txFifo := r.2.2 }) :=
    h2.congr rfl ⟨h2.aimed.rx, h2.aimed.tx⟩ rfl rfl
  refine along_atomic h2.owned rfl ?_
  have h4 : Live ((v.mapSpi fun h => { h with txFifo := r.2.2 }).mapSpi fun h => { h with busy := true }) :=
    h3.congr rfl ⟨h3.aimed.rx, h3.aimed.tx⟩ rfl rfl
  refine along_write h3.owned (along_write h4.owned (along_live keeps_slaveTransferFinish ?_))
  refine h4.congr rfl (aimed_dmaStart (fun p hp => ?_) fun p hp => ?_) rfl rfl
  · exact hin'.trans (hin.trans (rxTransferConfig_aim hp))
  · obtain ⟨q, hq, hbuf⟩ := preFill_aim hp
    exact ⟨q, hout'.trans (txTransferConfig_aim hq), hbuf⟩

/-- `hal_mcu_spi_data_transfer` with pointers into the caches. -/
theorem along_slaveTransferStart (h : Idle s) (conf : TransferConf)
    (hrx : ∀ p, conf.pDataIn = some p → p.buf = s.link.pBufferInCache)
    (htx : ∃ p, conf.pDataOut = some p ∧ p.buf = s.link.pBufferOutCache) :
    Along (slaveTransferStart conf buffersSetDoneHandler) (fun _ t => Idle t ∨ Live t) s := by
  unfold slaveTransferStart
  refine along_read h.owned ?_
  rw [if_neg (show ¬s.spi.busy = true by rw [h.off.busy]; decide)]
  split_ifs
  · exact along_settled (.bind (steady_settled.assertDygma _ _) fun _ => keeps_pure _) (.inl h)
  · refine along_write h.owned ?_
    have hlive : Live (s.mapSpi fun h => { h with
        pDataOut := conf.pDataOut, pDataIn := conf.pDataIn
        dataInLen := conf.dataInLen, dataOutLen := conf.dataOutLen }) :=
      ⟨h.parted.congr rfl, aimed_of_stopped h.off.rx h.off.tx, hrx, htx⟩
    refine wp_bind (wp_mono (along_slaveTransfer hlive) fun r t ht => ?_)
    exact along_settled (.ite (keeps_pure _) (.bind steady_settled.buffersSetDoneHandler fun _ =>
      keeps_pure _)) (.inr ht)

theorem along_transferStart (h : Idle s) (st : SpilsState) (hout : s.outCacheB.getLoadsize ≠ 0) :
    Along (transferStart st) (fun _ t => Idle t ∨ Live t) s := by
  unfold transferStart
  refine along_idle steady_idle.transferDataInPrepare h fun din t hrun ht => ?_
  rw [run_transferDataInPrepare] at hrun
  obtain ⟨rfl, hu⟩ := Prod.mk.inj hrun
  have hout' : t.outCacheB.getLoadsize ≠ 0 := by
    rw [← hu]
    exact hout
  have hrx' : ∀ p, s.rxPtr = some p → p.buf = t.link.pBufferInCache := fun p hp => by
    unfold Sys.rxPtr at hp
    split_ifs at hp
    obtain rfl := Option.some.inj hp
    rw [← hu]
    rfl
  refine along_idle (keeps_read _) ht fun dout t hrun ht => ?_
  rw [run_transferDataOutPrepare hout'] at hrun
  obtain ⟨rfl, rfl⟩ := Prod.mk.inj hrun
  refine along_read ht.owned (along_idle (steady_idle.setState st) ht fun _ t hrun ht => ?_)
  obtain rfl := (Prod.mk.inj hrun).2
  refine wp_bind (wp_mono (along_slaveTransferStart ht _ hrx' ⟨_, rfl, rfl⟩) fun r t ht => ?_)
  exact along_settled (.bind (keeps_write fun s hs => steady_settled s _ rfl rfl hs) fun _ => .ite
    (.bind (steady_settled.setState _) fun _ => keeps_pure _) (keeps_pure _)) ht

/-- `_listening_start` and `_data_receive_start`. -/
theorem along_resultStart (h : Idle s) (r : UInt8) (st : SpilsState) (msg : String) :
    Along (do
      let cache ← readLink (·.pBufferOutCache)
      messComposeResult cache r
      let result ← transferStart st
      assertDygma (result = .ok) msg) (fun _ t => Idle t ∨ Live t) s := by
  refine along_read h.owned (along_idle (steady_idle.messComposeResult _ r) h fun _ t hrun ht => ?_)
  have hout : t.outCacheB.getLoadsize ≠ 0 := by
    rw [run_messComposeResult] at hrun
    obtain rfl := (Prod.mk.inj hrun).2
    show (s.answer r).outCacheB.getLoadsize ≠ 0
    simp
  exact wp_bind (wp_mono (along_transferStart ht st hout) fun _ t ht =>
    along_settled (steady_settled.assertDygma _ _) ht)

theorem along_dataSendStart (h : Idle s) (hout : s.outCacheB.getLoadsize ≠ 0) :
    Along dataSendStart (fun _ t => Idle t ∨ Live t) s :=
  wp_bind (wp_mono (along_transferStart h _ hout) fun _ _ ht =>
    along_settled (steady_settled.assertDygma _ _) ht)

/-! ### The handlers -/

theorem along_listeningStart (h : Idle s) (r : UInt8) :
    Along (listeningStart r) (fun _ t => Idle t ∨ Live t) s := along_resultStart h r _ _

theorem along_dataReceiveStart (h : Idle s) (r : UInt8) :
    Along (dataReceiveStart r) (fun _ t => Idle t ∨ Live t) s := along_resultStart h r _ _

/-- The input cache is recycled in front of a start. -/
theorem along_recycleIn {c : Code Unit} (h : Idle s)
    (hc : ∀ t, Idle t → Along c (fun _ t => Idle t ∨ Live t) t) :
    Along (do recycleInCache; c) (fun _ t => Idle t ∨ Live t) s :=
  along_idle steady_idle.recycleInCache h fun _ t _ ht => hc t ht

theorem along_transferReceiveDataStart (h : Idle s) :
    Along transferReceiveDataStart (fun _ t => Idle t ∨ Live t) s := by
  unfold transferReceiveDataStart
  refine along_read h.owned (along_read h.owned (along_read h.owned ?_))
  split_ifs
  · exact along_recycleIn h fun t ht => along_listeningStart ht _
  · exact along_recycleIn h fun t ht => along_dataReceiveStart ht _

theorem along_transferSendDataStart (h : Idle s) :
    Along transferSendDataStart (fun _ t => Idle t ∨ Live t) s := by
  unfold transferSendDataStart
  refine along_read h.owned (along_read h.owned (along_read h.owned ?_))
  split_ifs
  · exact along_recycleIn h fun t ht => along_listeningStart ht _
  refine wp_bind (wp_mono (along_moveOut h) fun r t ht => along_read ht.owned ?_)
  -- the message in front of the last two steps
  have hlast : ∀ u : Sys, Idle u → u.outCacheB.getLoadsize ≠ 0 → Along (do
      recycleInCache
      if r ≠ .ok then listeningStart MessType.resultBusy else dataSendStart)
      (fun _ t => Idle t ∨ Live t) u := by
    intro u hu hout
    refine along_idle steady_idle.recycleInCache hu fun _ t hrun ht => ?_
    obtain rfl := (Prod.mk.inj hrun).2
    split_ifs
    · exact along_listeningStart ht _
    · refine along_dataSendStart ht ?_
      have hne := BufId.ne_of_isIn hu.parted.inCache hu.parted.outCache
      show u.recycleIn.outCacheB.getLoadsize ≠ 0
      rw [outCacheB_recycleIn hne]
      exact hout
  by_cases hout : t.outCacheB.getLoadsize = 0
  · rw [if_pos hout]
    refine along_read ht.owned (along_idle (steady_idle.dummyMessage _) ht fun _ u hrun hu => ?_)
    rw [run_messComposeData_none] at hrun
    obtain rfl := (Prod.mk.inj hrun).2
    refine hlast _ hu ?_
    show t.dummy.outCacheB.getLoadsize ≠ 0
    simp
  · rw [if_neg hout]
    exact hlast t ht hout

theorem along_transferReceiveDataExit (h : Idle s) (r : UInt8) :
    Along (transferReceiveDataExit r) (fun _ t => Idle t ∨ Live t) s := by
  have hend : ∀ t, Idle t → Along (do
      listeningStart r
      if r = MessType.resultOk then eventHandler .dataInReady else pure ())
      (fun _ t => Idle t ∨ Live t) t := fun t ht =>
    wp_bind (wp_mono (along_listeningStart ht r) fun _ _ ht =>
      along_settled (.ite (steady_settled.eventHandler _) (keeps_pure _)) ht)
  unfold transferReceiveDataExit
  refine along_read h.owned ?_
  by_cases hb : s.link.lineInBusy = false
  · rw [if_pos hb]
    exact along_recycleIn h hend
  · rw [if_neg hb]
    exact hend s h

theorem along_transferReceiveData (h : Idle s) :
    Along transferReceiveData (fun _ t => Idle t ∨ Live t) s := by
  unfold transferReceiveData
  refine along_read h.owned ?_
  split_ifs
  · exact along_transferReceiveDataExit h _
  refine along_read h.owned (along_read h.owned (along_read h.owned ?_))
  split_ifs
  · exact along_transferReceiveDataExit h _
  refine along_idle (steady_idle.shapeMessage _ _ _) h fun _ t _ ht => ?_
  refine wp_bind (wp_mono (along_moveIn ht) fun r t ht => ?_)
  split_ifs
  · exact along_idle (steady_idle.writeLink fun _ => rfl) ht fun _ t _ ht =>
      along_transferReceiveDataExit ht _
  · exact along_idle (steady_idle.assertDygma _ _) ht fun _ t _ ht =>
      along_transferReceiveDataExit ht _

theorem along_transferUnknown (h : Idle s) :
    Along transferUnknown (fun _ t => Idle t ∨ Live t) s := by
  unfold transferUnknown
  refine along_recycleIn h fun t ht => along_read ht.owned ?_
  split_ifs
  · exact along_dataReceiveStart ht _
  · refine along_read ht.owned ?_
    split_ifs
    · exact along_listeningStart ht _
    · exact along_listeningStart ht _

theorem along_transferDataInProcess (h : Idle s) (r : TransferResult) :
    Along (transferDataInProcess r) (fun _ t => Idle t ∨ Live t) s := by
  unfold transferDataInProcess
  refine along_read h.owned ?_
  split_ifs
  · exact along_listeningStart h _
  · exact along_listeningStart h _
  refine along_read h.owned (along_idle (steady_idle.writeBuf _ _) h fun _ t _ ht =>
    along_read ht.owned ?_)
  split_ifs
  · exact along_transferReceiveDataStart ht
  · exact along_transferSendDataStart ht
  · exact along_transferReceiveData ht
  · exact along_transferUnknown ht

theorem aimed_clockIn (h : Aimed s.spi) (e : Edge) : Aimed (s.clockIn e).spi := by
  unfold Sys.clockIn Sys.dmaStore Sys.dmaCount
  split <;> exact ⟨h.rx, h.tx⟩

/-- **The whole interrupt.** -/
theorem along_irq (h : Live s) (i : Irq) : Along (irqProg i) (fun _ t => Idle t ∨ Live t) s := by
  cases i with
  | tick ms =>
    have ht : Live { s with now := s.now + ms } := steady_live s _ rfl rfl h
    exact along_write_last h.owned ht.owned (.inr ht)
  | edge e =>
    obtain ⟨hlink, -, -, hghost⟩ := link_clockIn s e
    obtain ⟨-, -, -, -, -, -, hout, hin, -⟩ := spi_clockIn s e
    have hmarks : (s.clockIn e).marks = s.marks := by
      unfold Sys.marks
      rw [hlink, hghost]
    have hlive : Live (s.clockIn e) := h.congr hmarks (aimed_clockIn h.aimed e) hin hout
    refine along_write h.owned (along_read hlive.owned ?_)
    split_ifs
    · exact along_pure hlive.owned (.inr hlive)
    have h1 : Live ((s.clockIn e).mapSpi slaveSpiDisable) :=
      hlive.congr rfl ⟨hlive.aimed.rx, hlive.aimed.tx⟩ rfl rfl
    have h2 : Live (((s.clockIn e).mapSpi slaveSpiDisable).mapSpi dmaStop) :=
      h1.congr rfl (aimed_of_stopped rfl rfl) rfl rfl
    refine along_write hlive.owned (along_read h1.owned (along_write h1.owned (along_write h2.owned ?_)))
    set u := (((s.clockIn e).mapSpi slaveSpiDisable).mapSpi dmaStop).mapSpi
      fun h => { h with dummyInUsed := false, busy := false } with hu
    have h3 : Live u := h2.congr rfl (aimed_of_stopped rfl rfl) rfl rfl
    have hidle : Idle u := ⟨h3.parted, rfl, rfl, rfl⟩
    refine along_read h3.owned ?_
    split_ifs
    · have h4 : Live (u.mapSpi fun h => { h with resendRequest := false }) :=
        h3.congr rfl (aimed_of_stopped rfl rfl) rfl rfl
      refine along_write h3.owned (wp_bind (wp_mono (along_slaveTransfer h4) fun _ t ht => ?_))
      exact along_settled (steady_settled.assertDygma _ _) (.inr ht)
    · refine along_idle (keeps_write fun s hs => steady_idle s _ rfl rfl hs) hidle fun _ t _ ht => ?_
      refine along_idle (steady_idle.writeLink fun _ => rfl) ht fun _ t _ ht => ?_
      exact along_idle steady_idle.transferDataOutProcess ht fun _ t _ ht =>
        along_transferDataInProcess ht _

end Walk

/-! ## Every step of every run -/

/-- What the main loop leaves to the interrupt. -/
theorem Watched.live {size : ℕ} {g : Prop} {s : Sys} (h : Watched size g s) : Live s := by
  obtain ⟨hB, ⟨n, hin⟩, fl, hout⟩ := h
  obtain ⟨off, htx⟩ := hB.txSide
  refine ⟨⟨hB.shape.inBuf, hB.shape.inCache, hB.shape.outBuf, hB.shape.outCache, hin.view.ne,
    hout.view.ne, hout.view.swap, hin.view.reading, hout.view.filling, hin.view.unlocked,
    hout.view.unlocked⟩, hB.armed.aimed, fun p hp => ?_, _, htx, rfl⟩
  rw [hin.rx.buf p hp]

/-- **Ownership** holds at every step of every run, also inside the interrupt and in the middle of a
pointer swap, whatever the master sends and whatever the calls are given. -/
theorem ownership {s₀ : Sys} (h₀ : Initial s₀) {c : Cfg Sys LinkCall}
    (hc : (linkMachine (fun _ _ => True) fun _ _ => True).Reach s₀ c) : Owned c.st := by
  obtain ⟨conf, hw, slave, hok, rfl⟩ := h₀
  obtain ⟨Inv, A, O, hInv, hI, hA⟩ := outline_watched (g := False) (fun _ _ => True) (fun _ _ => True)
    (fun _ _ _ hf => hf.elim) hok hw slave
  exact O.everywhere hInv (fun s h => (hI s h).live) (fun k s h => (hA k s h).live)
    (fun s h => h.owned) (fun i s h _ => wp_mono (along_irq h i) fun _ _ _ => trivial) hc

/-- The main loop is reading the first message when the next one comes in. -/
def sampleOverlap : List (Act LinkCall Irq) :=
  [.irq (.edge (.of [2, 1])), .irq (.edge (.of [4, 3, 7, 9])), .call .dataRead, .go 8,
    .irq (.edge (.of [2, 1])), .irq (.edge (.of [3, 3, 5]))]

theorem ownership_sample :
    ((linkMachine (fun _ _ => True) fun _ _ => True).play sampleOverlap
      (sampleLink, none)).1.ghost.reading = some .b0 ∧
    Owned ((linkMachine (fun _ _ => True) fun _ _ => True).play sampleOverlap (sampleLink, none)).1 :=
  ⟨by decide, ownership sampleLink_initial (Machine.Reach.play (c := (sampleLink, none)) sampleOverlap
    .init (Machine.allowed_of_free (fun _ _ => trivial) (fun _ _ => trivial) _ _))⟩

end NeuronWired
