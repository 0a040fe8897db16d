import NeuronWired.Bounds

/-!
# MoveResult — the assertion behind `_buffer_in_cache_data_move`

`_transfer_receive_data` asserts that the move of the input cache succeeds unless it is put off.  The
length check in front of it lets a DATA message through that is only its own header, or less.  The first
leaves nothing to move, and the assertion fails; the second is moved, or put off, with a read position
behind the write position.  No other message that passes leaves the cache without a payload.
-/

namespace NeuronWired

open Interrupt

/-- The assertion has failed. -/
def moveFailed : Obs := .assertFailed "Unexpected SPI Link _buffer_in_cache_data_move result"

/-- How often the assertion has failed. -/
def Sys.moveFailures (s : Sys) : ℕ := s.ghost.trace.count moveFailed

/-- How often `DATA_IN_READY` has been raised. -/
def Sys.dataInReadies (s : Sys) : ℕ := s.ghost.trace.count (.event .dataInReady)

/-- A message that is only its header, or less, passes the check. -/
def Bare (s : Sys) (e : Edge) : Prop := ∃ len, PassesCheck s e len ∧ len.toNat ≤ messHeaderSize

/-- A message that is only its header passes the check and is not put off. -/
def OnlyHeader (s : Sys) (e : Edge) : Prop :=
  ∃ len, PassesCheck s e len ∧ s.link.mutexIn = false ∧ len.toNat = messHeaderSize

/-- What a message of length `len` carries behind its header. -/
def Sys.payload (s : Sys) (e : Edge) (len : UInt8) : Bytes :=
  ((s.received e).take len.toNat).drop messHeaderSize

/-- The payload of the message waits in the cache under `line_in_busy`, and it is not empty. -/
structure PutOff (s : Sys) (e : Edge) (s' : Sys) : Prop where
  busy : s'.link.lineInBusy = true
  payload : ∃ len, PassesCheck s e len ∧ s'.cacheB.content = s.payload e len
  some : s'.cacheB.content ≠ []

/-- `p_buffer_in` has received the payload of the message, and it is not empty. -/
structure NewPayload (s : Sys) (e : Edge) (s' : Sys) : Prop where
  swapped : s'.link.pBufferIn = s.link.pBufferInCache ∧ s'.link.pBufferInCache = s.link.pBufferIn
  payload : ∃ len, PassesCheck s e len ∧ s'.inB.content = s.payload e len
  some : s'.inB.content ≠ []

/-- The assertion holds, a message past the check leaves data to move, and `DATA_IN_READY` is raised only
for a new payload. -/
structure MoveHonest (s : Sys) (e : Edge) (s' : Sys) : Prop where
  asserted : s'.moveFailures = s.moveFailures
  loaded : (∃ len, PassesCheck s e len) → PutOff s e s' ∨ NewPayload s e s'
  ready : s.dataInReadies < s'.dataInReadies → NewPayload s e s'

/-! ## What one interrupt adds to the two counts -/

section Counts

variable {s t p : Sys} {e : Edge} {st : SpilsState} {ready : Bool}

theorem counts_append {x : Obs} {l l' : List Obs} (h : l' = l ++ [x]) (hf : x ≠ moveFailed)
    (hr : x ≠ .event .dataInReady) :
    l'.count moveFailed = l.count moveFailed ∧
      l'.count (.event .dataInReady) = l.count (.event .dataInReady) := by
  rw [h, List.count_append, List.count_append, List.count_singleton, List.count_singleton,
    if_neg (by simpa using hf), if_neg (by simpa using hr)]
  exact ⟨rfl, rfl⟩

theorem counts_clockIn (s : Sys) (e : Edge) :
    (s.clockIn e).moveFailures = s.moveFailures ∧ (s.clockIn e).dataInReadies = s.dataInReadies := by
  unfold Sys.moveFailures Sys.dataInReadies
  rw [(link_clockIn s e).2.2.2]
  exact ⟨rfl, rfl⟩

theorem counts_begun (s : Sys) (e : Edge) :
    (s.begun e).moveFailures = s.moveFailures ∧ (s.begun e).dataInReadies = s.dataInReadies := by
  obtain ⟨hf, hr⟩ := counts_clockIn s e
  have hlog := counts_append (x := .transfer e.wire) (l := (s.clockIn e).ghost.trace) rfl
    (by unfold moveFailed; simp) (by simp)
  have hout : ∀ q : Sys, q.outDone.moveFailures = q.moveFailures ∧
      q.outDone.dataInReadies = q.dataInReadies := by
    intro q
    unfold Sys.outDone
    split_ifs
    · exact counts_append (x := .event .dataOutSent) (l := q.ghost.trace) rfl (by unfold moveFailed; simp)
        (by simp)
    · exact ⟨rfl, rfl⟩
  unfold Sys.begun
  exact ⟨(hout _).1.trans (hlog.1.trans hf), (hout _).2.trans (hlog.2.trans hr)⟩

theorem counts_finish (p : Sys) (st : SpilsState) (ready : Bool) (h : HalMcuSpi) :
    (p.finish st ready h).moveFailures = p.moveFailures ∧
      (p.finish st ready h).dataInReadies = p.dataInReadies + ready.toNat := by
  have harm := counts_append (x := .armed p.outMess p.rxLen st .ok) (l := p.ghost.trace) rfl
    (by unfold moveFailed; simp) (by simp)
  cases ready with
  | false => exact harm
  | true =>
    have hcount : (p.finish st true h).ghost.trace =
        (p.ghost.trace ++ [.armed p.outMess p.rxLen st .ok]) ++ [.event .dataInReady] := rfl
    have hf : moveFailed ≠ Obs.event .dataInReady := by unfold moveFailed; simp
    unfold Sys.moveFailures Sys.dataInReadies
    rw [hcount]
    refine ⟨?_, ?_⟩
    · rw [List.count_append, harm.1, List.count_singleton, if_neg (by simpa using hf.symm), Nat.add_zero]
    · rw [List.count_append, harm.2]
      rfl

theorem counts_congr (h : t.ghost.trace = s.ghost.trace) :
    t.moveFailures = s.moveFailures ∧ t.dataInReadies = s.dataInReadies := by
  unfold Sys.moveFailures Sys.dataInReadies
  rw [h]
  exact ⟨rfl, rfl⟩

end Counts

/-! ## The outcomes -/

/-- What one interrupt makes of the assertion, of the event and of the message. -/
inductive MoveOutcome (s : Sys) (e : Edge) (f r : ℕ) (p : Sys) : Prop where
  | refused (none : ∀ len, ¬PassesCheck s e len) (asserted : f = 0) (unready : r = 0)
      (still : p.link.pBufferIn = s.link.pBufferIn) (free : p.link.lineInBusy = s.link.lineInBusy)
  | putOff {len : UInt8} (passes : PassesCheck s e len) (asserted : f = 0) (unready : r = 0)
      (full : s.link.mutexIn = true ∨ len.toNat ≠ messHeaderSize)
      (still : p.link.pBufferIn = s.link.pBufferIn) (busy : p.link.lineInBusy = true)
      (content : p.cacheB.content = s.payload e len)
  | failed (bare : OnlyHeader s e) (failed : f = 1)
  | moved {len : UInt8} (passes : PassesCheck s e len) (some : len.toNat ≠ messHeaderSize)
      (asserted : f = 0) (ready : r = 1)
      (swapped : p.link.pBufferIn = s.link.pBufferInCache ∧ p.link.pBufferInCache = s.link.pBufferIn)
      (content : p.inB.content = s.payload e len)

section Outcome

variable {size : ℕ} {s t p : Sys} {e : Edge} {st : SpilsState} {ready : Bool}

/-- The header decides the length. -/
theorem PassesCheck.len_eq {len len' : UInt8} (h : PassesCheck s e len) (h' : PassesCheck s e len') :
    len = len' := by
  have heq := h.data.2.2.2.symm.trans h'.data.2.2.2
  exact (Prod.mk.inj (Option.some.inj heq)).1

theorem PassesCheck.payload_ne_nil {len : UInt8} (h : PassesCheck s e len) :
    s.payload e len ≠ [] ↔ messHeaderSize < len.toNat := by
  have hlen := h.whole
  rw [h.received] at hlen
  unfold Sys.payload
  rw [← List.length_pos_iff, List.length_drop, List.length_take]
  omega

theorem PassesCheck.bare_iff {len : UInt8} (h : PassesCheck s e len) :
    Bare s e ↔ len.toNat ≤ messHeaderSize := by
  constructor
  · rintro ⟨len', hlen', hle⟩
    rw [hlen'.len_eq h] at hle
    exact hle
  · exact fun hle => ⟨len, h, hle⟩

/-- The payload in the cache, cut to the message. -/
theorem Cut.content_shaped {l : Look} (hl : Cut size s e t l) :
    t.shapeIn.cacheB.content = s.payload e t.head.1 := by
  unfold Sys.payload
  rw [take_wire hl.fits]
  exact (congrArg Look.content hl.look).trans hl.content

variable (h : Taken size s e t) (hm : s.cacheB.look.Mod size)
include h

theorem PassesCheck.head_eq {len : UInt8} (hlen : PassesCheck s e len) : t.head = (len, MessType.data) := by
  have hh := (h.arrived.header (h.old.sized _)).1
  rw [hlen.data.2.2.2] at hh
  exact (Option.some.inj hh).symm

/-- Only a DATA message passes. -/
theorem PassesCheck.type_eq {len : UInt8} (hlen : PassesCheck s e len) : t.head.2 = MessType.data :=
  congrArg Prod.snd (hlen.head_eq h)

/-- The other input buffer, as the move finds it. -/
theorem Taken.load_inB (hne : s.link.pBufferIn ≠ s.link.pBufferInCache) :
    t.shapeIn.inB.getLoadsize = s.inB.getLoadsize := by
  have hlook := h.look_shapeIn_inB hne
  rw [inL_inView h.old] at hlook
  exact congrArg (fun l : Look => u8 l.loadsize) hlook

/-- The move exchanges the buffers. -/
theorem Taken.inB_moved (r : UInt8) (hne : s.link.pBufferIn ≠ s.link.pBufferInCache) :
    (t.shapeIn.swapIn.recycleIn.answer r).inB = t.shapeIn.cacheB := by
  have hptr : t.link.pBufferIn ≠ t.link.pBufferInCache := by
    rw [h.link]
    exact hne
  show ((t.shapeIn.swapIn.recycleIn.pool.set t.link.pBufferOutCache _).get t.link.pBufferInCache) = _
  rw [Pool.get_set_of_ne _ _ h.shape.sides.1.symm]
  show ((t.shapeIn.pool.set t.link.pBufferIn _).get t.link.pBufferInCache) = _
  rw [Pool.get_set_of_ne _ _ hptr]
  rfl

/-- An answer leaves it there. -/
theorem Taken.cacheB_kept (r : UInt8) :
    ((t.shapeIn.mapLink fun l => { l with lineInBusy := true }).answer r).cacheB = t.shapeIn.cacheB :=
  Pool.get_set_of_ne _ _ h.shape.sides.1.symm

include hm

/-- What passes is not refused. -/
theorem Taken.not_passesCheck {len : UInt8} (hlen : PassesCheck s e len) :
    ¬(t.link.state ≠ .dataReceiving ∨ t.cacheB.getLoadsize < t.head.1.toNat) := by
  rintro (hstate | hlong)
  · rw [h.link] at hstate
    exact hstate hlen.data.1
  · rw [h.loadsize hm, ← hlen.received, hlen.head_eq h] at hlong
    exact absurd hlen.whole (Nat.not_le_of_lt hlong)

/-- The outcomes for a message in the cache.  Only a DATA message that is whole gets past the check, so the
cases follow `Dispatched`. -/
theorem moveOutcome_dispatched (hne : s.link.pBufferIn ≠ s.link.pBufferInCache)
    (hd : Dispatched t p st ready) : ∃ f, p.moveFailures = t.moveFailures + f ∧
      p.dataInReadies = t.dataInReadies ∧ MoveOutcome s e f ready.toNat p := by
  have hlink : t.link.pBufferIn = s.link.pBufferIn ∧ t.link.lineInBusy = s.link.lineInBusy := by
    rw [h.link]
    exact ⟨rfl, rfl⟩
  have hother : (∀ len, ¬PassesCheck s e len) → p.ghost.trace = t.ghost.trace → ready = false →
      p.link.pBufferIn = t.link.pBufferIn ∧ p.link.lineInBusy = t.link.lineInBusy →
      ∃ f, p.moveFailures = t.moveFailures + f ∧ p.dataInReadies = t.dataInReadies ∧
        MoveOutcome s e f ready.toNat p := by
    intro hnone htrace hready hp
    subst hready
    exact ⟨0, (counts_congr htrace).1, (counts_congr htrace).2,
      .refused hnone rfl rfl (hp.1.trans hlink.1) (hp.2.trans hlink.2)⟩
  have htype : t.head.2 ≠ MessType.data → ∀ len, ¬PassesCheck s e len :=
    fun type _ hlen => type (hlen.type_eq h)
  have hpasses : ∀ {l : Look}, Cut size s e t l → t.head.2 = MessType.data →
      t.link.state = .dataReceiving → PassesCheck s e t.head.1 :=
    fun hl type state => h.passesCheck type state hl.fits
  cases hd with
  | startErr type => exact hother (htype (by rw [type]; decide)) rfl rfl ⟨rfl, rfl⟩
  | startOk type => exact hother (htype (by rw [type]; decide)) rfl rfl ⟨rfl, rfl⟩
  | recvErr type => exact hother (htype (by rw [type]; decide)) rfl rfl ⟨rfl, rfl⟩
  | recvBusy type =>
    have hl : t.dummyIfEmpty.link = t.link := field_dummyIfEmpty Sys.link (fun _ _ _ => rfl) t
    exact hother (htype (by rw [type]; decide)) (trace_dummyIfEmpty t) rfl
      ⟨congrArg Spils.pBufferIn hl, congrArg Spils.lineInBusy hl⟩
  | recvOk type =>
    have hl : (fun s : Sys => (s.link.pBufferIn, s.link.lineInBusy)) t.moveOut.dummyIfEmpty =
        (t.link.pBufferIn, t.link.lineInBusy) :=
      field_moveOut_dummyIfEmpty (fun s : Sys => (s.link.pBufferIn, s.link.lineInBusy)) (fun _ _ _ => rfl)
        (fun _ => ⟨rfl, rfl⟩) t
    exact hother (htype (by rw [type]; decide)) (trace_moveOut_dummyIfEmpty t) rfl (Prod.mk.inj hl)
  | renewed type => exact hother (htype type.2.2) rfl rfl ⟨rfl, rfl⟩
  | dataReady type => exact hother (htype type.2.2) rfl rfl ⟨rfl, rfl⟩
  | ready type => exact hother (htype type.2.2) rfl rfl ⟨rfl, rfl⟩
  | dataErr type bad => exact hother (fun _ hlen => h.not_passesCheck hm hlen bad) rfl rfl ⟨rfl, rfl⟩
  | dataBusy type state whole full =>
    obtain ⟨l, hl⟩ := h.cut hm whole
    refine ⟨0, rfl, rfl, .putOff (hpasses hl type state) rfl rfl ?_ hlink.1 rfl ?_⟩
    · obtain hlocked | ⟨hcache, -⟩ := full
      · rw [h.link] at hlocked
        exact .inl hlocked
      · exact .inr fun h2 => hcache (hl.empty_iff.mpr h2)
    · rw [h.cacheB_kept]
      exact hl.content_shaped
  | dataEmpty type state whole free empty =>
    obtain ⟨l, hl⟩ := h.cut hm whole
    have hfree : s.link.mutexIn = false := by
      rw [h.link] at free
      exact free
    refine ⟨1, ?_, ?_, .failed ⟨_, hpasses hl type state, hfree, hl.empty_iff.mp empty⟩ rfl⟩
    · show (t.ghost.trace ++ [moveFailed]).count moveFailed = _
      rw [List.count_append]
      rfl
    · show (t.ghost.trace ++ [moveFailed]).count (.event .dataInReady) = _
      rw [List.count_append]
      rfl
  | dataOk type state whole free loaded room =>
    obtain ⟨l, hl⟩ := h.cut hm whole
    refine ⟨0, rfl, rfl, .moved (hpasses hl type state) (fun h2 => loaded (hl.empty_iff.mpr h2)) rfl rfl ?_ ?_⟩
    · show t.link.pBufferInCache = _ ∧ t.link.pBufferIn = _
      rw [h.link]
      exact ⟨rfl, rfl⟩
    · rw [h.inB_moved _ hne]
      exact hl.content_shaped

omit h hm

theorem MoveOutcome.congr {f r : ℕ} {p' : Sys} (h : MoveOutcome s e f r p)
    (hl : p'.link.pBufferIn = p.link.pBufferIn ∧ p'.link.pBufferInCache = p.link.pBufferInCache ∧
      p'.link.lineInBusy = p.link.lineInBusy)
    (hp : p'.pool = p.pool) : MoveOutcome s e f r p' := by
  cases h with
  | refused none asserted unready still free =>
    exact .refused none asserted unready (hl.1.trans still) (hl.2.2.trans free)
  | putOff passes asserted unready full still busy content =>
    refine .putOff passes asserted unready full (hl.1.trans still) (hl.2.2.trans busy) ?_
    unfold Sys.cacheB
    rw [hp, hl.2.1]
    exact content
  | failed bare failed => exact .failed bare failed
  | moved passes some asserted ready swapped content =>
    refine .moved passes some asserted ready ⟨hl.1.trans swapped.1, hl.2.1.trans swapped.2⟩ ?_
    unfold Sys.inB
    rw [hp, hl.1]
    exact content

/-- The outcomes of one interrupt. -/
theorem moveOutcome_handled {s' : Sys} (hB : Base size s) (hrx : RxOk size s) (hw : InWf size (inView s))
    (h : Handled e s s') :
    ∃ f r, s'.moveFailures = s.moveFailures + f ∧ s'.dataInReadies = s.dataInReadies + r ∧
      MoveOutcome s e f r s' := by
  cases h with
  | again g silent armed same eq =>
    subst eq
    obtain ⟨hf, hr⟩ := counts_clockIn s e
    have hlink : ((s.clockIn e).mapSpi fun _ => g).link = s.link := (link_clockIn s e).1
    refine ⟨0, 0, hf, hr, .refused (fun len hlen => ?_) rfl rfl (congrArg _ hlink) (congrArg _ hlink)⟩
    have hh := hlen.data.2.2.2
    rw [silent] at hh
    cases hh
  | done q st ready g valid resend processed armed eq =>
    subst eq
    obtain ⟨hf, hr⟩ := counts_finish q st ready g
    obtain ⟨hbf, hbr⟩ := counts_begun s e
    have hfin : (q.finish st ready g).link.pBufferIn = q.link.pBufferIn ∧
        (q.finish st ready g).link.pBufferInCache = q.link.pBufferInCache ∧
          (q.finish st ready g).link.lineInBusy = q.link.lineInBusy := by
      rw [link_finish]
      exact ⟨rfl, rfl, rfl⟩
    have hnone : (∀ len, ¬PassesCheck s e len) → q.ghost.trace = (s.begun e).ghost.trace → ready = false →
        q.link = (s.begun e).link → ∃ f r, (q.finish st ready g).moveFailures = s.moveFailures + f ∧
          (q.finish st ready g).dataInReadies = s.dataInReadies + r ∧
          MoveOutcome s e f r (q.finish st ready g) := by
      intro hpass htrace hready hlink
      subst hready
      rw [link_begun] at hlink
      obtain ⟨htf, htr⟩ := counts_congr htrace
      refine ⟨0, 0, hf.trans (htf.trans hbf), hr.trans (htr.trans hbr), .refused hpass rfl rfl ?_ ?_⟩
      · rw [hfin.1, hlink]
      · rw [hfin.2.2, hlink]
    cases processed with
    | refused busy =>
      refine hnone (fun len hlen => ?_) rfl rfl rfl
      rw [link_begun] at busy
      have hbusy : (s.link.lineInBusy || s.link.lineInIsSaturated) = true := busy
      rw [hlen.data.2.1, hlen.data.2.2.1] at hbusy
      cases hbusy
    | short free len => exact hnone (fun _ hlen => absurd hlen.header (Nat.not_le_of_lt len)) rfl rfl rfl
    | taken free len dispatched =>
      have ht := taken hB hrx free len
      have hm := hw.cacheMod
      rw [cacheL_inView hB.shape] at hm
      obtain ⟨f, hdf, hdr, ho⟩ := moveOutcome_dispatched ht hm (hw.free ht.free.1).1 dispatched
      have htf : ((s.begun e).takeIn (s.reported e)).moveFailures = (s.begun e).moveFailures := rfl
      have htr : ((s.begun e).takeIn (s.reported e)).dataInReadies = (s.begun e).dataInReadies := rfl
      refine ⟨f, ready.toNat, ?_, ?_, ho.congr hfin (pool_finish _ _ _ _)⟩
      · rw [hf, hdf, htf, hbf]
      · rw [hr, hdr, htr, hbr]

/-- What the outcomes say of the assertion. -/
theorem MoveOutcome.asserted_iff {f r : ℕ} (h : MoveOutcome s e f r p) : f = 0 ↔ ¬OnlyHeader s e := by
  cases h with
  | refused none asserted =>
    refine ⟨fun _ => ?_, fun _ => asserted⟩
    rintro ⟨len, hlen, -⟩
    exact none len hlen
  | putOff passes asserted unready full =>
    refine ⟨fun _ => ?_, fun _ => asserted⟩
    rintro ⟨len', hlen', hfree, heq⟩
    rw [hlen'.len_eq passes] at heq
    obtain hlocked | hne := full
    · exact Bool.noConfusion (hlocked.symm.trans hfree)
    · exact hne heq
  | failed bare failed => exact ⟨fun h0 => by omega, fun h0 => absurd bare h0⟩
  | moved passes some asserted =>
    refine ⟨fun _ => ?_, fun _ => asserted⟩
    rintro ⟨len', hlen', -, heq⟩
    rw [hlen'.len_eq passes] at heq
    exact some heq

/-- And of all three. -/
theorem MoveOutcome.honest_iff {f r : ℕ} {s' : Sys} (h : MoveOutcome s e f r s')
    (hf : s'.moveFailures = s.moveFailures + f) (hr : s'.dataInReadies = s.dataInReadies + r) :
    MoveHonest s e s' ↔ ¬Bare s e := by
  have hmust : ∀ {len}, PassesCheck s e len → MoveHonest s e s' → ¬Bare s e := by
    intro len passes hh
    obtain ⟨-, ⟨len', hlen', hcontent⟩, hsome⟩ | ⟨-, ⟨len', hlen', hcontent⟩, hsome⟩ := hh.loaded ⟨len, passes⟩
    all_goals
      rw [hcontent, hlen'.payload_ne_nil] at hsome
      rw [hlen'.bare_iff]
      exact Nat.not_le_of_lt hsome
  cases h with
  | refused none asserted unready =>
    refine ⟨fun _ => ?_, fun _ => ⟨by omega, fun ⟨len, hlen⟩ => absurd hlen (none len), fun hlt => by omega⟩⟩
    rintro ⟨len, hlen, -⟩
    exact none len hlen
  | putOff passes asserted unready full still busy content =>
    refine ⟨hmust passes, fun hbare => ⟨by omega, fun _ => .inl ⟨busy, ⟨_, passes, content⟩, ?_⟩,
      fun hlt => by omega⟩⟩
    rw [passes.bare_iff] at hbare
    rw [content]
    exact passes.payload_ne_nil.mpr (Nat.lt_of_not_le hbare)
  | failed bare failed =>
    obtain ⟨len, passes, -, heq⟩ := bare
    refine ⟨fun hh => ?_, fun hc => absurd (passes.bare_iff.mpr (Nat.le_of_eq heq)) hc⟩
    have := hh.asserted
    omega
  | moved passes some asserted ready swapped content =>
    refine ⟨hmust passes, fun hbare => ?_⟩
    rw [passes.bare_iff] at hbare
    have hnew : NewPayload s e s' := by
      refine ⟨swapped, ⟨_, passes, content⟩, ?_⟩
      rw [content]
      exact passes.payload_ne_nil.mpr (Nat.lt_of_not_le hbare)
    exact ⟨by omega, fun _ => .inr hnew, fun _ => hnew⟩

end Outcome

end NeuronWired
