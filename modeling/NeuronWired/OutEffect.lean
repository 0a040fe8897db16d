import NeuronWired.Base

/-!
# OutEffect — what the interrupt does to the outbound half of the link

`OutView` is the outbound half as the main loop sees it.  `outEff_handled` says that one run of the
interrupt leaves the view alone, puts a result message into the output cache, puts the empty dummy
there when nothing is waiting, or swaps the waiting message into the cache and arms it.
-/

namespace NeuronWired

open Interrupt

/-! ## The view -/

/-- The outbound half of the link, and `spils_data_out_sending` of the object above. -/
@[ext] structure OutView where
  pOut : BufId
  pCache : BufId
  outB : Buffer
  cacheL : Look
  avail : Bool
  locked : Bool
  swap : Bool
  filling : Option BufId
  state : SpilsState
  /-- the length of the message armed -/
  outLen : ℕ
  sending : Bool
  log : OutLog

/-- The outbound view of a state. -/
def outView (s : Sys) : OutView :=
  { pOut := s.link.pBufferOut
    pCache := s.link.pBufferOutCache
    outB := s.outB
    cacheL := s.outCacheB.look
    avail := s.link.dataOutAvailable
    locked := s.link.mutexOut
    swap := s.ghost.swapOut
    filling := s.ghost.filling
    state := s.link.state
    outLen := s.spi.dataOutLen
    sending := s.slave.spilsDataOutSending
    log := outLog s.ghost.trace }

/-- A transfer is over; the flag is cleared if the link was sending. -/
def OutView.completed (v : OutView) : OutView :=
  { v with sending := v.sending && decide (v.state ≠ .dataSending) }

/-- The effect of one interrupt on the outbound view; it has an effect only under `dn`. -/
inductive OutEff (size : ℕ) (dn : Prop) (v : OutView) : OutView → Prop where
  | same : OutEff size dn v v
  | answered (l : Look) (st : SpilsState) (hl : l.Good size)
      (hst : st = .listening ∨ st = .dataReceiving) (hd : dn) :
      OutEff size dn v { v.completed with cacheL := l, state := st, outLen := 2 }
  | dummied (l : Look) (out : Bytes) (n : ℕ) (hl : l.Good size) (hout : out.length ≤ 2)
      (hfree : v.locked = false) (he : ¬v.outB.look.Loaded) (hd : dn) :
      OutEff size dn v
        { v.completed with
          cacheL := l, avail := false, state := .dataSending, outLen := 2
          log := v.log.step (.armed out n .dataSendStart .ok) }
  | sent (b : Buffer) (n : ℕ) (hfree : v.locked = false) (hl : v.outB.look.Loaded)
      (hb : b.look = .empty size) (hd : dn) :
      OutEff size dn v
        { v.completed with
          pOut := v.pCache, pCache := v.pOut, outB := b, cacheL := v.outB.look
          avail := false, swap := false, state := .dataSending, outLen := v.outB.getLoadsize
          log := v.log.step (.armed v.outB.content n .dataSendStart .ok) }

theorem OutEff.imp {size : ℕ} {dn dn' : Prop} {v v' : OutView} (h : OutEff size dn v v')
    (hd : dn → dn') : OutEff size dn' v v' := by
  cases h with
  | same => exact .same
  | answered l st hl hst h => exact .answered l st hl hst (hd h)
  | dummied l out n hl hout hfree he h => exact .dummied l out n hl hout hfree he (hd h)
  | sent b n hfree hl hb h => exact .sent b n hfree hl hb (hd h)

/-- What the interrupt needs to find. -/
structure OutWf (size : ℕ) (v : OutView) : Prop where
  ne : v.pOut ≠ v.pCache
  good : v.locked = false → v.outB.look.Good size

/-! ## The pieces of a handler run, as the view sees them -/

section Pieces

variable {size : ℕ} {s : Sys} {b : Buffer}

theorem outView_setBuf_in (h : Shape size s) {i : BufId} (hi : i.isIn = true) (b : Buffer) :
    outView (s.setBuf i b) = outView s := by
  have h1 : (s.setBuf i b).outB = s.outB := Pool.get_set_of_ne _ _ (BufId.ne_of_isIn hi h.outBuf)
  have h2 : (s.setBuf i b).outCacheB = s.outCacheB :=
    Pool.get_set_of_ne _ _ (BufId.ne_of_isIn hi h.outCache)
  unfold outView
  rw [h1, h2]
  rfl

theorem outView_setBuf_cache (hne : s.link.pBufferOut ≠ s.link.pBufferOutCache) (b : Buffer) :
    outView (s.setBuf s.link.pBufferOutCache b) = { outView s with cacheL := b.look } := by
  have h1 : (s.setBuf s.link.pBufferOutCache b).outB = s.outB := Pool.get_set_of_ne _ _ hne.symm
  have h2 : (s.setBuf s.link.pBufferOutCache b).outCacheB = b := Pool.get_set_self _ _ _
  unfold outView
  rw [h1, h2]
  rfl

theorem outView_setBuf_out (hne : s.link.pBufferOut ≠ s.link.pBufferOutCache) (b : Buffer) :
    outView (s.setBuf s.link.pBufferOut b) = { outView s with outB := b } := by
  have h1 : (s.setBuf s.link.pBufferOut b).outB = b := Pool.get_set_self _ _ _
  have h2 : (s.setBuf s.link.pBufferOut b).outCacheB = s.outCacheB := Pool.get_set_of_ne _ _ hne
  unfold outView
  rw [h1, h2]
  rfl

theorem outView_log {x : Obs} (hx : x.NotOut) : outView (s.log x) = outView s := by
  unfold outView
  rw [Sys.trace_log, outLog_append, OutLog.step_notOut _ hx]
  rfl

theorem outView_recycleIn (h : Shape size s) : outView s.recycleIn = outView s :=
  outView_setBuf_in h h.inCache _

theorem outView_takeIn (h : Shape size s) (n : ℕ) : outView (s.takeIn n) = outView s :=
  outView_setBuf_in h h.inCache _

theorem outView_shapeIn (h : Shape size s) : outView s.shapeIn = outView s :=
  outView_setBuf_in h h.inCache _

/-- A message header alone in a buffer. -/
theorem good_header (hs : b.Sized size) (h2 : 2 ≤ size) (hsize : size ≤ 255) (len type : UInt8) :
    (b.header len type).look.Good size := by
  have hempty := Buffer.look_recycle hs
  have hgood : b.recycle.look.Good size := by
    rw [hempty]
    exact Look.good_empty hsize
  exact Buffer.good_append hs.recycle hgood (show 0 + 2 ≤ size by omega)

/-- A message handed to the driver is what is in the output cache. -/
theorem outMess_eq (h : s.outCacheB.look.Good size) : s.outMess = s.outCacheB.look.content := by
  have hn : s.outCacheB.getLoadsize = s.outCacheB.writePos - s.outCacheB.readPos := h.mod.load_exact h.le
  unfold Sys.outMess
  rw [hn]
  rfl

theorem length_outMess_header (h : Shape size s) {c : Buffer} {len type : UInt8}
    (hc : s.outCacheB = c.header len type) : s.outMess.length = 2 := by
  have hlen : (c.header len type).data.length = size := by
    rw [← hc]
    exact (h.sized _).data_len
  have h2 := h.size_eq
  unfold Sys.outMess
  rw [hc, Buffer.getLoadsize_header, Buffer.readPos_header, List.drop_zero, List.length_take, hlen]
  omega

/-- The end of a handler run. -/
theorem outView_finish {p : Sys} {h : HalMcuSpi} (ha : ArmedFor p h) (st : SpilsState) (ready : Bool) :
    outView (p.finish st ready h) =
      { outView p with
        state := st.settled
        outLen := p.outCacheB.getLoadsize
        log := (outView p).log.step (.armed p.outMess p.rxLen st .ok) } := by
  have hrearm : outView (p.rearm st h) =
      { outView p with
        state := st.settled
        outLen := p.outCacheB.getLoadsize
        log := (outView p).log.step (.armed p.outMess p.rxLen st .ok) } := by
    rw [← ha.dataOutLen]
    unfold outView
    rw [← outLog_append]
    rfl
  unfold Sys.finish
  split_ifs
  · unfold Sys.raise
    rw [outView_log (x := .event .dataInReady) trivial, ← hrearm]
    rfl
  · exact hrearm

end Pieces

/-! ## The transfer itself -/

section Transfer

variable {size : ℕ} {s : Sys} {e : Edge}

/-- The receive channel writes to no output buffer. -/
theorem get_clockIn_out (hB : Base size s) (e : Edge) {i : BufId} (hi : i.isIn = false) :
    (s.clockIn e).pool.get i = s.pool.get i := by
  by_cases h0 : s.spi.dataInLen = 0
  · have hw := (hB.armed.dummyRx h0).2
    unfold Sys.clockIn Sys.dmaStore
    rw [hw]
    rfl
  · obtain ⟨-, hw, -⟩ := hB.armed.bufferRx h0
    obtain ⟨p, hp⟩ := Option.ne_none_iff_exists'.mp (hB.armed.pointer h0)
    have hne := BufId.ne_of_isIn (hB.rxSide p hp) hi
    rw [hp] at hw
    unfold Sys.clockIn Sys.dmaStore
    rw [hw]
    exact Pool.get_set_of_ne _ _ hne

/-- The end of the output half of a transfer. -/
theorem outView_outDone (h : Shape size s) (hne : s.link.pBufferOut ≠ s.link.pBufferOutCache) :
    outView s.outDone = { (outView s).completed with cacheL := .empty size } := by
  have hlook : s.outCacheB.recycle.look = .empty size := Buffer.look_recycle (h.sized _)
  have hrec : outView (s.setBuf s.link.pBufferOutCache s.outCacheB.recycle) =
      { outView s with cacheL := .empty size } := by
    rw [outView_setBuf_cache hne, hlook]
  unfold Sys.outDone OutView.completed
  by_cases hs : s.link.state = .dataSending
  · have hf : decide ((outView s).state ≠ .dataSending) = false := decide_eq_false (not_not.mpr hs)
    rw [if_pos hs, hf, Bool.and_false]
    unfold Sys.raise
    rw [outView_log (x := .event .dataOutSent) trivial]
    exact congrArg (fun v : OutView => { v with sending := false }) hrec
  · have hf : decide ((outView s).state ≠ .dataSending) = true := decide_eq_true hs
    rw [if_neg hs, hf, Bool.and_true]
    exact hrec

theorem outView_begun (hB : Base size s) (hne : s.link.pBufferOut ≠ s.link.pBufferOutCache) :
    outView (s.begun e) = { (outView s).completed with cacheL := .empty size } := by
  obtain ⟨hlink, hslave, -, hghost⟩ := link_clockIn s e
  obtain ⟨-, -, -, -, -, -, -, -, hlen, -⟩ := spi_clockIn s e
  -- the state in front of the output half
  set t : Sys := (((s.clockIn e).mapSpi HalMcuSpi.idled).log (.transfer e.wire)).mapLink
    (fun l => { l with connectionDetected := true }) with ht
  have htl : t.link = { s.link with connectionDetected := true } :=
    congrArg (fun l : Spils => { l with connectionDetected := true }) hlink
  have hlogged : Shape size (((s.clockIn e).mapSpi HalMcuSpi.idled).log (.transfer e.wire)) :=
    (hB.shape.clockIn e).congr rfl rfl
  have hts : Shape size t := hlogged.mapLink _ rfl
  have hob : t.outB = s.outB := by
    show (s.clockIn e).pool.get (s.clockIn e).link.pBufferOut = _
    rw [hlink]
    exact get_clockIn_out hB e hB.shape.outBuf
  have hcb : t.outCacheB = s.outCacheB := by
    show (s.clockIn e).pool.get (s.clockIn e).link.pBufferOutCache = _
    rw [hlink]
    exact get_clockIn_out hB e hB.shape.outCache
  have hg : t.ghost = { s.ghost with trace := s.ghost.trace ++ [.transfer e.wire], wire := e.wire } := by
    show { (s.clockIn e).ghost with trace := (s.clockIn e).ghost.trace ++ [Obs.transfer e.wire] } = _
    rw [hghost]
  have hsl : t.slave = s.slave := hslave
  have hdl : t.spi.dataOutLen = s.spi.dataOutLen := hlen
  have htv : outView t = outView s := by
    unfold outView
    rw [htl, hob, hcb, hg, hsl, hdl, outLog_append]
    rfl
  rw [← htv]
  exact outView_outDone hts (by rw [htl]; exact hne)

end Transfer

/-! ## The effect of the interrupt -/

section Effect

variable {size : ℕ} {dn : Prop} {s s' t p q : Sys} {e : Edge} {st : SpilsState} {ready : Bool}

/-- The outbound half after the output half of the transfer, but for what is in the cache. -/
def AfterOut (s q : Sys) : Prop := ∃ l, outView q = { (outView s).completed with cacheL := l }

theorem AfterOut.ne (h : AfterOut s q) (hw : OutWf size (outView s)) :
    q.link.pBufferOut ≠ q.link.pBufferOutCache := by
  obtain ⟨l, hl⟩ := h
  have h1 : q.link.pBufferOut = s.link.pBufferOut := congrArg OutView.pOut hl
  have h2 : q.link.pBufferOutCache = s.link.pBufferOutCache := congrArg OutView.pCache hl
  rw [h1, h2]
  exact hw.ne

theorem AfterOut.congr (h : AfterOut s q) (hv : outView p = outView q) : AfterOut s p := by
  obtain ⟨l, hl⟩ := h
  exact ⟨l, hv.trans hl⟩

theorem AfterOut.setCache (h : AfterOut s q) (hw : OutWf size (outView s)) (b : Buffer) :
    AfterOut s (q.setBuf q.link.pBufferOutCache b) := by
  obtain ⟨l, hl⟩ := id h
  exact ⟨b.look, by rw [outView_setBuf_cache (h.ne hw), hl]⟩

theorem AfterOut.dummyIfEmpty (h : AfterOut s q) (hw : OutWf size (outView s)) :
    AfterOut s q.dummyIfEmpty := by
  unfold Sys.dummyIfEmpty
  split_ifs
  · exact h.setCache hw _
  · exact h

theorem AfterOut.recycleIn (h : AfterOut s q) (hq : Shape size q) : AfterOut s q.recycleIn :=
  h.congr (outView_recycleIn hq)

theorem AfterOut.shapeIn (h : AfterOut s q) (hq : Shape size q) : AfterOut s q.shapeIn :=
  h.congr (outView_shapeIn hq)

theorem Shape.two_le (h : Shape size s) : 2 ≤ size := by
  have := h.size_eq
  omega

/-- A result message takes the place of what was in the cache. -/
theorem outEff_answered (h : AfterOut s q) (hw : OutWf size (outView s)) (hq : Shape size q) (r : UInt8)
    (hst : st = .listeningStart ∨ st = .dataReceiveStart) (ready : Bool) {k : HalMcuSpi}
    (ha : ArmedFor (q.answer r) k) (hd : dn) :
    OutEff size dn (outView s) (outView ((q.answer r).finish st ready k)) := by
  have hgood := good_header (hq.sized q.link.pBufferOutCache) hq.two_le hq.size_le
    (UInt8.ofNat messHeaderSize) r
  have hview := outView_setBuf_cache (h.ne hw) (q.outCacheB.header (UInt8.ofNat messHeaderSize) r)
  obtain ⟨l, hl⟩ := h
  have hstep : ∀ (o : OutLog) (x : ℕ), o.step (.armed (q.answer r).outMess x st .ok) = o := by
    intro o x
    refine o.step_notOut ?_
    rcases hst with rfl | rfl <;> trivial
  rw [outView_finish ha, hstep, Sys.outCacheB_answer, Buffer.getLoadsize_header]
  unfold Sys.answer
  rw [hview, hl]
  refine .answered _ st.settled hgood ?_ hd
  rcases hst with rfl | rfl
  · exact .inl rfl
  · exact .inr rfl

theorem outCacheB_dummyIfEmpty (h : ¬q.outCacheB.getLoadsize = 0) : q.dummyIfEmpty = q := if_neg h

/-- Nothing is waiting: the empty dummy is armed. -/
theorem outEff_dummied (h : AfterOut s q) (hw : OutWf size (outView s)) (hq : Shape size q)
    (hfree : s.link.mutexOut = false) (he : ¬s.outB.look.Loaded) (hc : q.outCacheB.getLoadsize = 0)
    {k : HalMcuSpi}
    (ha : ArmedFor ((q.mapLink fun l => { l with dataOutAvailable := false }).dummyIfEmpty.recycleIn) k)
    (hd : dn) :
    OutEff size dn (outView s) (outView
      (((q.mapLink fun l => { l with dataOutAvailable := false }).dummyIfEmpty.recycleIn).finish
        .dataSendStart false k)) := by
  have hne := h.ne hw
  obtain ⟨l, hl⟩ := h
  set u := q.mapLink fun l => { l with dataOutAvailable := false } with hu
  have hus : Shape size u := hq.mapLink _ rfl
  have huv : outView u = { (outView s).completed with cacheL := l, avail := false } :=
    congrArg (fun v : OutView => { v with avail := false }) hl
  have hdum : u.dummyIfEmpty = u.dummy := if_pos hc
  rw [hdum] at ha ⊢
  have hds : Shape size u.dummy := hus.header _ _ _
  have hcache : u.dummy.recycleIn.outCacheB =
      u.outCacheB.header (UInt8.ofNat (messHeaderSize + 0)) MessType.data := by
    rw [outCacheB_recycleIn hds.sides.1, Sys.outCacheB_dummy]
  have hlen := length_outMess_header hds.recycleIn hcache
  have hgood := good_header (hus.sized u.link.pBufferOutCache) hus.two_le hus.size_le
    (UInt8.ofNat (messHeaderSize + 0)) MessType.data
  have hview := outView_setBuf_cache (s := u) hne
    (u.outCacheB.header (UInt8.ofNat (messHeaderSize + 0)) MessType.data)
  rw [outView_finish ha, outView_recycleIn hds, hcache, Buffer.getLoadsize_header]
  unfold Sys.dummy at hlen ⊢
  rw [hview, huv]
  exact .dummied _ _ _ hgood (Nat.le_of_eq hlen) hfree he hd

/-- The waiting message is swapped into the cache and armed. -/
theorem outEff_sent (h : AfterOut s q) (hw : OutWf size (outView s)) (hq : Shape size q)
    (hfree : s.link.mutexOut = false) (hl : s.outB.look.Loaded) (hc : (outView q).cacheL = .empty size)
    {k : HalMcuSpi}
    (ha : ArmedFor (((q.swapOut).mapLink fun l => { l with dataOutAvailable := false }).recycleIn) k)
    (hd : dn) :
    OutEff size dn (outView s) (outView
      ((((q.swapOut).mapLink fun l => { l with dataOutAvailable := false }).recycleIn).finish
        .dataSendStart false k)) := by
  obtain ⟨l, hv⟩ := h
  have hgood : s.outB.look.Good size := hw.good hfree
  set u := (q.swapOut).mapLink fun l => { l with dataOutAvailable := false } with hu
  have hus : Shape size u :=
    ⟨hq.size_eq, hq.size_le, hq.sized, hq.inBuf, hq.inCache, hq.outCache, hq.outBuf⟩
  have hout : q.outB = s.outB := congrArg OutView.outB hv
  have hcache : u.recycleIn.outCacheB = s.outB := by
    rw [outCacheB_recycleIn hus.sides.1]
    exact hout
  have huv : outView u = { (outView s).completed with
      pOut := s.link.pBufferOutCache, pCache := s.link.pBufferOut
      outB := q.outCacheB, cacheL := s.outB.look, avail := false, swap := false } := by
    have h1 : outView u = { outView q with
        pOut := (outView q).pCache, pCache := (outView q).pOut
        outB := q.outCacheB, cacheL := (outView q).outB.look, avail := false, swap := false } := rfl
    rw [h1, hv]
    rfl
  have hmess : u.recycleIn.outMess = s.outB.content := by
    rw [outMess_eq (by rw [hcache]; exact hgood), hcache]
    rfl
  rw [outView_finish ha, outView_recycleIn hus, hmess, hcache, huv]
  exact .sent _ _ hfree hl hc hd

/-- The move to a free outbound side: the message that waits, or a dummy where none does. -/
theorem outEff_moveOut (h : AfterOut s t) (hw : OutWf size (outView s)) (ht : Shape size t)
    (hc : (outView t).cacheL = .empty size) (free : t.link.mutexOut = false) {k : HalMcuSpi}
    (ha : ArmedFor t.moveOut.dummyIfEmpty.recycleIn k) (hdn : dn) :
    OutEff size dn (outView s) (outView (t.moveOut.dummyIfEmpty.recycleIn.finish .dataSendStart false k)) := by
  have hlook : t.outCacheB.look = .empty size := hc
  have hload : t.outCacheB.getLoadsize = 0 := by
    have hm : t.outCacheB.look.Mod size := by
      rw [hlook]
      exact Look.mod_empty ht.size_le
    rw [Buffer.getLoadsize_eq_zero hm, hlook]
    exact Look.not_loaded_empty size
  have hlocked : t.link.mutexOut = s.link.mutexOut := by
    obtain ⟨l, hl⟩ := h
    exact congrArg OutView.locked hl
  have hout : t.outB = s.outB := by
    obtain ⟨l, hl⟩ := h
    exact congrArg OutView.outB hl
  have hfree := hlocked.symm.trans free
  have hgood : s.outB.look.Good size := hw.good hfree
  have hm : t.outB.look.Mod size := by
    rw [hout]
    exact hgood.mod
  by_cases hl : s.outB.look.Loaded
  · have hne0 : t.outB.getLoadsize ≠ 0 := by
      rw [Buffer.getLoadsize_ne_zero hm, hout]
      exact hl
    have hmove : t.moveOut.dummyIfEmpty =
        t.swapOut.mapLink fun l => { l with dataOutAvailable := false } := by
      unfold Sys.moveOut
      rw [if_pos ⟨hne0, hload⟩]
      exact outCacheB_dummyIfEmpty hne0
    rw [hmove] at ha ⊢
    exact outEff_sent h hw ht hfree hl hc ha hdn
  · have he0 : t.outB.getLoadsize = 0 := by
      rw [Buffer.getLoadsize_eq_zero hm, hout]
      exact hl
    have hmove : t.moveOut = t.mapLink fun l => { l with dataOutAvailable := false } := by
      unfold Sys.moveOut
      rw [if_neg fun hf => hf.1 he0]
    rw [hmove] at ha ⊢
    exact outEff_dummied h hw ht hfree hl hload ha hdn

theorem outEff_dispatched (h : AfterOut s t) (hw : OutWf size (outView s)) (ht : Shape size t)
    (hc : (outView t).cacheL = .empty size) (hd : Dispatched t p st ready) {k : HalMcuSpi}
    (ha : ArmedFor p k) (hdn : dn) :
    OutEff size dn (outView s) (outView (p.finish st ready k)) := by
  have hr := h.recycleIn ht
  have hsh := h.shapeIn ht
  cases hd with
  | startErr => exact outEff_answered hr hw ht.recycleIn _ (.inl rfl) _ ha hdn
  | startOk => exact outEff_answered hr hw ht.recycleIn _ (.inr rfl) _ ha hdn
  | recvErr => exact outEff_answered hr hw ht.recycleIn _ (.inl rfl) _ ha hdn
  | recvBusy =>
    have hdum := (h.dummyIfEmpty hw).recycleIn ht.dummyIfEmpty
    exact outEff_answered hdum hw ht.dummyIfEmpty.recycleIn _ (.inl rfl) _ ha hdn
  | recvOk _ _ free => exact outEff_moveOut h hw ht hc free ha hdn
  | dataErr => exact outEff_answered hr hw ht.recycleIn _ (.inl rfl) _ ha hdn
  | dataBusy =>
    have hbusy : Shape size (t.shapeIn.mapLink fun l => { l with lineInBusy := true }) :=
      ht.shapeIn.mapLink _ rfl
    exact outEff_answered (q := t.shapeIn.mapLink fun l => { l with lineInBusy := true })
      (hsh.congr rfl) hw hbusy _ (.inl rfl) _ ha hdn
  | dataEmpty =>
    have hlog := hsh.congr (outView_log (s := t.shapeIn)
      (x := .assertFailed "Unexpected SPI Link _buffer_in_cache_data_move result") trivial)
    exact outEff_answered (hlog.recycleIn (ht.shapeIn.log _)) hw (ht.shapeIn.log _).recycleIn _
      (.inl rfl) _ ha hdn
  | dataOk =>
    have hswap : AfterOut s t.shapeIn.swapIn := hsh.congr rfl
    exact outEff_answered (hswap.recycleIn ht.shapeIn.swapIn) hw ht.shapeIn.swapIn.recycleIn _
      (.inl rfl) _ ha hdn
  | renewed => exact outEff_answered hr hw ht.recycleIn _ (.inr rfl) _ ha hdn
  | dataReady => exact outEff_answered hr hw ht.recycleIn _ (.inl rfl) _ ha hdn
  | ready => exact outEff_answered hr hw ht.recycleIn _ (.inl rfl) _ ha hdn

/-- **The effect of one run of the interrupt** on the outbound half of the link. -/
theorem outEff_handled (hB : Base size s) (hw : OutWf size (outView s)) (h : Handled e s s') :
    OutEff size (s.received e ≠ []) (outView s) (outView s') := by
  cases h with
  | again k silent armed same eq =>
    subst eq
    obtain ⟨hlink, hslave, -, hghost⟩ := link_clockIn s e
    obtain ⟨-, -, hlen, -⟩ := same
    have hout := get_clockIn_out hB e hB.shape.outBuf
    have hcache := get_clockIn_out hB e hB.shape.outCache
    have hview : outView ((s.clockIn e).mapSpi fun _ => k) = outView s := by
      show ({ outView (s.clockIn e) with outLen := k.dataOutLen } : OutView) = _
      unfold outView Sys.outB Sys.outCacheB
      rw [hlink, hslave, hghost, hout, hcache, hlen]
    rw [hview]
    exact .same
  | done p st ready k valid resend processed armed eq =>
    subst eq
    have hbegun := outView_begun (e := e) hB hw.ne
    have hafter : AfterOut s (s.begun e) := ⟨_, hbegun⟩
    have hsb := hB.shape.begun e
    cases processed with
    | refused => exact outEff_answered hafter hw hsb _ (.inl rfl) _ armed valid
    | short => exact outEff_answered hafter hw hsb _ (.inl rfl) _ armed valid
    | taken free len dispatched =>
      have htake := outView_takeIn hsb (s.reported e)
      exact outEff_dispatched (hafter.congr htake) hw (hsb.takeIn _)
        (by rw [htake, hbegun]) dispatched armed valid

end Effect

end NeuronWired
