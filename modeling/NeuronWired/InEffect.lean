import NeuronWired.Base

/-!
# InEffect — what the interrupt does to the inbound half of the link

`InView` is the inbound half as the main loop sees it: pointers, flags, what is in the two buffers,
and the ledger of acknowledged and returned payloads.  `inEff_handled` says that one run of the
interrupt either leaves the view alone, recycles the cache, keeps a message in the cache because the
way is not free, or swaps a message into `p_buffer_in`.
-/

namespace NeuronWired

open Interrupt

/-! ## The view -/

/-- The inbound half of the link. -/
@[ext] structure InView where
  pIn : BufId
  pCache : BufId
  look : BufId → Look
  avail : Bool
  busy : Bool
  locked : Bool
  swap : Bool
  reading : Option BufId
  /-- `spils_data_in_received` of the object above, and the value it is about to be given -/
  flag : Bool
  availRead : Option Bool
  acked : List Bytes
  returned : List Bytes
  /-- every copy so far was inside its bounds -/
  safe : Bool

/-- `Obs.Safe`, decided. -/
def Obs.safe (max : ℕ) : Obs → Bool
  | .bufferGet fromPosition len size => decide (fromPosition + len ≤ size)
  | .readRet _ dataSize data => decide (dataSize.getD 0 ≤ max) && decide (data.length ≤ max)
  | _ => true

theorem Obs.safe_iff {max : ℕ} {x : Obs} : x.safe max = true ↔ x.Safe max := by
  cases x with
  | readRet r n d => cases n <;> simp [Obs.safe, Obs.Safe]
  | _ => simp [Obs.safe, Obs.Safe]

/-- What is in an input buffer; the output buffers are out of view. -/
def Sys.inLook (s : Sys) (i : BufId) : Look :=
  if i.isIn = true then (s.pool.get i).look else .empty 0

/-- The inbound view of a state. -/
def inView (s : Sys) : InView :=
  { pIn := s.link.pBufferIn
    pCache := s.link.pBufferInCache
    look := s.inLook
    avail := s.link.dataInAvailable
    busy := s.link.lineInBusy
    locked := s.link.mutexIn
    swap := s.ghost.swapIn
    reading := s.ghost.reading
    flag := s.slave.spilsDataInReceived
    availRead := s.ghost.availRead
    acked := acked s.ghost.trace
    returned := returned s.ghost.trace
    safe := s.ghost.trace.all (Obs.safe s.link.messageSizeMax) }

namespace InView

/-- What is in the input cache. -/
def cacheL (v : InView) : Look := v.look v.pCache

/-- What is in `p_buffer_in`. -/
def inL (v : InView) : Look := v.look v.pIn

/-- The view after an assignment to a buffer. -/
def put (v : InView) (i : BufId) (l : Look) : InView := { v with look := Function.update v.look i l }

theorem put_put (v : InView) (i : BufId) (l l' : Look) : (v.put i l).put i l' = v.put i l' := by
  unfold put; rw [Function.update_idem]

@[simp] theorem look_put (v : InView) (i : BufId) (l : Look) : (v.put i l).look i = l :=
  Function.update_self _ _ _

theorem look_put_of_ne (v : InView) {i j : BufId} (l : Look) (h : j ≠ i) :
    (v.put i l).look j = v.look j := Function.update_of_ne h _ _

@[simp] theorem cacheL_put (v : InView) (l : Look) : (v.put v.pCache l).cacheL = l := v.look_put _ l

end InView

section InLook

variable {s : Sys}

theorem inLook_of_isIn {i : BufId} (h : i.isIn = true) : s.inLook i = (s.pool.get i).look := if_pos h

theorem inLook_setBuf {i : BufId} (h : i.isIn = true) (b : Buffer) :
    (s.setBuf i b).inLook = Function.update s.inLook i b.look := by
  funext j
  by_cases hj : j = i
  · subst hj
    rw [Function.update_self, inLook_of_isIn h, Sys.pool_setBuf, Pool.get_set_self]
  · rw [Function.update_of_ne hj]
    unfold Sys.inLook
    rw [Sys.pool_setBuf, Pool.get_set_of_ne _ _ (Ne.symm hj)]

theorem inLook_setBuf_out {i : BufId} (h : i.isIn = false) (b : Buffer) :
    (s.setBuf i b).inLook = s.inLook := by
  funext j
  unfold Sys.inLook
  by_cases hj : j.isIn = true
  · rw [if_pos hj, if_pos hj, Sys.pool_setBuf,
      Pool.get_set_of_ne _ _ (BufId.ne_of_isIn hj h).symm]
  · rw [if_neg hj, if_neg hj]

end InLook

/-! ## The effect -/

/-- The bytes received make a DATA message of length `len`, and the link is in a state to take it. -/
def TakesData (s : Sys) (e : Edge) (len : UInt8) : Prop :=
  s.link.state = .dataReceiving ∧ s.link.lineInBusy = false ∧ s.link.lineInIsSaturated = false ∧
    Exchange.header (s.received e) = some (len, MessType.data)

/-- No DATA message is taken whose length does not cover its own header. -/
def NoShort (s : Sys) (e : Edge) : Prop := ∀ len, TakesData s e len → 2 ≤ len.toNat

/-- A DATA message whose `head.len` is `len` passes the length check of `_transfer_receive_data`. -/
structure PassesCheck (s : Sys) (e : Edge) (len : UInt8) : Prop where
  data : TakesData s e len
  header : messHeaderSize ≤ s.reported e
  whole : len.toNat ≤ s.reported e

/-- No DATA message passes the check whose length does not cover its own header. -/
def NoShortPasses (s : Sys) (e : Edge) : Prop := ∀ len, PassesCheck s e len → messHeaderSize ≤ len.toNat

theorem NoShort.passes {s : Sys} {e : Edge} (h : NoShort s e) : NoShortPasses s e :=
  fun len hlen => h len hlen.data

theorem PassesCheck.received {s : Sys} {e : Edge} {len : UInt8} (h : PassesCheck s e len) :
    s.reported e = (s.received e).length := by
  have hheader := h.header
  obtain hzero | ⟨-, heq⟩ := s.reported_cases e
  · rw [hzero] at hheader
    exact absurd hheader (by decide)
  · exact heq

/-- A whole DATA message with a payload is taken. -/
def TakesPayload (s : Sys) (e : Edge) : Prop :=
  ∃ len, TakesData s e len ∧ len.toNat ≤ (s.received e).length ∧ len.toNat ≠ 2

/-- The effect of one interrupt on the inbound view.  Under `g` the contents of the buffers are those
of the ledger; a swap happens only under `mv`. -/
inductive InEff (size : ℕ) (g mv : Prop) (v : InView) : InView → Prop where
  | same : InEff size g mv v v
  | recycled (flag : Bool) (hb : v.busy = false) (hf : v.flag = true → flag = true) :
      InEff size g mv v { v.put v.pCache (.empty size) with flag := flag }
  | kept (l : Look) (p : Bytes) (hb : v.busy = false)
      (hfull : v.locked = true ∨ v.inL.Loaded) (hm : l.Mod size)
      (hg : g → l.Ordered ∧ l.content = p) :
      InEff size g mv v { v.put v.pCache l with busy := true, acked := v.acked ++ entry p }
  | swapped (l : Look) (p : Bytes) (hb : v.busy = false) (hfree : v.locked = false)
      (hroom : ¬v.inL.Loaded) (hl : l.Loaded) (hm : l.Mod size)
      (hg : g → l.Ordered ∧ l.content = p) (hmv : mv) :
      InEff size g mv v
        { (v.put v.pCache l).put v.pIn (.empty size) with
          pIn := v.pCache, pCache := v.pIn
          avail := true, flag := true, swap := false, acked := v.acked ++ entry p }

theorem InEff.imp {size : ℕ} {g mv mv' : Prop} {v v' : InView} (h : InEff size g mv v v')
    (hmv : mv → mv') : InEff size g mv' v v' := by
  cases h with
  | same => exact .same
  | recycled flag hb hf => exact .recycled flag hb hf
  | kept l p hb hfull hm hg => exact .kept l p hb hfull hm hg
  | swapped l p hb hfree hroom hl hm hg h => exact .swapped l p hb hfree hroom hl hm hg (hmv h)

/-- An armed receive pointer points behind the write position of an input cache that holds nothing, and
the transfer fits. -/
structure RxOk (size : ℕ) (s : Sys) : Prop where
  buf : ∀ p, s.spi.pDataIn = some p → p = ⟨s.link.pBufferInCache, s.cacheB.writePos⟩
  room : ∀ p, s.spi.pDataIn = some p → s.cacheB.writePos + s.spi.dataInLen ≤ size
  unloaded : ∀ p, s.spi.pDataIn = some p → ¬s.cacheB.look.Loaded

/-- What the interrupt needs to find. -/
structure InWf (size : ℕ) (v : InView) : Prop where
  cacheMod : v.cacheL.Mod size
  free : v.busy = false → v.pIn ≠ v.pCache ∧ ¬v.cacheL.Loaded
  inMod : v.busy = false → v.locked = false → v.inL.Mod size

/-! ## The pieces of a handler run, as the view sees them -/

section Pieces

variable {size : ℕ} {s : Sys}

theorem inView_setBuf {i : BufId} (h : i.isIn = true) (b : Buffer) :
    inView (s.setBuf i b) = (inView s).put i b.look := by
  show ({ inView s with look := (s.setBuf i b).inLook } : InView) = _
  rw [inLook_setBuf h]
  rfl

theorem inView_setBuf_out {i : BufId} (h : i.isIn = false) (b : Buffer) :
    inView (s.setBuf i b) = inView s := by
  show ({ inView s with look := (s.setBuf i b).inLook } : InView) = _
  rw [inLook_setBuf_out h]
  rfl

theorem inView_answer (h : Shape size s) (r : UInt8) : inView (s.answer r) = inView s :=
  inView_setBuf_out h.outCache _

theorem inView_dummyIfEmpty (h : Shape size s) : inView s.dummyIfEmpty = inView s := by
  unfold Sys.dummyIfEmpty
  split_ifs
  · exact inView_setBuf_out h.outCache _
  · rfl

theorem inView_moveOut (s : Sys) : inView s.moveOut = inView s := by
  unfold Sys.moveOut
  split_ifs <;> rfl

theorem inView_recycleIn (h : Shape size s) :
    inView s.recycleIn = (inView s).put s.link.pBufferInCache (.empty size) := by
  unfold Sys.recycleIn
  rw [inView_setBuf h.inCache, show s.cacheB = s.pool.get s.link.pBufferInCache from rfl,
    Buffer.look_recycle (h.sized _)]

theorem inView_takeIn (h : Shape size s) (n : ℕ) :
    inView (s.takeIn n) =
      (inView s).put s.link.pBufferInCache (s.cacheB.updateWritePos (i16 n)).look :=
  inView_setBuf h.inCache _

theorem inView_shapeIn (h : Shape size s) :
    inView s.shapeIn =
      (inView s).put s.link.pBufferInCache (s.cacheB.shape s.head.1.toNat).look :=
  inView_setBuf h.inCache _

theorem inView_swapIn (h : s.link.mutexIn = false) :
    inView s.swapIn =
      { inView s with pIn := s.link.pBufferInCache, pCache := s.link.pBufferIn
                      avail := true, busy := false, swap := false } := by
  show ({ inView s with
    pIn := s.link.pBufferInCache, pCache := s.link.pBufferIn
    avail := true, busy := false, locked := false, swap := false } : InView) = _
  rw [← h]
  rfl

/-- An observation that says nothing of the inbound half. -/
def Obs.Elsewhere : Obs → Prop
  | .event _ | .assertFailed _ | .sendRet _ _ _ | .txGet _ | .crcRange _ _ _ => True
  | _ => False

theorem inView_log {x : Obs} (hx : x.Elsewhere) : inView (s.log x) = inView s := by
  have h1 : acked (s.ghost.trace ++ [x]) = acked s.ghost.trace :=
    acked_local (by cases x <;> trivial)
  have h2 : returned (s.ghost.trace ++ [x]) = returned s.ghost.trace := by
    rw [returned_append]
    cases x <;> first | exact List.append_nil _ | exact hx.elim
  have h3 : (s.ghost.trace ++ [x]).all (Obs.safe s.link.messageSizeMax) =
      s.ghost.trace.all (Obs.safe s.link.messageSizeMax) := by
    rw [List.all_append]
    cases x <;> first | exact Bool.and_true _ | exact hx.elim
  show ({ inView s with
    acked := acked (s.ghost.trace ++ [x]), returned := returned (s.ghost.trace ++ [x])
    safe := (s.ghost.trace ++ [x]).all (Obs.safe s.link.messageSizeMax) } : InView) = _
  rw [h1, h2, h3]
  rfl

theorem heard_begun (s : Sys) (e : Edge) :
    heard (s.begun e).ghost.trace = ⟨some e.wire, (heard s.ghost.trace).exchanges⟩ := by
  obtain ⟨l, htrace, hl⟩ := trace_begun s e
  rw [htrace, List.append_cons, heard_append_local _ fun x hx => (hl x hx).local, heard_append]
  rfl

theorem heard_processed {n : ℕ} {q p : Sys} {st : SpilsState} {ready : Bool}
    (hp : Processed n q p st ready) : heard p.ghost.trace = heard q.ghost.trace := by
  obtain ⟨l, htrace, hl⟩ := trace_processed hp
  rw [htrace, heard_append_local _ fun x hx => (hl x hx).local]

/-- The end of a handler run: the event, and the exchange that is now complete. -/
theorem inView_finish {p : Sys} {w : Bytes} {ex : List Exchange}
    (hh : heard p.ghost.trace = ⟨some w, ex⟩) (st : SpilsState) (ready : Bool) (h : HalMcuSpi) :
    inView (p.finish st ready h) =
      { inView p with
        flag := (inView p).flag || ready
        acked := (inView p).acked ++ Exchange.gain ⟨w, p.outMess, st⟩ } := by
  have hack : acked (p.ghost.trace ++ [.armed p.outMess p.rxLen st .ok]) =
      acked p.ghost.trace ++ Exchange.gain ⟨w, p.outMess, st⟩ := by
    unfold acked
    rw [heard_append, hh]
    show (ex ++ [(⟨w, p.outMess, st⟩ : Exchange)]).flatMap _ = _
    rw [List.flatMap_append, List.flatMap_singleton]
  have hret : returned (p.ghost.trace ++ [.armed p.outMess p.rxLen st .ok]) =
      returned p.ghost.trace := by
    rw [returned_append, List.append_nil]
  have hsafe : (p.ghost.trace ++ [Obs.armed p.outMess p.rxLen st .ok]).all
      (Obs.safe p.link.messageSizeMax) = p.ghost.trace.all (Obs.safe p.link.messageSizeMax) := by
    rw [List.all_append]
    exact Bool.and_true _
  have hrearm : inView (p.rearm st h) =
      { inView p with acked := (inView p).acked ++ Exchange.gain ⟨w, p.outMess, st⟩ } := by
    show ({ inView p with
      acked := acked (p.ghost.trace ++ [.armed p.outMess p.rxLen st .ok])
      returned := returned (p.ghost.trace ++ [.armed p.outMess p.rxLen st .ok])
      safe := (p.ghost.trace ++ [Obs.armed p.outMess p.rxLen st .ok]).all
        (Obs.safe p.link.messageSizeMax) } : InView) = _
    rw [hack, hret, hsafe]
    rfl
  unfold Sys.finish
  cases ready with
  | false =>
    rw [if_neg (by decide), hrearm, Bool.or_false]
  | true =>
    rw [if_pos rfl, Bool.or_true]
    unfold Sys.raise
    rw [inView_log (x := .event .dataInReady) trivial]
    show ({ inView (p.rearm st h) with flag := true } : InView) = _
    rw [hrearm]

end Pieces

/-! ## The transfer itself -/

section Transfer

variable {size : ℕ} {s : Sys} {e : Edge}

/-- What the receive channel writes is not in view: it goes behind the write position of a buffer that
holds nothing. -/
theorem look_clockIn (hB : Base size s) (hrx : RxOk size s) (i : BufId) :
    ((s.clockIn e).pool.get i).look = (s.pool.get i).look := by
  by_cases h0 : s.spi.dataInLen = 0
  · have hw := (hB.armed.dummyRx h0).2
    unfold Sys.clockIn Sys.dmaStore
    rw [hw]
    rfl
  · obtain ⟨-, hw, -⟩ := hB.armed.bufferRx h0
    obtain ⟨p, hp⟩ := Option.ne_none_iff_exists'.mp (hB.armed.pointer h0)
    have hu := hrx.unloaded p hp
    have hb : p.buf = s.link.pBufferInCache := by rw [hrx.buf p hp]
    rw [hp] at hw
    unfold Sys.clockIn Sys.dmaStore
    rw [hw]
    show ((s.pool.set p.buf _).get i).look = _
    by_cases hi : p.buf = i
    · subst hi
      rw [Pool.get_set_self]
      refine Buffer.look_setData ?_ _
      rw [hb]
      exact hu
    · rw [Pool.get_set_of_ne _ _ hi]

theorem link_begun (s : Sys) (e : Edge) :
    (s.begun e).link = { s.link with connectionDetected := true } := by
  unfold Sys.begun
  rw [(link_outDone _).1]
  simp only [Sys.link_mapLink, Sys.link_log, Sys.link_mapSpi, (link_clockIn s e).1]

theorem pool_begun (s : Sys) (e : Edge) :
    (s.begun e).pool = (s.clockIn e).pool.set s.link.pBufferOutCache
      ((s.clockIn e).pool.get s.link.pBufferOutCache).recycle := by
  have hl := (link_clockIn s e).1
  unfold Sys.begun Sys.outDone Sys.outCacheB
  split_ifs <;> simp only [Sys.raise, Sys.pool_log, Sys.pool_mapSlave, Sys.pool_setBuf,
    Sys.pool_mapLink, Sys.pool_mapSpi, Sys.link_mapLink, Sys.link_log, Sys.link_mapSpi, hl]

theorem inView_begun (hB : Base size s) (hrx : RxOk size s) : inView (s.begun e) = inView s := by
  obtain ⟨l, htrace, hl⟩ := trace_begun s e
  have hlook : (s.begun e).inLook = s.inLook := by
    funext i
    unfold Sys.inLook
    by_cases hi : i.isIn = true
    · rw [if_pos hi, if_pos hi, pool_begun,
        Pool.get_set_of_ne _ _ (BufId.ne_of_isIn hi hB.shape.outCache).symm, look_clockIn hB hrx]
    · rw [if_neg hi, if_neg hi]
  have hack : acked (s.begun e).ghost.trace = acked s.ghost.trace := by
    unfold acked; rw [heard_begun]
  have hret : returned (s.begun e).ghost.trace = returned s.ghost.trace := by
    rw [htrace, List.append_cons, returned_append_note _ hl, returned_append, List.append_nil]
  have hsafe : (s.begun e).ghost.trace.all (Obs.safe s.link.messageSizeMax) =
      s.ghost.trace.all (Obs.safe s.link.messageSizeMax) := by
    have hnotes : l.all (Obs.safe s.link.messageSizeMax) = true := by
      rw [List.all_eq_true]
      intro x hx
      have hn := hl x hx
      cases x <;> first | rfl | exact hn.elim
    rw [htrace, List.all_append, List.all_cons, hnotes, Bool.and_true]
    exact Bool.and_true _
  have hghost : (s.begun e).ghost.swapIn = s.ghost.swapIn ∧
      (s.begun e).ghost.reading = s.ghost.reading ∧
      (s.begun e).ghost.availRead = s.ghost.availRead ∧
      (s.begun e).slave.spilsDataInReceived = s.slave.spilsDataInReceived := by
    obtain ⟨-, hslave, -, hgh⟩ := link_clockIn s e
    unfold Sys.begun Sys.outDone
    split_ifs
    · simp [Sys.raise, Sys.log, hgh, hslave, spilsEventHandler]
    · simp [Sys.log, hgh, hslave]
  obtain ⟨h1, h2, h3, h4⟩ := hghost
  unfold inView
  rw [link_begun, hlook, hack, hret, hsafe, h1, h2, h3, h4]

/-- A message of two bytes or more has been received into the input cache. -/
structure Arrived (size : ℕ) (s : Sys) (e : Edge) (t : Sys) : Prop where
  cache : t.cacheB = s.cacheB.receive (s.received e)
  two_le : 2 ≤ (s.received e).length
  room : s.cacheB.writePos + (s.received e).length ≤ size
  unloaded : ¬s.cacheB.look.Loaded

theorem arrived (hB : Base size s) (hrx : RxOk size s) (h2 : 2 ≤ s.reported e) :
    Arrived size s e ((s.begun e).takeIn (s.reported e)) := by
  obtain hzero | ⟨h0, hn⟩ := s.reported_cases e
  · omega
  obtain ⟨hcount, hw, hinc⟩ := hB.armed.bufferRx h0
  obtain ⟨p, hp⟩ := Option.ne_none_iff_exists'.mp (hB.armed.pointer h0)
  have hpe := hrx.buf p hp
  have hroom := hrx.room p hp
  have hle := length_received_le s e
  rw [hp] at hw
  have hpool : (s.clockIn e).pool.get s.link.pBufferInCache =
      { s.cacheB with data := memcpy s.cacheB.data s.cacheB.writePos (s.received e) } := by
    unfold Sys.clockIn Sys.dmaStore
    rw [hw, hinc, if_pos rfl, hpe]
    exact Pool.get_set_self _ _ _
  have hcache : (s.begun e).cacheB =
      { s.cacheB with data := memcpy s.cacheB.data s.cacheB.writePos (s.received e) } := by
    unfold Sys.cacheB
    rw [link_begun, pool_begun, Pool.get_set_of_ne _ _ hB.shape.sides.1.symm, hpool]
    rfl
  refine ⟨?_, by omega, by omega, hrx.unloaded p hp⟩
  show ((s.begun e).pool.set _ _).get (s.begun e).link.pBufferInCache = _
  rw [Pool.get_set_self, hcache, hn]
  rfl

variable {t : Sys}

theorem Arrived.head (ha : Arrived size s e t) (hs : s.cacheB.Sized size) :
    t.head = ((s.received e).getD 0 0, (s.received e).getD 1 0) := by
  have h2 := ha.two_le
  have hr : (s.cacheB.receive (s.received e)).readPos = s.cacheB.readPos :=
    Buffer.readPos_updateWritePos _ _
  unfold Sys.head
  rw [ha.cache, hr]
  rw [Buffer.getD_receive hs ha.unloaded ha.room (k := 1) (by omega)]
  have h0 := Buffer.getD_receive hs ha.unloaded ha.room (k := 0) (by omega)
  rw [Nat.add_zero] at h0
  rw [h0]

/-- The header in the cache is the header of the wire. -/
theorem Arrived.header (ha : Arrived size s e t) (hs : s.cacheB.Sized size) :
    Exchange.header (s.received e) = some t.head ∧ Exchange.header e.wire = some t.head := by
  have h : Exchange.header (s.received e) = some t.head := by
    rw [ha.head hs]
    exact Exchange.header_of_length ha.two_le
  refine ⟨h, ?_⟩
  unfold Sys.received at h
  split_ifs at h with hc
  · exact Exchange.header_take h
  · cases h

/-- A message no longer than what was received is a prefix of the wire. -/
theorem take_wire {len : ℕ} (hlen : len ≤ (s.received e).length) :
    (s.received e).take len = e.wire.take len := by
  by_cases hc : s.spi.sse = true ∧ s.spi.dmacr = true ∧ s.spi.dmaRx.running = true
  · have hr : s.received e = e.wire.take s.spi.dmaRx.transferCount := if_pos hc
    rw [hr, List.length_take] at hlen
    rw [hr, List.take_take, Nat.min_eq_left (by omega)]
  · have hr : s.received e = [] := if_neg hc
    rw [hr] at hlen
    have h0 : len = 0 := Nat.le_zero.mp hlen
    rw [h0, List.take_zero, List.take_zero]

theorem outMess_answer (h : Shape size s) (r : UInt8) : (s.answer r).outMess = [2, r] := by
  have hlen : 2 ≤ s.outCacheB.data.length := by
    have h1 : s.outCacheB.data.length = size := (h.sized _).data_len
    have h2 := h.size_eq
    omega
  unfold Sys.outMess
  rw [Sys.outCacheB_answer, Buffer.getLoadsize_header, Buffer.readPos_header, Buffer.data_header,
    memcpy_of_le (by simpa using hlen)]
  rfl

end Transfer

/-! ## The effect of the interrupt -/

section Effect

variable {size : ℕ} {g : Prop} {s s' t p : Sys} {e : Edge} {st : SpilsState} {ready : Bool}

/-- The view stays as it is, and the exchange adds nothing to the ledger. -/
theorem inEff_same {v : InView} {mv : Prop} (hview : inView p = v)
    (hh : heard p.ghost.trace = ⟨some e.wire, (heard s.ghost.trace).exchanges⟩)
    (hgain : Exchange.gain ⟨e.wire, p.outMess, st⟩ = []) (h : HalMcuSpi) :
    InEff size g mv v (inView (p.finish st false h)) := by
  rw [inView_finish hh, hview, hgain, List.append_nil, Bool.or_false]
  exact .same

/-- The cache ends up recycled, and the exchange adds nothing to the ledger. -/
theorem inEff_recycled {v : InView} {mv : Prop} (hb : v.busy = false)
    (hview : inView p = v.put v.pCache (.empty size))
    (hh : heard p.ghost.trace = ⟨some e.wire, (heard s.ghost.trace).exchanges⟩)
    (hgain : Exchange.gain ⟨e.wire, p.outMess, st⟩ = []) (ready : Bool) (h : HalMcuSpi) :
    InEff size g mv v (inView (p.finish st ready h)) := by
  rw [inView_finish hh, hview, hgain, List.append_nil]
  refine .recycled (v.flag || ready) hb fun hf => ?_
  rw [hf, Bool.true_or]

theorem inL_inView (h : Shape size s) : (inView s).inL = s.inB.look := inLook_of_isIn h.inBuf

theorem cacheL_inView (h : Shape size s) : (inView s).cacheL = s.cacheB.look := inLook_of_isIn h.inCache

/-- A message is in the input cache and its type is being looked at. -/
structure Taken (size : ℕ) (s : Sys) (e : Edge) (t : Sys) : Prop where
  shape : Shape size t
  old : Shape size s
  arrived : Arrived size s e t
  link : t.link = { s.link with connectionDetected := true }
  free : s.link.lineInBusy = false ∧ s.link.lineInIsSaturated = false
  view : ∃ l, inView t = (inView s).put s.link.pBufferInCache l
  heard : heard t.ghost.trace = ⟨some e.wire, (heard s.ghost.trace).exchanges⟩
  reported : messHeaderSize ≤ s.reported e

theorem taken (hB : Base size s) (hrx : RxOk size s)
    (free : ((s.begun e).link.lineInBusy || (s.begun e).link.lineInIsSaturated) = false)
    (h2 : 2 ≤ s.reported e) : Taken size s e ((s.begun e).takeIn (s.reported e)) := by
  have hsh := hB.shape.begun e
  rw [link_begun] at free
  refine ⟨hsh.takeIn _, hB.shape, arrived hB hrx h2, link_begun s e, Bool.or_eq_false_iff.mp free,
    ⟨((s.begun e).cacheB.updateWritePos (i16 (s.reported e))).look, ?_⟩, heard_begun s e, h2⟩
  rw [inView_takeIn hsh, inView_begun hB hrx, link_begun]

/-- The cache of `t`, cut to the message in it: it looks like `l`, and its payload is what is left. -/
structure Cut (size : ℕ) (s : Sys) (e : Edge) (t : Sys) (l : Look) : Prop where
  look : t.shapeIn.cacheB.look = l
  mod : l.Mod size
  view : inView t.shapeIn = (inView s).put s.link.pBufferInCache l
  fits : t.head.1.toNat ≤ (s.received e).length
  read : l.readPos = s.cacheB.readPos + 2
  write : l.writePos = s.cacheB.readPos + t.head.1.toNat
  content : l.content = (e.wire.take t.head.1.toNat).drop 2

/-- Nothing is left of a message that is only its header, and of no other. -/
theorem Cut.empty_iff {l : Look} (hl : Cut size s e t l) :
    t.shapeIn.cacheB.getLoadsize = 0 ↔ t.head.1.toNat = 2 := by
  have hm := hl.mod
  rw [← hl.look] at hm
  have hread := hl.read
  have hwrite := hl.write
  rw [Buffer.getLoadsize_eq_zero hm, hl.look]
  constructor
  · intro hempty
    have heq : l.readPos = l.writePos := not_not.mp hempty
    omega
  · intro h2 hloaded
    exact hloaded (by omega)

namespace Taken

variable (h : Taken size s e t)
include h

theorem view_recycleIn : inView t.recycleIn = (inView s).put s.link.pBufferInCache (.empty size) := by
  obtain ⟨l, hl⟩ := h.view
  rw [inView_recycleIn h.shape, hl, h.link, InView.put_put]

/-- The load size of the cache is the number of bytes received. -/
theorem loadsize (hm : s.cacheB.look.Mod size) : t.cacheB.getLoadsize = (s.received e).length := by
  rw [h.arrived.cache]
  exact (Buffer.mod_receive hm h.arrived.unloaded h.arrived.room).2.2

theorem cut (hm : s.cacheB.look.Mod size) (whole : t.head.1.toNat ≤ t.cacheB.getLoadsize) :
    ∃ l : Look, Cut size s e t l := by
  have hs : s.cacheB.Sized size := h.old.sized _
  have hlen : t.head.1.toNat ≤ (s.received e).length := by
    rw [← h.loadsize hm]
    exact whole
  obtain ⟨hcache, htwo, hroom, hun⟩ := h.arrived
  have heq : t.shapeIn.cacheB = t.cacheB.shape t.head.1.toNat := Pool.get_set_self _ _ _
  obtain ⟨hmod, hread, hwrite, hcont⟩ := Buffer.look_shape hs hm hun hroom hlen htwo
  rw [← hcache] at hmod hread hwrite hcont
  obtain ⟨l, hl⟩ := h.view
  refine ⟨_, congrArg Buffer.look heq, hmod, ?_, hlen, hread, hwrite, ?_⟩
  · rw [inView_shapeIn h.shape, hl, h.link, InView.put_put]
  · rw [← take_wire hlen]
    exact hcont

/-- The other input buffer is out of reach of what is done to the cache. -/
theorem look_shapeIn_inB (hne : s.link.pBufferIn ≠ s.link.pBufferInCache) :
    t.shapeIn.inB.look = (inView s).inL := by
  obtain ⟨l, hl⟩ := h.view
  rw [← inL_inView h.shape.shapeIn, inView_shapeIn h.shape, hl, h.link, InView.put_put]
  exact Function.update_of_ne hne _ _

/-- Without the lock it can be looked at. -/
theorem mod_shapeIn_inB (hw : InWf size (inView s)) (free : t.link.mutexIn = false) :
    t.shapeIn.inB.look.Mod size := by
  rw [h.link] at free
  rw [h.look_shapeIn_inB (hw.free h.free.1).1]
  exact hw.inMod h.free.1 free

theorem cache_shapeIn : t.shapeIn.link.pBufferInCache = s.link.pBufferInCache := by
  show t.link.pBufferInCache = _
  rw [h.link]

theorem takesData (type : t.head.2 = MessType.data) (state : t.link.state = .dataReceiving) :
    TakesData s e t.head.1 := by
  rw [h.link] at state
  refine ⟨state, h.free.1, h.free.2, ?_⟩
  rw [(h.arrived.header (h.old.sized _)).1, ← type]

/-- A DATA message whose length is in the cache passes. -/
theorem passesCheck (type : t.head.2 = MessType.data) (state : t.link.state = .dataReceiving)
    (fits : t.head.1.toNat ≤ (s.received e).length) : PassesCheck s e t.head.1 := by
  have hreported := h.reported
  refine ⟨h.takesData type state, hreported, ?_⟩
  obtain hzero | ⟨-, heq⟩ := s.reported_cases e
  · rw [hzero] at hreported
    exact absurd hreported (by decide)
  · rw [heq]
    exact fits

theorem accepted_type (type : t.head.2 ≠ MessType.data) (out : Bytes) (st : SpilsState) :
    Exchange.accepted ⟨e.wire, out, st⟩ = none :=
  Exchange.accepted_other (h.arrived.header (h.old.sized _)).2 type

theorem accepted_data (type : t.head.2 = MessType.data) {r : UInt8} {q : Sys} (hq : Shape size q)
    (hr : r = MessType.resultOk ∨ r = MessType.resultOkBusy) (st : SpilsState) :
    Exchange.accepted ⟨e.wire, (q.answer r).outMess, st⟩ =
      some ((e.wire.take t.head.1.toNat).drop 2) := by
  have hd := (h.arrived.header (h.old.sized _)).2
  rw [show t.head = (t.head.1, t.head.2) from rfl, type] at hd
  refine Exchange.accepted_data hd ?_
  unfold Exchange.Answered
  rw [outMess_answer hq]
  rcases hr with rfl | rfl
  · exact .inl rfl
  · exact .inr rfl

end Taken

theorem accepted_answer (hq : Shape size t) {r : UInt8} (h1 : r ≠ MessType.resultOk)
    (h2 : r ≠ MessType.resultOkBusy) (st : SpilsState) :
    Exchange.accepted ⟨e.wire, (t.answer r).outMess, st⟩ = none :=
  Exchange.accepted_refused (outMess_answer hq r) h1 h2

section Data

variable {l : Look} (h : Taken size s e t) (hw : InWf size (inView s)) (hg : g → NoShortPasses s e)
  (type : t.head.2 = MessType.data) (state : t.link.state = .dataReceiving) (hl : Cut size s e t l)
  (k : HalMcuSpi)

include h hg type state hl in
/-- A message that covers its header leaves the positions in order. -/
theorem ordered_data (hg' : g) : l.Ordered ∧ l.content = (e.wire.take t.head.1.toNat).drop 2 := by
  have h2 : 2 ≤ t.head.1.toNat := hg hg' _ (h.passesCheck type state hl.fits)
  have hlen := hl.fits
  have hread := hl.read
  have hwrite := hl.write
  have hwire := length_received_wire s e
  refine ⟨⟨by omega, fun _ => by omega, ?_⟩, hl.content⟩
  rw [hl.content, List.length_drop, List.length_take]
  omega

include h hw hg type state hl

/-- The message stays in the cache, and the line is busy. -/
theorem inEff_dataBusy (hp : p = (t.shapeIn.mapLink fun l => { l with lineInBusy := true }).answer
      MessType.resultOkBusy) (hh : heard p.ghost.trace = ⟨some e.wire, (heard s.ghost.trace).exchanges⟩)
    (full : t.link.mutexIn = true ∨ t.shapeIn.cacheB.getLoadsize ≠ 0 ∧ t.shapeIn.inB.getLoadsize ≠ 0) :
    InEff size g (TakesPayload s e) (inView s) (inView (p.finish st false k)) := by
  subst hp
  have hb : (inView s).busy = false := h.free.1
  have hbusy : Shape size (t.shapeIn.mapLink fun l => { l with lineInBusy := true }) :=
    h.shape.shapeIn.mapLink _ rfl
  have hlocked : (inView s).locked = t.link.mutexIn := by rw [h.link]; rfl
  have hfull : (inView s).locked = true ∨ (inView s).inL.Loaded := by
    rw [hlocked]
    cases hfree : t.link.mutexIn with
    | true => exact .inl rfl
    | false =>
      rw [hfree] at full
      obtain ⟨-, hin⟩ := full.resolve_left Bool.false_ne_true
      have hloaded := (Buffer.getLoadsize_ne_zero (h.mod_shapeIn_inB hw hfree)).mp hin
      rw [h.look_shapeIn_inB (hw.free h.free.1).1] at hloaded
      exact .inr hloaded
  have hv : inView (t.shapeIn.mapLink fun l => { l with lineInBusy := true }) =
      { inView t.shapeIn with busy := true } := rfl
  rw [inView_finish hh, Exchange.gain_some (h.accepted_data type hbusy (.inr rfl) _), inView_answer hbusy,
    hv, hl.view]
  have hkept : InEff size g (TakesPayload s e) (inView s) _ :=
    .kept l _ hb hfull hl.mod (ordered_data h hg type state hl)
  refine Eq.subst (motive := InEff size g (TakesPayload s e) (inView s)) ?_ hkept
  ext1 <;> first | rfl | exact (Bool.or_false _).symm

omit hw hg state in
/-- The message is only a header: the cache is recycled. -/
theorem inEff_dataEmpty (hp : p = ((t.shapeIn.log (.assertFailed
      "Unexpected SPI Link _buffer_in_cache_data_move result")).recycleIn.answer MessType.resultOk))
    (hh : heard p.ghost.trace = ⟨some e.wire, (heard s.ghost.trace).exchanges⟩)
    (empty : t.shapeIn.cacheB.getLoadsize = 0) :
    InEff size g (TakesPayload s e) (inView s) (inView (p.finish st true k)) := by
  subst hp
  have hlen2 := hl.empty_iff.mp empty
  have hsl := h.shape.shapeIn.log (.assertFailed "Unexpected SPI Link _buffer_in_cache_data_move result")
  refine inEff_recycled h.free.1 ?_ hh ?_ true k
  · rw [inView_answer hsl.recycleIn, inView_recycleIn hsl,
      inView_log (x := .assertFailed _) trivial, hl.view, Sys.link_log, h.cache_shapeIn, InView.put_put]
    rfl
  · rw [Exchange.gain_some (h.accepted_data type hsl.recycleIn (.inl rfl) _), hlen2]
    have hnil : (e.wire.take 2).drop 2 = [] :=
      List.drop_of_length_le (by rw [List.length_take]; omega)
    rw [hnil, entry_nil]

/-- The message moves on, and the buffers change places. -/
theorem inEff_dataOk (hp : p = t.shapeIn.swapIn.recycleIn.answer MessType.resultOk)
    (hh : heard p.ghost.trace = ⟨some e.wire, (heard s.ghost.trace).exchanges⟩)
    (free : t.link.mutexIn = false) (loaded : t.shapeIn.cacheB.getLoadsize ≠ 0)
    (room : t.shapeIn.inB.getLoadsize = 0) :
    InEff size g (TakesPayload s e) (inView s) (inView (p.finish st true k)) := by
  subst hp
  have hb : (inView s).busy = false := h.free.1
  have hfree : (inView s).locked = false := by
    rw [h.link] at free
    exact free
  have hloaded : l.Loaded := by
    have hm := hl.mod
    rw [← hl.look] at hm ⊢
    exact (Buffer.getLoadsize_ne_zero hm).mp loaded
  have hroom := (Buffer.getLoadsize_eq_zero (h.mod_shapeIn_inB hw free)).mp room
  rw [h.look_shapeIn_inB (hw.free h.free.1).1] at hroom
  have hne2 : t.head.1.toNat ≠ 2 := fun h2 => loaded (hl.empty_iff.mpr h2)
  have hsh := h.shape.shapeIn
  rw [inView_finish hh, Exchange.gain_some (h.accepted_data type hsh.swapIn.recycleIn (.inl rfl) _),
    inView_answer hsh.swapIn.recycleIn, inView_recycleIn hsh.swapIn,
    inView_swapIn (s := t.shapeIn) free, hl.view]
  have hswap : InEff size g (TakesPayload s e) (inView s) _ :=
    .swapped l _ hb hfree hroom hloaded hl.mod (ordered_data h hg type state hl)
      ⟨_, h.takesData type state, hl.fits, hne2⟩
  refine Eq.subst (motive := InEff size g (TakesPayload s e) (inView s)) ?_ hswap
  have hin : t.shapeIn.swapIn.link.pBufferInCache = s.link.pBufferIn := by
    show t.link.pBufferIn = _
    rw [h.link]
  have hin' : t.shapeIn.link.pBufferIn = s.link.pBufferIn := hin
  rw [hin, h.cache_shapeIn, hin']
  ext1 <;> first | rfl | exact (Bool.or_true _).symm | exact hb

omit hl in
/-- The outcomes for a DATA message that fits, as effects. -/
theorem inEff_data (whole : t.head.1.toNat ≤ t.cacheB.getLoadsize) (hd : Dispatched t p st ready)
    (hh : heard p.ghost.trace = ⟨some e.wire, (heard s.ghost.trace).exchanges⟩) :
    InEff size g (TakesPayload s e) (inView s) (inView (p.finish st ready k)) := by
  have hm := hw.cacheMod
  rw [cacheL_inView h.old] at hm
  obtain ⟨l, hl⟩ := h.cut hm whole
  cases hd with
  | startErr type' => exact absurd (type.symm.trans type') (by decide)
  | startOk type' => exact absurd (type.symm.trans type') (by decide)
  | recvErr type' => exact absurd (type.symm.trans type') (by decide)
  | recvBusy type' => exact absurd (type.symm.trans type') (by decide)
  | recvOk type' => exact absurd (type.symm.trans type') (by decide)
  | renewed type' => exact absurd type type'.2.2
  | dataReady type' => exact absurd type type'.2.2
  | ready type' => exact absurd type type'.2.2
  | dataErr _ bad =>
    rcases bad with bad | bad
    · exact absurd state bad
    · omega
  | dataBusy _ _ _ full => exact inEff_dataBusy h hw hg type state hl k rfl hh full
  | dataEmpty _ _ _ _ empty => exact inEff_dataEmpty h type hl k rfl hh empty
  | dataOk _ _ _ free loaded room => exact inEff_dataOk h hw hg type state hl k rfl hh free loaded room

end Data

/-- An answer that accepts nothing leaves the cache empty. -/
theorem inEff_answered (h : Taken size s e t) {r : UInt8} {mv : Prop} (ready : Bool) (k : HalMcuSpi)
    (hh : heard (t.recycleIn.answer r).ghost.trace = ⟨some e.wire, (heard s.ghost.trace).exchanges⟩)
    (hnone : Exchange.accepted ⟨e.wire, (t.recycleIn.answer r).outMess, st⟩ = none) :
    InEff size g mv (inView s) (inView ((t.recycleIn.answer r).finish st ready k)) :=
  inEff_recycled h.free.1 ((inView_answer h.shape.recycleIn r).trans h.view_recycleIn) hh
    (Exchange.gain_none hnone) ready k

theorem inEff_dispatched (h : Taken size s e t) (hw : InWf size (inView s)) (hg : g → NoShortPasses s e)
    (hd : Dispatched t p st ready)
    (hh : heard p.ghost.trace = ⟨some e.wire, (heard s.ghost.trace).exchanges⟩) (k : HalMcuSpi) :
    InEff size g (TakesPayload s e) (inView s) (inView (p.finish st ready k)) := by
  have hb : (inView s).busy = false := h.free.1
  have hsr := h.shape.recycleIn
  cases id hd with
  | startErr type => exact inEff_answered h _ k hh (accepted_answer hsr (by decide) (by decide) _)
  | startOk type => exact inEff_answered h _ k hh (h.accepted_type (by rw [type]; decide) _ _)
  | recvErr type => exact inEff_answered h _ k hh (accepted_answer hsr (by decide) (by decide) _)
  | recvBusy type =>
    have hsd := h.shape.dummyIfEmpty
    have hnone : Exchange.accepted ⟨e.wire, (t.dummyIfEmpty.recycleIn.answer MessType.resultBusy).outMess, _⟩ =
        none := accepted_answer hsd.recycleIn (by decide) (by decide) .listeningStart
    refine inEff_recycled hb ?_ hh (Exchange.gain_none hnone) _ k
    obtain ⟨l, hl⟩ := h.view
    have hlink : t.dummyIfEmpty.link = t.link := field_dummyIfEmpty Sys.link (fun _ _ _ => rfl) t
    rw [inView_answer hsd.recycleIn, inView_recycleIn hsd, inView_dummyIfEmpty h.shape, hl, hlink,
      h.link, InView.put_put]
    rfl
  | recvOk type =>
    have hsm := h.shape.moveOut
    refine inEff_recycled hb ?_ hh (Exchange.gain_none <| h.accepted_type (by rw [type]; decide) _ _) _ k
    obtain ⟨l, hl⟩ := h.view
    have hlink : t.moveOut.dummyIfEmpty.link.pBufferInCache = t.link.pBufferInCache :=
      field_moveOut_dummyIfEmpty (fun s : Sys => s.link.pBufferInCache) (fun _ _ _ => rfl)
        (fun _ => ⟨rfl, rfl⟩) t
    rw [inView_recycleIn hsm.dummyIfEmpty, inView_dummyIfEmpty hsm, inView_moveOut, hl, hlink,
      h.link, InView.put_put]
    rfl
  | dataErr type => exact inEff_answered h _ k hh (accepted_answer hsr (by decide) (by decide) _)
  | dataBusy type state whole => exact inEff_data h hw hg type state k whole hd hh
  | dataEmpty type state whole => exact inEff_data h hw hg type state k whole hd hh
  | dataOk type state whole => exact inEff_data h hw hg type state k whole hd hh
  | renewed type => exact inEff_answered h _ k hh (h.accepted_type type.2.2 _ _)
  | dataReady type => exact inEff_answered h _ k hh (h.accepted_type type.2.2 _ _)
  | ready type => exact inEff_answered h _ k hh (h.accepted_type type.2.2 _ _)

/-- Whatever the interrupt did, the cache is left with positions inside its data. -/
theorem InEff.cacheMod {mv : Prop} {v v' : InView} (h : InEff size g mv v v') (hsize : size ≤ 255)
    (hw : InWf size v) : v'.cacheL.Mod size := by
  cases h with
  | same => exact hw.cacheMod
  | recycled flag hb =>
    have hm := Look.mod_empty hsize
    rw [← InView.cacheL_put v (.empty size)] at hm
    exact hm
  | kept l q hb hfull hm =>
    rw [← InView.cacheL_put v l] at hm
    exact hm
  | swapped l q hb =>
    have hm := Look.mod_empty hsize
    rw [← InView.look_put (v.put v.pCache l) v.pIn (.empty size)] at hm
    exact hm

/-- What `_transfer_data_in_prepare` arms. -/
theorem rxOk_armedFor {h : HalMcuSpi} (ha : ArmedFor p h) (hsh : Shape size p)
    (hm : p.cacheB.look.Mod size) (hs : s'.spi = h) (hl : s'.link.pBufferInCache = p.link.pBufferInCache)
    (hp : s'.pool = p.pool) : RxOk size s' := by
  have hc : s'.cacheB = p.cacheB := by unfold Sys.cacheB; rw [hl, hp]
  have hkey : ∀ q, s'.spi.pDataIn = some q → q = ⟨p.link.pBufferInCache, p.cacheB.writePos⟩ ∧
      ¬p.cacheB.look.Loaded ∧ s'.spi.dataInLen = p.cacheB.getFreeSpaceLineSize := by
    intro q hq
    rw [hs, ha.pDataIn] at hq
    rw [hs, ha.dataInLen]
    unfold Sys.rxPtr at hq
    unfold Sys.rxLen
    by_cases h0 : p.cacheB.getLoadsize = 0
    · rw [if_neg (not_not.mpr h0)] at hq ⊢
      exact ⟨(Option.some.inj hq).symm, (Buffer.getLoadsize_eq_zero hm).mp h0, rfl⟩
    · rw [if_pos h0] at hq
      cases hq
  refine ⟨fun q hq => ?_, fun q hq => ?_, fun q hq => ?_⟩
  · rw [(hkey q hq).1, hl, hc]
  · obtain ⟨-, -, hlen⟩ := hkey q hq
    have hle : p.cacheB.writePos ≤ size := hm.write_le
    have hsize := hm.size_le
    have hbs : p.cacheB.size = size := (hsh.sized _).size_eq
    rw [hlen, hc]
    unfold Buffer.getFreeSpaceLineSize u16
    rw [hbs]
    omega
  · rw [hc]
    exact (hkey q hq).2.1

/-- **The effect of one run of the interrupt** on the inbound half of the link. -/
theorem inEff_handled (hB : Base size s) (hrx : RxOk size s) (hw : InWf size (inView s))
    (hg : g → NoShortPasses s e) (h : Handled e s s') :
    InEff size g (TakesPayload s e) (inView s) (inView s') ∧ RxOk size s' := by
  cases h with
  | again k silent armed same eq =>
    subst eq
    have hpool : (s.clockIn e).inLook = s.inLook := by
      funext i
      unfold Sys.inLook
      split_ifs
      · exact look_clockIn hB hrx i
      · rfl
    obtain ⟨hlink, hslave, -, hghost⟩ := link_clockIn s e
    have hview : inView ((s.clockIn e).mapSpi fun _ => k) = inView s := by
      show ({ inView (s.clockIn e) with look := (s.clockIn e).inLook } : InView) = _
      rw [hpool]
      unfold inView
      rw [hlink, hslave, hghost]
    have hcache : ((s.clockIn e).mapSpi fun _ => k).cacheB.look = s.cacheB.look := by
      show ((s.clockIn e).pool.get (s.clockIn e).link.pBufferInCache).look = _
      rw [hlink]
      exact look_clockIn hB hrx _
    have hwrite : ((s.clockIn e).mapSpi fun _ => k).cacheB.writePos = s.cacheB.writePos :=
      congrArg Look.writePos hcache
    obtain ⟨-, hp, -, hl⟩ := same
    refine ⟨hview ▸ .same, fun q hq => ?_, fun q hq => ?_, fun q hq => ?_⟩
    · rw [hwrite, hrx.buf q (hp.symm.trans hq)]
      show _ = (⟨(s.clockIn e).link.pBufferInCache, _⟩ : Ptr)
      rw [hlink]
    · rw [hwrite]
      exact hl ▸ hrx.room q (hp.symm.trans hq)
    · rw [hcache]
      exact hrx.unloaded q (hp.symm.trans hq)
  | done q st ready k valid resend processed armed eq =>
    subst eq
    have hsq := (hB.shape.begun e).processed processed
    have hh := (heard_processed processed).trans (heard_begun s e)
    have heff : InEff size g (TakesPayload s e) (inView s) (inView (q.finish st ready k)) := by
      cases processed with
      | refused =>
        exact inEff_same ((inView_answer (hB.shape.begun e) _).trans (inView_begun hB hrx)) hh
          (Exchange.gain_none <| accepted_answer (hB.shape.begun e) (by decide) (by decide) _) k
      | short =>
        exact inEff_same ((inView_answer (hB.shape.begun e) _).trans (inView_begun hB hrx)) hh
          (Exchange.gain_none <| accepted_answer (hB.shape.begun e) (by decide) (by decide) _) k
      | taken free len dispatched =>
        exact inEff_dispatched (taken hB hrx free len) hw hg dispatched hh k
    refine ⟨heff, rxOk_armedFor armed hsq ?_ (spi_finish _ _ _ _) ?_ (pool_finish _ _ _ _)⟩
    · have hm := heff.cacheMod hB.shape.size_le hw
      rw [cacheL_inView (hsq.finish st ready k)] at hm
      unfold Sys.cacheB at hm
      rw [link_finish, pool_finish] at hm
      exact hm
    · rw [link_finish]

end Effect

end NeuronWired
