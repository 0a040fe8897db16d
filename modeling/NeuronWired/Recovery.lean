import NeuronWired.Delivery
import NeuronWired.Disconnect
import NeuronWired.MoveResult

/-!
# Recovery — the link comes back by itself

The link is brought into any state that a run can reach: by broken messages, by announcements without data,
by transfers cut short, by a main loop that reads too late.  Once the main loop has read what there is, the
master gets through with one announcement after a first one, and fetches what waits with one request after a
first one.  The first transfer may be refused, since it was armed while the line was saturated.
-/

namespace NeuronWired

open Interrupt

/-! ## Reading what there is -/

/-- One complete chip-select interrupt. -/
def Sys.pulse (s : Sys) (e : Edge) : Sys := ((irqProg (.edge e)).run s).2

/-- A read, a poll and a read, with no interrupt in between. -/
def Sys.readOut (s : Sys) : Sys :=
  ((s.happen (.call .dataRead)).happen (.call .poll)).happen (.call .dataRead)

section Reads

variable {size : ℕ} {s t : Sys}

theorem happen_dataRead (s : Sys) : s.happen (.call .dataRead) = (spilsDataRead.run s).2 := by
  show ((spilsDataRead >>= fun _ => pure ()).run s).2 = _
  rw [Prog.run_bind]
  rfl

theorem run_bufferGetAndDiscard (s : Sys) (i : BufId) :
    (bufferGetAndDiscard i (s.pool.get i).getLoadsize).run s =
      ((.ok, ((s.pool.get i).data.drop (s.pool.get i).readPos).take (s.pool.get i).getLoadsize),
        (s.log (.bufferGet (s.pool.get i).readPos (s.pool.get i).getLoadsize (s.pool.get i).data.length)).setBuf i
          ((s.pool.get i).updateReadPos (i16 (s.pool.get i).getLoadsize))) := by
  simp only [bufferGetAndDiscard, bufferGetFromPosition, Prog.run_bind, run_readBuf, Prog.run_atomic,
    Buffer.getFromPosition_getLoadsize, if_true, reduceCtorEq, if_false, run_writeBuf, Prog.run_pure]
  rfl

theorem run_spilsDataRead_none (h : s.link.dataInAvailable = false) :
    spilsDataRead.run s = (⟨.ok, some 0, []⟩, s.log (.readRet .ok (some 0) [])) := by
  simp only [spilsDataRead, Prog.run_bind, run_readLink, h, if_true]
  rfl

/-- A message is read from `p_buffer_in` whole, and nothing is available afterwards. -/
theorem run_spilsDataRead_some (h : s.link.dataInAvailable = true) (hfree : s.link.mutexIn = false) :
    (spilsDataRead.run s).1 =
        ⟨.ok, some s.inB.getLoadsize, (s.inB.data.drop s.inB.readPos).take s.inB.getLoadsize⟩ ∧
      (spilsDataRead.run s).2.link = { s.link with dataInAvailable := false } := by
  have hget := run_bufferGetAndDiscard
    (s.lockIn.mapGhost fun g => { g with reading := some s.link.pBufferIn }) s.link.pBufferIn
  simp only [spilsDataRead, Prog.run_bind, run_readLink, h, Bool.true_eq_false, if_false,
    run_mutexInTrylock hfree, run_writeGhost, run_readBuf]
  rw [show s.lockIn.link.pBufferIn = s.link.pBufferIn from rfl, hget]
  simp only [reduceCtorEq, if_false, Prog.run_bind, run_writeBuf, run_writeGhost, run_writeLink]
  exact ⟨rfl, congrArg (fun l : Spils => { l with dataInAvailable := false }) (Spils.unlockIn_eq hfree)⟩

/-- With nothing in `p_buffer_in` the line is not busy after the poll. -/
theorem run_lineInBusyProcess (hfree : s.link.mutexIn = false) (hroom : s.inB.getLoadsize = 0) :
    (lineInBusyProcess.run s).2.link.lineInBusy = false := by
  unfold lineInBusyProcess
  rw [Prog.run_bind, run_readLink]
  by_cases hb : s.link.lineInBusy = false
  · rw [if_pos hb]
    exact hb
  rw [if_neg hb, Prog.run_bind]
  by_cases hc : s.cacheB.getLoadsize = 0
  · -- a cache that holds nothing is taken back
    have hmove : bufferInCacheDataMove.run s = (.err, (s.lockIn.mapLink fun l =>
        { l with lineInBusy := false }).mapLink fun l => { l with mutexIn := false }) := by
      unfold bufferInCacheDataMove
      rw [Prog.run_bind_of (run_mutexInTrylock hfree), if_neg (by simp), Prog.run_bind_of (Prog.run_read _ _),
        if_pos (show s.lockIn.cacheB.getLoadsize = 0 from hc)]
      rfl
    rw [hmove]
    rfl
  · rw [run_moveIn_ok hfree hc hroom]
    rfl

end Reads

/-! ## Nothing is held -/

/-- Between two calls, with nothing in the two input buffers. -/
structure Clear (size : ℕ) (s : Sys) : Prop where
  base : Base size s
  inbound : InAt size (InOpen size False False []) s
  outbound : OutAt size (OutOpen size True False []) s
  available : s.link.dataInAvailable = false
  busy : s.link.lineInBusy = false

section Clear

variable {size : ℕ} {s s' t p : Sys} {e : Edge} {st : SpilsState} {ready : Bool} {v : OutView}

/-- `p_buffer_in` holds nothing when nothing is available. -/
theorem load_inB_of_available (h : InAt size (InOpen size False False []) s)
    (ha : s.link.dataInAvailable = false) : s.inB.getLoadsize = 0 := by
  have hm := h.view.inMod
  have hno : ¬(inView s).inL.Loaded := fun hl => by
    have := h.view.avail.mpr hl
    rw [show (inView s).avail = s.link.dataInAvailable from rfl, ha] at this
    cases this
  rw [inL_inView h.shape] at hm hno
  exact (Buffer.getLoadsize_eq_zero hm).mpr hno

/-- What is read out leaves nothing behind, and the outbound half as it was. -/
theorem clear_readOut (hB : Base size s) (hin : InAt size (InOpen size False False []) s)
    (hout : OutAt size (OutOpen size True False []) s) :
    Clear size s.readOut ∧ outView s.readOut = outView s := by
  have hread : ∀ t, InAt size (InOpen size False False []) t →
      InAt size (InOpen size False False []) (t.happen (.call .dataRead)) ∧
        (t.happen (.call .dataRead)).link = { t.link with dataInAvailable := false } := by
    intro t ht
    rw [happen_dataRead]
    have hread : wp (InRely size False fun _ => True) _ _ _ t := wp_spilsDataRead ht
    refine ⟨wp_post hread, ?_⟩
    cases hav : t.link.dataInAvailable with
    | true => exact (run_spilsDataRead_some hav ht.view.core.locked).2
    | false =>
      rw [run_spilsDataRead_none hav]
      show t.link = _
      rw [← hav]
  obtain ⟨h1, hl1⟩ := hread s hin
  have hpoll : InAt size (InOpen size False False [])
      ((s.happen (.call .dataRead)).happen (.call .poll)) ∧
        ((s.happen (.call .dataRead)).happen (.call .poll)).link.lineInBusy = false := by
    have hpoll : wp (InRely size False fun _ => True) _ _ _ (s.happen (.call .dataRead)) := wp_spilsPoll h1
    refine ⟨wp_post hpoll, ?_⟩
    have hframe : ConFrame (InAt size fun v => InOpen size False False [] v ∧ v.avail = false) := conFrame_inAt _
    have hcon := hframe.conMachine.run ⟨h1.shape, h1.rx, h1.view, by
      show (s.happen (.call .dataRead)).link.dataInAvailable = false
      rw [hl1]⟩
    show ((conMachine >>= fun _ => lineInBusyProcess).run (s.happen (.call .dataRead))).2.link.lineInBusy = false
    rw [Prog.run_bind]
    have hc : InAt size (InOpen size False False []) (conMachine.run (s.happen (.call .dataRead))).2 :=
      hcon.mono fun _ hv => hv.1
    exact run_lineInBusyProcess hc.view.core.locked (load_inB_of_available hc hcon.view.2)
  obtain ⟨h3, hl3⟩ := hread _ hpoll.1
  have hbase : Base size s.readOut := by
    have hk : ∀ k t, Base size t → Base size (t.happen (.call k)) :=
      fun k _ ht => ((frame_base_only size).linkProg k).run ht
    exact hk _ _ (hk _ _ (hk _ _ hB))
  have hsame : ∀ t, OutAt size (fun v => v = outView s) t →
      OutAt size (fun v => v = outView s) (t.happen (.call .dataRead)) := by
    intro t ht
    rw [happen_dataRead]
    exact (inFrame_outAt size _).spilsDataRead.run ht
  have hview : OutAt size (fun v => v = outView s) s.readOut := by
    refine hsame _ ?_
    have hpollSame : Keeps (OutAt size fun v => v = outView s) spilsPoll :=
      .bind (conFrame_outAt size _).conMachine fun _ => (inFrame_outAt size _).lineInBusyProcess
    exact hpollSame.run (hsame s ⟨hout.shape, rfl⟩)
  refine ⟨⟨hbase, h3, ⟨hview.shape, ?_⟩, ?_, ?_⟩, hview.view⟩
  · rw [hview.view]
    exact hout.view
  · show ((Sys.happen _ (.call .dataRead)).link).dataInAvailable = false
    rw [hl3]
  · show ((Sys.happen _ (.call .dataRead)).link).lineInBusy = false
    rw [hl3]
    exact hpoll.2

/-- What every interrupt leaves as it is. -/
theorem Clear.pulse (h : Clear size s) (e : Edge) : Base size (s.pulse e) ∧
    InAt size (InOpen size False False []) (s.pulse e) ∧ OutAt size (OutOpen size True False []) (s.pulse e) := by
  refine ⟨h.base.run_irq (.edge e), ?_, ?_⟩
  · have hrely : InRely size False (fun _ => True) s (s.pulse e) :=
      inRely_irq h.base (.edge e) (fun hf => hf.elim) fun _ _ _ => trivial
    exact stable_open _ _ hrely h.inbound
  · exact stable_outOpen _ _ (outRely_irq h.base (.edge e) fun hf => hf.elim) h.outbound

/-- A transfer that moves nothing into `p_buffer_in` leaves it clear, and the next one is listened to. -/
theorem Clear.finish {k : HalMcuSpi} (h : Clear size s) (heq : s.pulse e = p.finish st ready k)
    (ha : p.link.dataInAvailable = false) (hb : p.link.lineInBusy = false) :
    Clear size (s.pulse e) ∧ (s.pulse e).link.lineInIsSaturated = false ∧ (s.pulse e).link.state = st.settled := by
  obtain ⟨hB, hin, hout⟩ := h.pulse e
  have hlink : (s.pulse e).link =
      { p.link with state := st.settled, lineInIsSaturated := decide (p.cacheB.getLoadsize ≠ 0) } := by
    rw [heq, link_finish]
  have hbusy : (s.pulse e).link.lineInBusy = false := by
    rw [hlink]
    exact hb
  have hcache : (s.pulse e).cacheB = p.cacheB := by
    unfold Sys.cacheB
    rw [hlink, heq, pool_finish]
  have hidle := hin.view.core.idle hbusy
  have hm := hin.view.core.cacheMod
  rw [cacheL_inView hin.shape] at hidle hm
  have hload : p.cacheB.getLoadsize = 0 := hcache ▸ (Buffer.getLoadsize_eq_zero hm).mpr hidle
  refine ⟨⟨hB, hin, hout, ?_, hbusy⟩, ?_, ?_⟩
  · rw [hlink]
    exact ha
  · rw [hlink, hload]
    rfl
  · rw [hlink]

/-- A transfer with a byte in it is refused, or what came is looked at. -/
theorem Clear.transfer (h : Clear size s) (hne : s.received e ≠ []) :
    (∃ (r : UInt8) (k : HalMcuSpi), ArmedFor ((s.begun e).answer r) k ∧
        s.pulse e = ((s.begun e).answer r).finish .listeningStart false k ∧
        (s.link.lineInIsSaturated = true ∨ s.reported e < messHeaderSize)) ∨
      ∃ (t p : Sys) (st : SpilsState) (ready : Bool) (k : HalMcuSpi), Taken size s e t ∧
        Dispatched t p st ready ∧ ArmedFor p k ∧
        s.pulse e = p.finish st ready k := by
  cases h.base.run_edge e with
  | again k silent => exact absurd silent hne
  | done p st ready k valid resend processed armed eq =>
    cases processed with
    | refused busy =>
      rw [link_begun] at busy
      have hsat : (s.link.lineInBusy || s.link.lineInIsSaturated) = true := busy
      rw [h.busy, Bool.false_or] at hsat
      exact .inl ⟨_, k, armed, eq, .inl hsat⟩
    | short free len => exact .inl ⟨_, k, armed, eq, .inr len⟩
    | taken free len dispatched =>
      exact .inr ⟨_, p, st, ready, k, taken h.base h.inbound.rx free len, dispatched, armed, eq⟩

/-- A refused transfer leaves all as it is. -/
theorem Clear.refused {r : UInt8} {k : HalMcuSpi} (h : Clear size s)
    (heq : s.pulse e = ((s.begun e).answer r).finish .listeningStart false k) :
    Clear size (s.pulse e) ∧ (s.pulse e).link.lineInIsSaturated = false ∧
      (s.pulse e).link.state = .listening := by
  have hlink : ((s.begun e).answer r).link = { s.link with connectionDetected := true } := link_begun s e
  refine h.finish heq ?_ ?_
  · rw [hlink]
    exact h.available
  · rw [hlink]
    exact h.busy

/-- The head of a message that is only a header. -/
theorem Taken.bare {type : UInt8} (h : Taken size s e t) (hm : s.cacheB.look.Mod size) (hw : e.wire = [2, type]) :
    t.head = (2, type) ∧ t.cacheB.getLoadsize = 2 := by
  have hh := (h.arrived.header (h.old.sized _)).2
  rw [hw] at hh
  have htwo := h.arrived.two_le
  have hle := length_received_wire s e
  rw [hw] at hle
  refine ⟨(Option.some.inj hh).symm, ?_⟩
  rw [h.loadsize hm]
  exact Nat.le_antisymm hle htwo

/-- It passes the check of a start message. -/
theorem Taken.good {type : UInt8} (h : Taken size s e t) (hm : s.cacheB.look.Mod size) (hw : e.wire = [2, type]) :
    ¬(t.head.1.toNat ≠ messHeaderSize ∨ t.cacheB.getLoadsize < t.head.1.toNat) := by
  obtain ⟨hhead, hload⟩ := h.bare hm hw
  rw [hhead, hload]
  simp [messHeaderSize]

/-- The exchange that a transfer completes. -/
theorem exchanges_finish {xs : List Exchange} (hh : heard p.ghost.trace = ⟨some e.wire, xs⟩) (k : HalMcuSpi) :
    (heard (p.finish st ready k).ghost.trace).exchanges = xs ++ [⟨e.wire, p.outMess, st⟩] := by
  obtain ⟨l, htrace, hl⟩ := trace_finish p st ready k
  rw [htrace, List.append_cons, heard_append_local _ fun x hx => (hl x hx).local, heard_append, hh]
  rfl

/-- With the cache recycled the whole of it is armed. -/
theorem rxLen_recycled (h : Shape size t) (r : UInt8) : (t.recycleIn.answer r).rxLen = size := by
  have hcache : (t.recycleIn.answer r).cacheB = t.cacheB.recycle := by
    show ((t.recycleIn.pool.set t.link.pBufferOutCache _).get t.link.pBufferInCache) = _
    rw [Pool.get_set_of_ne _ _ h.sides.1.symm]
    exact Pool.get_set_self _ _ _
  have hle := h.size_le
  have hbytes : t.cacheB.size = size := (h.sized _).size_eq
  unfold Sys.rxLen
  rw [hcache, if_neg (show ¬t.cacheB.recycle.getLoadsize ≠ 0 from not_not.mpr rfl)]
  show u16 ((t.cacheB.size : ℤ) - (0 : ℕ)) = size
  rw [hbytes]
  unfold u16
  omega

/-- **An announcement** leaves the link clear; one that is taken in is answered `RESULT_OK`, and the link
waits for data with the whole cache. -/
theorem Clear.announce (h : Clear size s) (hw : e.wire = [2, MessType.masterDataSendStart])
    (hne : s.received e ≠ []) :
    (Clear size (s.pulse e) ∧ (s.pulse e).link.lineInIsSaturated = false) ∧
      (s.link.lineInIsSaturated = false → s.reported e = messHeaderSize →
        (s.pulse e).link.state = .dataReceiving ∧ (s.pulse e).spi.dataInLen ≠ 0 ∧
        (heard (s.pulse e).ghost.trace).exchanges =
          (heard s.ghost.trace).exchanges ++ [⟨e.wire, [2, MessType.resultOk], .dataReceiveStart⟩]) := by
  have hm := h.inbound.view.core.cacheMod
  rw [cacheL_inView h.inbound.shape] at hm
  rcases h.transfer hne with ⟨r, k, -, heq, hwhy⟩ | ⟨t, p, st, ready, k, htaken, hd, harmed, heq⟩
  · obtain ⟨hclear, hsat, -⟩ := h.refused heq
    refine ⟨⟨hclear, hsat⟩, fun hno hrep => ?_⟩
    rcases hwhy with hyes | hshort
    · rw [hno] at hyes
      cases hyes
    · omega
  · obtain ⟨hhead, hload⟩ := htaken.bare hm hw
    have hgood := htaken.good hm hw
    have htype : t.head.2 = MessType.masterDataSendStart := by rw [hhead]
    obtain ⟨rfl, rfl, rfl⟩ : p = t.recycleIn.answer MessType.resultOk ∧ st = .dataReceiveStart ∧ ready = false := by
      cases hd with
      | startOk => exact ⟨rfl, rfl, rfl⟩
      | startErr _ bad => exact absurd bad hgood
      | recvErr type | recvBusy type | recvOk type | dataErr type | dataBusy type | dataEmpty type
      | dataOk type => exact absurd (htype.symm.trans type) (by decide)
      | renewed type | dataReady type | ready type => exact absurd htype type.1
    have hlink : (t.recycleIn.answer MessType.resultOk).link = { s.link with connectionDetected := true } :=
      htaken.link
    have hclear := h.finish heq (by rw [hlink]; exact h.available) (by rw [hlink]; exact h.busy)
    refine ⟨⟨hclear.1, hclear.2.1⟩, fun _ _ => ⟨hclear.2.2, ?_, ?_⟩⟩
    · have hsize := htaken.shape.two_le
      rw [heq, spi_finish, harmed.dataInLen, rxLen_recycled htaken.shape]
      omega
    · rw [heq, exchanges_finish (p := t.recycleIn.answer MessType.resultOk) htaken.heard,
        outMess_answer htaken.shape.recycleIn]

/-- **A DATA message** that was announced is answered `RESULT_OK`, and the next read returns its payload. -/
theorem Clear.accept (h : Clear size s) {payload : Bytes} (hsat : s.link.lineInIsSaturated = false)
    (hst : s.link.state = .dataReceiving) (hlen : s.spi.dataInLen ≠ 0) (hw : e.wire = messageOf payload)
    (hwhole : s.received e = e.wire) (hne : payload ≠ []) (hfit : payload.length + 2 ≤ 255) :
    (heard (s.pulse e).ghost.trace).exchanges =
        (heard s.ghost.trace).exchanges ++ [⟨e.wire, [2, MessType.resultOk], .listeningStart⟩] ∧
      (spilsDataRead.run (s.pulse e)).1 = ⟨.ok, some payload.length, payload⟩ := by
  have hm := h.inbound.view.core.cacheMod
  rw [cacheL_inView h.inbound.shape] at hm
  have hwire : e.wire.length = payload.length + 2 := by rw [hw]; rfl
  have hpos : 0 < payload.length := List.length_pos_iff.mpr hne
  have hrep : s.reported e = payload.length + 2 := by
    unfold Sys.reported
    rw [if_neg hlen, hwhole, hwire]
  have hne' : s.received e ≠ [] := by
    rw [hwhole, hw]
    exact List.cons_ne_nil _ _
  rcases h.transfer hne' with ⟨r, k, -, heq, hyes | hshort⟩ | ⟨t, p, st, ready, k, htaken, hd, harmed, heq⟩
  · rw [hsat] at hyes
    cases hyes
  · unfold messHeaderSize at hshort
    omega
  have hhead : t.head = (UInt8.ofNat (2 + payload.length), MessType.data) := by
    have hh := (htaken.arrived.header (htaken.old.sized _)).2
    rw [hw] at hh
    exact (Option.some.inj hh).symm
  have htype : t.head.2 = MessType.data := by rw [hhead]
  have hnat : t.head.1.toNat = payload.length + 2 := by
    rw [hhead]
    show (2 + payload.length) % 256 = _
    omega
  have hwholeHead : t.head.1.toNat ≤ t.cacheB.getLoadsize := by
    rw [htaken.loadsize hm, hwhole, hwire]
    exact Nat.le_of_eq hnat
  have hstate : t.link.state = .dataReceiving := by
    rw [htaken.link]
    exact hst
  have hfree : t.link.mutexIn = false := by
    rw [htaken.link]
    exact h.inbound.view.core.locked
  obtain ⟨l, hl⟩ := htaken.cut hm hwholeHead
  have hroom : t.shapeIn.inB.getLoadsize = 0 :=
    (htaken.load_inB h.inbound.view.core.ne).trans (load_inB_of_available h.inbound h.available)
  obtain ⟨rfl, rfl, rfl⟩ : p = t.shapeIn.swapIn.recycleIn.answer MessType.resultOk ∧ st = .listeningStart ∧
      ready = true := by
    cases hd with
    | dataOk => exact ⟨rfl, rfl, rfl⟩
    | dataErr _ bad => exact absurd bad (not_or.mpr ⟨not_not.mpr hstate, Nat.not_lt.mpr hwholeHead⟩)
    | dataBusy _ _ _ full =>
      rcases full with hlock | hfull
      · rw [hfree] at hlock
        cases hlock
      · exact absurd hroom hfull.2
    | dataEmpty _ _ _ _ empty =>
      have h2 := hl.empty_iff.mp empty
      omega
    | startErr type | startOk type | recvErr type | recvBusy type | recvOk type =>
      exact absurd (htype.symm.trans type) (by decide)
    | renewed type | dataReady type | ready type => exact absurd htype type.2.2
  have hshape : Shape size t.shapeIn.swapIn.recycleIn := htaken.shape.shapeIn.swapIn.recycleIn
  refine ⟨?_, ?_⟩
  · rw [heq, exchanges_finish (p := t.shapeIn.swapIn.recycleIn.answer MessType.resultOk) htaken.heard,
      outMess_answer hshape]
  -- what is in `p_buffer_in` is the payload
  have hin : (s.pulse e).inB = t.shapeIn.cacheB := by
    rw [← htaken.inB_moved MessType.resultOk h.inbound.view.core.ne]
    unfold Sys.inB
    rw [heq, link_finish, pool_finish]
  have hav : (s.pulse e).link.dataInAvailable = true := by
    rw [heq, link_finish]
    rfl
  have hread := hl.read
  have hwrite := hl.write
  have hmod := hl.mod
  have hle : l.readPos ≤ l.writePos := by omega
  have hload : t.shapeIn.cacheB.getLoadsize = payload.length := by
    show u8 t.shapeIn.cacheB.look.loadsize = _
    rw [hl.look, hmod.load_exact hle]
    omega
  have hcontent : t.shapeIn.cacheB.content = payload := by
    show t.shapeIn.cacheB.look.content = payload
    rw [hl.look, hl.content, hnat, ← hwire, List.take_length, hw]
    rfl
  have hdata : (t.shapeIn.cacheB.data.drop t.shapeIn.cacheB.readPos).take payload.length = payload := by
    have hdiff : t.shapeIn.cacheB.writePos - t.shapeIn.cacheB.readPos = payload.length := by
      show t.shapeIn.cacheB.look.writePos - t.shapeIn.cacheB.look.readPos = _
      rw [hl.look]
      omega
    rw [← hdiff]
    exact hcontent
  rw [(run_spilsDataRead_some hav (h.pulse e).2.1.view.core.locked).1, hin, hload, hdata]

/-! ### The message that waits -/

/-- The waiting message has been armed, and nothing waits. -/
def Fetched (v v' : OutView) : Prop := v'.log.sent = v.log.sent ++ v.waiting ∧ v'.avail = false

/-- Nothing was fetched. -/
structure Unfetched (v v' : OutView) : Prop where
  sent : v'.log.sent = v.log.sent
  waiting : v'.waiting = v.waiting
  avail : v'.avail = v.avail

theorem waiting_of_avail {g k : Prop} {fl : List Bytes} (h : OutOpen size g k fl v) (ha : v.avail = false) :
    v.waiting = [] := by
  refine if_neg fun hl => ?_
  rw [h.avail.mpr hl] at ha
  cases ha

/-- In `DATA_SENDING` with nothing available, what was waiting has been armed. -/
theorem OutEff.fetched {dn : Prop} {v' : OutView} (he : OutEff size dn v v')
    (h : OutOpen size True False [] v) (hst : v'.state = .dataSending) (ha : v'.avail = false) : Fetched v v' := by
  refine ⟨?_, ha⟩
  cases he with
  | same => rw [waiting_of_avail h ha, List.append_nil]
  | answered l st hl hor =>
    have hst : st = .dataSending := hst
    rcases hor with rfl | rfl <;> cases hst
  | dummied l out n hl hout hfree hno =>
    have hnone : v.waiting = [] := if_neg hno
    rw [hnone, List.append_nil]
    show (v.log.step (.armed out n .dataSendStart .ok)).sent = v.log.sent
    rw [OutLog.step_dummy hout]
  | sent b n hfree hl =>
    have hwait : v.waiting = [v.outB.content] := if_pos hl
    rw [hwait]
    show (v.log.step (.armed v.outB.content n .dataSendStart .ok)).sent = v.log.sent ++ [v.outB.content]
    rw [OutLog.step_message (h.big (.inl trivial) hl)]

/-- A transfer that ends in `LISTENING` fetches nothing. -/
theorem OutEff.unfetched {dn : Prop} {v' : OutView} (he : OutEff size dn v v') (hst : v'.state = .listening) :
    Unfetched v v' := by
  cases he with
  | same => exact ⟨rfl, rfl, rfl⟩
  | answered => exact ⟨rfl, rfl, rfl⟩
  | dummied => cases hst
  | sent => cases hst

/-- **A request** fetches what waits, or leaves it for the next one. -/
theorem Clear.request (h : Clear size s) (hw : e.wire = [2, MessType.masterDataRecvStart]) :
    Clear size (s.pulse e) ∧
      (Fetched (outView s) (outView (s.pulse e)) ∨ Unfetched (outView s) (outView (s.pulse e)) ∧
        (s.received e ≠ [] → (s.pulse e).link.state = .listening ∧ (s.pulse e).link.lineInIsSaturated = false)) ∧
      (s.link.lineInIsSaturated = false → s.reported e = messHeaderSize → s.received e ≠ [] →
        Fetched (outView s) (outView (s.pulse e))) := by
  have hm := h.inbound.view.core.cacheMod
  rw [cacheL_inView h.inbound.shape] at hm
  have hout := h.outbound.view
  have heff := (outRely_irq (k := False) h.base (.edge e) fun hf => hf.elim).2 hout.core.wf
  obtain ⟨hB, hin, hout'⟩ := h.pulse e
  by_cases hne : s.received e = []
  · -- the same transfer goes on
    obtain ⟨k, heq⟩ : ∃ k, s.pulse e = (s.clockIn e).mapSpi fun _ => k := by
      cases h.base.run_edge e with
      | again k silent armed same eq => exact ⟨k, eq⟩
      | done p st ready k valid => exact absurd hne valid
    have hlink : (s.pulse e).link = s.link := by
      rw [heq]
      exact (link_clockIn s e).1
    have hlog : (outView (s.pulse e)).log = (outView s).log := by
      show outLog (s.pulse e).ghost.trace = outLog s.ghost.trace
      rw [heq, Sys.ghost_mapSpi, (link_clockIn s e).2.2.2]
    refine ⟨⟨hB, hin, hout', ?_, ?_⟩, .inr ⟨⟨congrArg OutLog.sent hlog, ?_, ?_⟩, fun hf => absurd hne hf⟩,
      fun _ _ hf => absurd hne hf⟩
    · rw [hlink]
      exact h.available
    · rw [hlink]
      exact h.busy
    · have hbuf : (s.pulse e).outB = s.outB := by
        unfold Sys.outB
        rw [hlink, heq]
        exact get_clockIn_out h.base e h.base.shape.outBuf
      unfold OutView.waiting
      rw [show (outView (s.pulse e)).outB = (outView s).outB from hbuf]
    · show (s.pulse e).link.dataOutAvailable = _
      rw [hlink]
      rfl
  rcases h.transfer hne with ⟨r, k, -, heq, hwhy⟩ | ⟨t, p, st, ready, k, htaken, hd, harmed, heq⟩
  · obtain ⟨hclear, hsat, hst⟩ := h.refused heq
    refine ⟨hclear, .inr ⟨OutEff.unfetched heff hst, fun _ => ⟨hst, hsat⟩⟩, fun hno hrep _ => ?_⟩
    rcases hwhy with hyes | hshort
    · rw [hno] at hyes
      cases hyes
    · omega
  · obtain ⟨hhead, hload⟩ := htaken.bare hm hw
    have hgood := htaken.good hm hw
    have htype : t.head.2 = MessType.masterDataRecvStart := by rw [hhead]
    have hfree : t.link.mutexOut = false := by
      rw [htaken.link]
      exact hout.core.locked
    obtain ⟨rfl, rfl, rfl⟩ : p = t.moveOut.dummyIfEmpty.recycleIn ∧ st = .dataSendStart ∧ ready = false := by
      cases hd with
      | recvOk => exact ⟨rfl, rfl, rfl⟩
      | recvErr _ bad => exact absurd bad hgood
      | recvBusy _ _ locked =>
        rw [hfree] at locked
        cases locked
      | startErr type | startOk type | dataErr type | dataBusy type | dataEmpty type
      | dataOk type => exact absurd (htype.symm.trans type) (by decide)
      | renewed type | dataReady type | ready type => exact absurd htype type.2.1
    have hfield : ∀ f : Spils → Bool, (∀ s : Sys, f s.swapOut.link = f s.link ∧
        f (s.mapLink fun l => { l with dataOutAvailable := false }).link = f s.link) →
        f (t.moveOut.dummyIfEmpty.recycleIn).link = f t.link := fun f hf =>
      field_moveOut_dummyIfEmpty (fun s => f s.link) (fun _ _ _ => rfl) hf t
    have hclear := h.finish heq (by
      rw [hfield Spils.dataInAvailable fun _ => ⟨rfl, rfl⟩, htaken.link]
      exact h.available) (by
      rw [hfield Spils.lineInBusy fun _ => ⟨rfl, rfl⟩, htaken.link]
      exact h.busy)
    have hnone : (s.pulse e).link.dataOutAvailable = false := by
      rw [heq, link_finish]
      exact field_dummyIfEmpty (fun s => s.link.dataOutAvailable) (fun _ _ _ => rfl) t.moveOut
    have hfetched : Fetched (outView s) (outView (s.pulse e)) := OutEff.fetched heff hout hclear.2.2 hnone
    exact ⟨hclear.1, .inl hfetched, fun _ _ _ => hfetched⟩

end Clear

/-! ## From any state -/

section Runs

variable {s₀ : Sys} {c : Cfg Sys LinkCall}

theorem received_of_reported {s : Sys} {e : Edge} (h : s.reported e ≠ 0) : s.received e ≠ [] := by
  intro hnil
  rcases s.reported_cases e with hrep | ⟨-, hrep⟩
  · exact h hrep
  · rw [hnil] at hrep
    exact h hrep

/-- What an idle link looks like after it was read out. -/
theorem clear_reached (h₀ : Initial s₀) (hc : (linkMachine SendOk fun _ _ => True).Reach s₀ c)
    (hq : c.irq = none) (hm : c.main = none) :
    ∃ size, size ≤ 255 ∧ c.st.link.messageSizeMax + 2 = size ∧ Clear size c.st.readOut ∧
      outView c.st.readOut = outView c.st := by
  obtain ⟨conf, hw, slave, hok, rfl⟩ := h₀
  set size := conf.messageSizeMax + 2
  obtain ⟨s, m, q⟩ := c
  obtain rfl : q = none := hq
  obtain rfl : m = none := hm
  have hin := (outline_inbound (g := False) SendOk (fun _ _ => True) size fun _ _ _ hf => hf.elim).idle
    ⟨inAt_start hok hw slave, base_start hok hw slave⟩ hc
  have hout := (outline_outbound (C := SendOk) (g := True) (fun _ _ => True) size
    fun _ _ _ hs h _ => SendOk.fits hs h).idle ⟨outAt_start hok hw slave, base_start hok hw slave⟩ hc
  have hclear := clear_readOut hin.2 (hin.1.mono fun _ hv => hv.mono fun hf => hf.elim) hout.1
  exact ⟨size, hin.2.shape.size_le, hin.2.shape.size_eq, hclear⟩

/-- **The master gets through**: from every state between two calls of every run in which `spils_data_send` is
given 1 to `message_size_max` bytes, once the link has been read out, and with no call or interrupt in between, the
second of two announcements is answered `RESULT_OK`, the DATA message after it too, and the next read returns its
payload. -/
theorem link_recovers (h₀ : Initial s₀) (hc : (linkMachine SendOk fun _ _ => True).Reach s₀ c)
    (hq : c.irq = none) (hm : c.main = none) {e₁ e₂ e₃ : Edge} {payload : Bytes}
    (hw₁ : e₁.wire = [2, MessType.masterDataSendStart]) (hw₂ : e₂.wire = [2, MessType.masterDataSendStart])
    (hw₃ : e₃.wire = messageOf payload) (hne : payload ≠ []) (hfit : payload.length ≤ c.st.link.messageSizeMax)
    (hr₁ : c.st.readOut.received e₁ ≠ [])
    (hr₂ : (c.st.readOut.pulse e₁).reported e₂ = messHeaderSize)
    (hr₃ : ((c.st.readOut.pulse e₁).pulse e₂).received e₃ = e₃.wire) :
    (heard (((c.st.readOut.pulse e₁).pulse e₂).pulse e₃).ghost.trace).exchanges =
        (heard (c.st.readOut.pulse e₁).ghost.trace).exchanges ++
          [⟨e₂.wire, [2, MessType.resultOk], .dataReceiveStart⟩,
            ⟨e₃.wire, [2, MessType.resultOk], .listeningStart⟩] ∧
      (spilsDataRead.run (((c.st.readOut.pulse e₁).pulse e₂).pulse e₃)).1 =
        ⟨.ok, some payload.length, payload⟩ := by
  obtain ⟨size, hsize, hmax, hclear, -⟩ := clear_reached h₀ hc hq hm
  obtain ⟨⟨h₁, hsat₁⟩, -⟩ := hclear.announce hw₁ hr₁
  have hsome : (c.st.readOut.pulse e₁).received e₂ ≠ [] := received_of_reported (by rw [hr₂]; decide)
  obtain ⟨⟨h₂, hsat₂⟩, hheard⟩ := h₁.announce hw₂ hsome
  obtain ⟨hst, hlen, hx₂⟩ := hheard hsat₁ hr₂
  obtain ⟨hx₃, hread⟩ := h₂.accept hsat₂ hst hlen hw₃ hr₃ hne (by omega)
  refine ⟨?_, hread⟩
  rw [hx₃, hx₂, List.append_assoc]
  rfl

/-- **What waits is fetched**: from every state between two calls of every run in which `spils_data_send` is given
1 to `message_size_max` bytes, once the link has been read out, and with no call or interrupt in between, of the
DATA messages with a payload two requests arm the one that waits, once, and no other. -/
theorem waiting_fetched (h₀ : Initial s₀) (hc : (linkMachine SendOk fun _ _ => True).Reach s₀ c)
    (hq : c.irq = none) (hm : c.main = none) {e₁ e₂ : Edge}
    (hw₁ : e₁.wire = [2, MessType.masterDataRecvStart]) (hw₂ : e₂.wire = [2, MessType.masterDataRecvStart])
    (hr₁ : c.st.readOut.received e₁ ≠ [])
    (hr₂ : (c.st.readOut.pulse e₁).link.state = .listening →
      (c.st.readOut.pulse e₁).reported e₂ = messHeaderSize) :
    (outLog ((c.st.readOut.pulse e₁).pulse e₂).ghost.trace).sent =
        (outLog c.st.ghost.trace).sent ++
          (if c.st.link.dataOutAvailable = true then [c.st.outB.content] else []) ∧
      ((c.st.readOut.pulse e₁).pulse e₂).link.dataOutAvailable = false := by
  obtain ⟨size, -, -, hclear, hview⟩ := clear_reached h₀ hc hq hm
  have hopen := hclear.outbound.view
  have hwait : (outView c.st.readOut).waiting =
      if c.st.link.dataOutAvailable = true then [c.st.outB.content] else [] := by
    rw [hview] at hopen ⊢
    exact if_congr hopen.avail.symm rfl rfl
  have hsent : (outView c.st.readOut).log.sent = (outLog c.st.ghost.trace).sent := by rw [hview]; rfl
  rw [← hwait, ← hsent]
  obtain ⟨h₁, hfirst, -⟩ := hclear.request hw₁
  obtain ⟨-, hsecond, htaken⟩ := h₁.request hw₂
  rcases hfirst with ⟨hs₁, ha₁⟩ | ⟨hun, hlisten⟩
  · -- the first request has fetched it, and nothing waits for the second
    have hnone := waiting_of_avail h₁.outbound.view ha₁
    rcases hsecond with ⟨hs₂, ha₂⟩ | ⟨hun, -⟩
    · rw [hnone, List.append_nil, hs₁] at hs₂
      exact ⟨hs₂, ha₂⟩
    · exact ⟨hun.sent.trans hs₁, hun.avail.trans ha₁⟩
  · -- the first was refused, and the second fetches it
    obtain ⟨hst, hsat⟩ := hlisten hr₁
    have hrep := hr₂ hst
    have hsome : (c.st.readOut.pulse e₁).received e₂ ≠ [] := received_of_reported (by rw [hrep]; decide)
    obtain ⟨hs₂, ha₂⟩ := htaken hsat hrep hsome
    rw [hun.sent, hun.waiting] at hs₂
    exact ⟨hs₂, ha₂⟩

/-- A link whose line is saturated: two messages wait for the main loop, and a third was announced. -/
def sampleSaturated : Sys × Option (LinkCall × Code Unit) :=
  (linkMachine SendOk fun _ _ => True).play
    [.call (.dataSend (some [5, 6]) 2), .go 40, .irq (.edge (.of [2, 1])), .irq (.edge (.of [3, 3, 7])),
      .irq (.edge (.of [2, 1])), .irq (.edge (.of [3, 3, 8])), .irq (.edge (.of [2, 1]))] (sampleLink, none)

theorem reach_sampleSaturated :
    (linkMachine SendOk fun _ _ => True).Reach sampleLink ⟨sampleSaturated.1, sampleSaturated.2, none⟩ :=
  .play (c := (sampleLink, none)) _ .init (by decide +kernel)

theorem link_recovers_saturated :
    sampleSaturated.1.link.lineInBusy = true ∧
      (spilsDataRead.run (((sampleSaturated.1.readOut.pulse (.of [2, 1])).pulse (.of [2, 1])).pulse
        (.of [4, 3, 7, 9]))).1 = ⟨.ok, some 2, [7, 9]⟩ :=
  ⟨by decide +kernel, (link_recovers sampleLink_initial reach_sampleSaturated rfl (by decide +kernel) rfl rfl
    (show (Edge.of [4, 3, 7, 9]).wire = messageOf [7, 9] from rfl) (by decide) (by decide +kernel)
    (by decide +kernel) (by decide +kernel) (by decide +kernel)).2⟩

theorem waiting_fetched_saturated :
    (outLog ((sampleSaturated.1.readOut.pulse (.of [2, 2])).pulse (.of [2, 2])).ghost.trace).sent =
      (outLog sampleSaturated.1.ghost.trace).sent ++ [[4, 3, 5, 6]] := by
  have hwire : (Edge.of [2, 2]).wire = [2, MessType.masterDataRecvStart] := rfl
  have h := (waiting_fetched sampleLink_initial reach_sampleSaturated rfl (by decide +kernel) hwire hwire
    (by decide +kernel) fun _ => by decide +kernel).1
  rw [if_pos (by decide +kernel)] at h
  refine h.trans (congrArg _ ?_)
  decide +kernel

end Runs

end NeuronWired
