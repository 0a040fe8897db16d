import NeuronWired.MoveResult

/-!
# Announced — every `DATA_IN_READY` and the payload it stands for

`DATA_IN_READY` is raised in two places: by the interrupt that moves a message to `p_buffer_in`, and by
`_line_in_busy_process` after it has moved one that was put off.  In a run in which every DATA message past
the length check carries a payload, `line_in_busy` stands for a message that is accepted and not yet
announced, so the events and the payloads that come to `p_buffer_in` can be counted against each other.
-/

namespace NeuronWired

open Interrupt

/-! ## The count -/

/-- The assertion has not failed, and `n` payloads have been accepted and moved without an event. -/
structure Owes (n : ℕ) (s : Sys) : Prop where
  asserted : s.moveFailures = 0
  count : (acked s.ghost.trace).length = s.dataInReadies + s.link.lineInBusy.toNat + n

/-- Under `line_in_busy` there is a message in the cache. -/
def Full (s : Sys) : Prop := s.link.lineInBusy = true → s.cacheB.getLoadsize ≠ 0

/-- Every payload that has come to `p_buffer_in` has been announced. -/
structure AllTold (s : Sys) : Prop where
  owes : Owes 0 s
  full : Full s

/-- One payload has come to `p_buffer_in` and is about to be announced. -/
structure Untold (s : Sys) : Prop where
  owes : Owes 1 s
  full : Full s
  available : s.link.dataInAvailable = true

/-- What holds all through a call. -/
def Counted (s : Sys) : Prop := Owes 0 s ∨ (Owes 1 s ∧ s.link.dataInAvailable = true)

theorem AllTold.counted {s : Sys} (h : AllTold s) : Counted s := .inl h.owes

theorem Untold.counted {s : Sys} (h : Untold s) : Counted s := .inr ⟨h.owes, h.available⟩

section Frames

variable {n : ℕ} {s s' : Sys} {Φ : InView → Prop} {size : ℕ}

theorem Owes.congr (h : Owes n s) (ht : s'.ghost.trace = s.ghost.trace)
    (hb : s'.link.lineInBusy = s.link.lineInBusy) : Owes n s' := by
  obtain ⟨h1, h2⟩ := h
  refine ⟨?_, ?_⟩
  · rw [(counts_congr ht).1]
    exact h1
  · rw [(counts_congr ht).2, ht, hb]
    exact h2

theorem AllTold.congr (h : AllTold s) (ht : s'.ghost.trace = s.ghost.trace)
    (hb : s'.link.lineInBusy = s.link.lineInBusy) (hc : s'.cacheB = s.cacheB) : AllTold s' := by
  refine ⟨h.owes.congr ht hb, fun hbusy => ?_⟩
  rw [hc]
  exact h.full (hb.symm.trans hbusy)

theorem AllTold.log {x : Obs} (hx : x.Local) (hf : x ≠ moveFailed) (hr : x ≠ .event .dataInReady)
    (h : AllTold s) : AllTold (s.log x) := by
  obtain ⟨⟨h1, h2⟩, h3⟩ := h
  obtain ⟨hcf, hcr⟩ := counts_append (l := s.ghost.trace) rfl hf hr
  refine ⟨⟨hcf.trans h1, ?_⟩, h3⟩
  show (acked (s.ghost.trace ++ [x])).length = (s.ghost.trace ++ [x]).count (.event .dataInReady) + _ + 0
  rw [acked_local hx, hcr]
  exact h2

/-- The event that was owed. -/
theorem Untold.announce (h : Untold s) :
    AllTold ((s.mapSlave (spilsEventHandler .dataInReady)).log (.event .dataInReady)) := by
  obtain ⟨⟨h1, h2⟩, h3, -⟩ := h
  refine ⟨⟨?_, ?_⟩, h3⟩
  · show (s.ghost.trace ++ [_]).count moveFailed = 0
    rw [List.count_append, List.count_singleton, if_neg (by unfold moveFailed; simp)]
    exact h1
  · show (acked (s.ghost.trace ++ [Obs.event .dataInReady])).length =
      (s.ghost.trace ++ [Obs.event .dataInReady]).count (.event .dataInReady) + _ + 0
    rw [acked_local (x := .event .dataInReady) trivial, List.count_append]
    unfold Sys.dataInReadies at h2
    rw [h2]
    exact Nat.add_right_comm _ _ 1

theorem conFrame_told : ConFrame fun s => InAt size Φ s ∧ AllTold s where
  link s f hf h := by
    have hp : (f s.link).pBufferInCache = s.link.pBufferInCache := Spils.field_eq hf _ fun _ => rfl
    refine ⟨(conFrame_inAt Φ).link s f hf h.1, h.2.congr rfl (Spils.field_eq hf Spils.lineInBusy fun _ => rfl) ?_⟩
    exact congrArg s.pool.get hp
  event s e he h := by
    refine ⟨(conFrame_inAt Φ).event s e he h.1, ?_⟩
    have hslave : AllTold (s.mapSlave (spilsEventHandler e)) := h.2.congr rfl rfl rfl
    exact hslave.log trivial (by unfold moveFailed; simp) (by rcases he with rfl | rfl <;> simp)

/-- The assertions of the outbound code are others. -/
theorem sendFrame_told : SendFrame fun s => InAt size Φ s ∧ AllTold s where
  isOut s h := (outFrame_inAt Φ).isOut s h.1
  link s f hf h := by
    have hp : (f s.link).pBufferInCache = s.link.pBufferInCache := Spils.field_eq hf _ fun _ => rfl
    refine ⟨(outFrame_inAt Φ).link s f hf h.1, h.2.congr rfl (Spils.field_eq hf Spils.lineInBusy fun _ => rfl) ?_⟩
    exact congrArg s.pool.get hp
  buf s i b hi hb h := ⟨(outFrame_inAt Φ).buf s i b hi hb h.1,
    h.2.congr rfl rfl (Pool.get_set_of_ne _ _ (BufId.ne_of_isIn h.1.shape.inCache hi).symm)⟩
  filling s r h := ⟨(outFrame_inAt Φ).filling s r h.1, h.2.congr rfl rfl rfl⟩
  failed s msg hmsg h := by
    refine ⟨(outFrame_inAt Φ).failed s msg h.1, h.2.log trivial (fun hf => ?_) (by simp)⟩
    have hne : "Unexpected SPI Link _buffer_in_cache_data_move result" ∉ composeAsserts := by decide
    rw [Obs.assertFailed.inj hf] at hmsg
    exact hne hmsg

end Frames

/-! ## The interrupt -/

/-- What an interrupt does to the count, to the cache and to what the main loop holds. -/
structure Heeds (s s' : Sys) : Prop where
  asserted : s'.moveFailures = s.moveFailures
  count : (acked s'.ghost.trace).length + s.dataInReadies + s.link.lineInBusy.toNat =
    (acked s.ghost.trace).length + s'.dataInReadies + s'.link.lineInBusy.toNat
  full : s'.link.lineInBusy = true → s'.cacheB.getLoadsize ≠ 0 ∨
    s.link.lineInBusy = true ∧ s'.cacheB.getLoadsize = s.cacheB.getLoadsize
  busy : s.link.lineInBusy = true → s'.link.lineInBusy = true
  available : s.link.dataInAvailable = true → s'.link.dataInAvailable = true
  held : s.link.mutexIn = true → s'.link.mutexIn = true ∧
    s'.link.pBufferIn = s.link.pBufferIn ∧ s'.link.pBufferInCache = s.link.pBufferInCache

section Interrupts

variable {n size : ℕ} {s s' : Sys} {e : Edge}

theorem Owes.heeds (h : Owes n s) (hh : Heeds s s') : Owes n s' := by
  have hcount := hh.count
  rw [h.count] at hcount
  exact ⟨hh.asserted.trans h.asserted, by omega⟩

theorem Full.heeds (h : Full s) (hh : Heeds s s') : Full s' := by
  intro hbusy
  obtain hloaded | ⟨hb, hsame⟩ := hh.full hbusy
  · exact hloaded
  · rw [hsame]
    exact h hb

theorem AllTold.heeds (h : AllTold s) (hh : Heeds s s') : AllTold s' := ⟨h.owes.heeds hh, h.full.heeds hh⟩

theorem Untold.heeds (h : Untold s) (hh : Heeds s s') : Untold s' :=
  ⟨h.owes.heeds hh, h.full.heeds hh, hh.available h.available⟩

/-- What an interrupt that raises `r` events does to the inbound half, where a message past the check
carries a payload. -/
inductive Notes (r : ℕ) (v v' : InView) : Prop where
  | still (unready : r = 0) (pIn : v'.pIn = v.pIn) (cache : v'.busy = v.busy ∨ v'.cacheL.content ≠ [])
  | moved (ready : r = 1) (free : v.busy = false) (pIn : v'.pIn = v.pCache) (payload : v'.inL.content ≠ [])

/-- The outcomes of a message that carries a payload. -/
theorem MoveOutcome.notes {f r : ℕ} (h : MoveOutcome s e f r s') (hs : Shape size s') (hbare : ¬Bare s e) :
    f = 0 ∧ Notes r (inView s) (inView s') := by
  have hsome : ∀ {len}, PassesCheck s e len → s.payload e len ≠ [] := by
    intro len passes
    rw [passes.bare_iff] at hbare
    exact passes.payload_ne_nil.mpr (Nat.lt_of_not_le hbare)
  cases h with
  | refused none asserted unready still free => exact ⟨asserted, .still unready still (.inl free)⟩
  | putOff passes asserted unready full still busy content =>
    refine ⟨asserted, .still unready still (.inr ?_)⟩
    rw [cacheL_inView hs]
    show s'.cacheB.content ≠ []
    rw [content]
    exact hsome passes
  | failed bare failed =>
    obtain ⟨len, passes, -, heq⟩ := bare
    exact absurd ⟨len, passes, Nat.le_of_eq heq⟩ hbare
  | moved passes some asserted ready swapped content =>
    refine ⟨asserted, .moved ready passes.data.2.1 swapped.1 ?_⟩
    rw [inL_inView hs]
    show s'.inB.content ≠ []
    rw [content]
    exact hsome passes

theorem length_entry {p : Bytes} (hp : p ≠ []) : (entry p).length = 1 := by
  unfold entry
  rw [if_neg hp]
  rfl

/-- The two descriptions of an interrupt, as changes of the count. -/
structure BalancedBy (r : ℕ) (v v' : InView) : Prop where
  count : v'.acked.length + v.busy.toNat = v.acked.length + r + v'.busy.toNat
  full : v'.busy = true → v'.cacheL.Loaded ∨ v.busy = true ∧ v'.cacheL = v.cacheL
  busy : v.busy = true → v'.busy = true
  avail : v.avail = true → v'.avail = true
  held : v.locked = true → v'.locked = true ∧ v'.pIn = v.pIn ∧ v'.pCache = v.pCache

/-- They agree on which buffer `p_buffer_in` is. -/
theorem Notes.balanced {r : ℕ} {v v' : InView} {mv : Prop} (h : Notes r v v') (hw : InWf size v)
    (he : InEff size True mv v v') : BalancedBy r v v' := by
  cases he with
  | same =>
    cases h with
    | still unready => exact ⟨by rw [unready]; rfl, fun hb => .inr ⟨hb, rfl⟩, id, id, fun hl => ⟨hl, rfl, rfl⟩⟩
    | moved ready free pIn => exact absurd pIn (hw.free free).1
  | recycled flag hb =>
    cases h with
    | still unready =>
      refine ⟨by rw [unready]; rfl, fun hb' => ?_, id, id, fun hl => ⟨hl, rfl, rfl⟩⟩
      exact absurd (hb.symm.trans hb') (by decide)
    | moved ready free pIn => exact absurd pIn (hw.free free).1
  | kept l p hb hfull hm hg =>
    have hcache : ({ v.put v.pCache l with busy := true, acked := v.acked ++ entry p } : InView).cacheL = l :=
      v.cacheL_put l
    cases h with
    | still unready pIn cache =>
      rw [hcache] at cache
      have hl : l.content ≠ [] := cache.resolve_left (by rw [hb]; simp)
      refine ⟨?_, fun _ => .inl ?_, fun _ => rfl, id, fun hl => ⟨hl, rfl, rfl⟩⟩
      · show (v.acked ++ entry p).length + v.busy.toNat = _
        rw [hb, unready, List.length_append, length_entry ((hg trivial).2 ▸ hl)]
        rfl
      · rw [hcache]
        exact not_not.mp fun hun => hl ((hg trivial).1.content_eq_nil hun)
    | moved ready free pIn => exact absurd pIn (hw.free free).1
  | swapped l p hb hfree hroom hl hm hg =>
    cases h with
    | still unready pIn => exact absurd pIn (hw.free hb).1.symm
    | moved ready free pIn payload =>
      have hin : ((v.put v.pCache l).put v.pIn (.empty size)).look v.pCache = l := by
        rw [InView.look_put_of_ne _ _ (hw.free hb).1.symm, InView.look_put]
      have hp : p ≠ [] := by
        rw [← (hg trivial).2, ← hin]
        exact payload
      refine ⟨?_, fun hb' => absurd (hb.symm.trans hb') (by decide), id, fun _ => rfl,
        fun hl => absurd (hfree.symm.trans hl) (by decide)⟩
      show (v.acked ++ entry p).length + v.busy.toNat = v.acked.length + r + v.busy.toNat
      rw [ready, List.length_append, length_entry hp]

/-- One complete interrupt whose message, if it passes the check, carries a payload. -/
theorem heeds_edge (hB : Base size s) (h : InAt size (Seen size True n) s) (hbare : ¬Bare s e) :
    Heeds s ((irqProg (.edge e)).run s).2 := by
  have hhandled := hB.run_edge e
  have hshape := (hB.handled hhandled).shape
  generalize ((irqProg (.edge e)).run s).2 = s' at hhandled hshape ⊢
  have hshort : NoShortPasses s e := fun len hlen =>
    Nat.le_of_lt (Nat.lt_of_not_le fun hle => hbare ⟨len, hlen, hle⟩)
  obtain ⟨he, -⟩ := inEff_handled hB h.rx h.view.wf (fun _ : True => hshort) hhandled
  obtain ⟨f, r, hf, hr, ho⟩ := moveOutcome_handled hB h.rx h.view.wf hhandled
  obtain ⟨rfl, hnotes⟩ := ho.notes hshape hbare
  obtain ⟨hcount, hfull, hbusy, havail, hheld⟩ := hnotes.balanced h.view.wf he
  have hmod := he.cacheMod hB.shape.size_le h.view.wf
  rw [cacheL_inView hshape] at hfull hmod
  rw [cacheL_inView hB.shape] at hfull
  refine ⟨hf, ?_, fun hb => ?_, hbusy, havail, hheld⟩
  · rw [hr]
    have hcount : (acked s'.ghost.trace).length + s.link.lineInBusy.toNat =
      (acked s.ghost.trace).length + r + s'.link.lineInBusy.toNat := hcount
    omega
  · obtain hloaded | ⟨hb', hsame⟩ := hfull hb
    · exact .inl ((Buffer.getLoadsize_ne_zero hmod).mpr hloaded)
    · exact .inr ⟨hb', congrArg (fun l : Look => u8 l.loadsize) hsame⟩

end Interrupts

/-! ## The main loop -/

section Main

variable {size : ℕ} {s s' : Sys}

/-- The interrupt, to the inbound half and to the count. -/
def CountRely (size : ℕ) (s s' : Sys) : Prop := InRely size True (fun _ => True) s s' ∧ Heeds s s'

theorem stable_told : Stable (CountRely size) AllTold := fun _ _ hR h => h.heeds hR.2

theorem stable_untold : Stable (CountRely size) Untold := fun _ _ hR h => h.heeds hR.2

/-- Between two calls. -/
def TellsAt (size : ℕ) (s : Sys) : Prop := InAt size (InOpen size True True []) s ∧ AllTold s

theorem stable_tellsAt : Stable (CountRely size) (TellsAt size) :=
  fun s s' hR h => ⟨stable_open s s' hR.1 h.1, h.2.heeds hR.2⟩

/-- The message of the cache is on its way, and `line_in_busy` is set. -/
structure Moving (s : Sys) : Prop where
  owes : Owes 0 s
  busy : s.link.lineInBusy = true

theorem stable_moving : Stable (CountRely size) Moving :=
  fun _ _ hR h => ⟨h.owes.heeds hR.2, hR.2.busy h.busy⟩

theorem Moving.congr (h : Moving s) (ht : s'.ghost.trace = s.ghost.trace)
    (hb : s'.link.lineInBusy = s.link.lineInBusy) : Moving s' := ⟨h.owes.congr ht hb, hb.trans h.busy⟩

/-- `_buffer_in_cache_data_move` from `spils_poll`: a message is there, so it is moved or put off again. -/
theorem wp_moveIn_counted (h : AllTold s) (hb : s.link.lineInBusy = true) :
    wp (CountRely size) Counted bufferInCacheDataMove
      (fun r t => if r = .ok then Untold t else AllTold t) s := by
  have hfull : Stable (CountRely size) fun t => AllTold t ∧ t.link.lineInBusy = true :=
    fun _ _ hR ht => ⟨ht.1.heeds hR.2, hR.2.busy ht.2⟩
  have hdone : ∀ t, AllTold t → wp (CountRely size) Counted (pure Result.busy)
      (fun r t => if r = .ok then Untold t else AllTold t) t :=
    fun t ht => wp_pure stable_told (fun _ hu => hu.counted) ht
  have hunlock : ∀ t, AllTold t → AllTold (t.mapLink fun l => { l with mutexIn := false }) :=
    fun t ht => ht.congr rfl rfl rfl
  unfold bufferInCacheDataMove
  refine wp_atomic (P := fun t => AllTold t ∧ t.link.lineInBusy = true) hfull (fun _ ht => ht.1.counted) ⟨h, hb⟩
    fun t ht => ?_
  by_cases hlocked : t.link.mutexIn = true
  · exact ⟨false, t, if_pos hlocked, hdone t ht.1⟩
  refine ⟨true, t.lockIn, if_neg hlocked, ?_⟩
  rw [if_neg (by decide)]
  have hlock : AllTold t.lockIn ∧ t.lockIn.link.lineInBusy = true := ⟨ht.1.congr rfl rfl rfl, ht.2⟩
  refine wp_read hfull (fun _ ht => ht.1.counted) hlock fun t ht => ?_
  rw [if_neg (ht.1.full ht.2)]
  refine wp_read hfull (fun _ ht => ht.1.counted) ht fun t ht => ?_
  by_cases hroom : t.inB.getLoadsize = 0
  · rw [if_neg (not_not.mpr hroom)]
    -- from here on the count is all that is kept, until `line_in_busy` is given up
    have hA : ∀ u, Moving u → Counted u := fun u hu => .inl hu.owes
    have hmove : Moving t := ⟨ht.1.owes, ht.2⟩
    have hswap : Keeps Moving bufferInCacheSwap :=
      .bind (keeps_read _) fun _ => .bind (keeps_write fun u hu => hu.congr rfl rfl) fun _ =>
        .bind (keeps_write fun u hu => hu.congr rfl rfl) fun _ =>
          .bind (keeps_write fun u hu => hu.congr rfl rfl) fun _ => keeps_write fun u hu => hu.congr rfl rfl
    refine wp_bind (wp_mono (wp_always_mono (wp_frame stable_moving hswap hmove) hA) fun _ u hu => ?_)
    refine wp_write stable_moving hA hu fun u hu => ?_
    have havail : Stable (CountRely size) fun u => Moving u ∧ u.link.dataInAvailable = true :=
      fun u u' hR hu => ⟨stable_moving u u' hR hu.1, hR.2.available hu.2⟩
    refine wp_write (P := fun u => Moving u ∧ u.link.dataInAvailable = true) havail (fun u hu => hA u hu.1)
      ⟨hu.congr rfl rfl, rfl⟩ fun u hu => ?_
    have huntold : Untold (u.mapLink fun l => { l with lineInBusy := false }) := by
      obtain ⟨⟨⟨hasserted, hcount⟩, hbusy⟩, hav⟩ := hu
      rw [hbusy] at hcount
      exact ⟨⟨hasserted, hcount⟩, fun hf => Bool.noConfusion hf, hav⟩
    refine wp_write stable_untold (fun _ hu => hu.counted) huntold fun u hu => ?_
    refine wp_pure stable_untold (fun _ hu => hu.counted) ?_
    exact ⟨hu.owes.congr rfl rfl, hu.full, hu.available⟩
  · rw [if_pos hroom]
    exact wp_write stable_told (fun _ ht => ht.counted) ht.1 fun t ht => hdone _ (hunlock t ht)

/-- `spils_poll` announces what it moves. -/
theorem wp_spilsPoll_counted (h : TellsAt size s) :
    wp (CountRely size) Counted spilsPoll (fun _ => AllTold) s := by
  have hA : ∀ t, TellsAt size t → Counted t := fun t ht => ht.2.counted
  unfold spilsPoll lineInBusyProcess
  refine wp_bind (wp_mono (wp_always_mono (wp_frame stable_tellsAt conFrame_told.conMachine h) hA)
    fun _ t ht => ?_)
  refine wp_read stable_tellsAt hA ht fun t ht => ?_
  by_cases hb : t.link.lineInBusy = false
  · rw [if_pos hb]
    exact wp_pure stable_told (fun _ hu => hu.counted) ht.2
  rw [if_neg hb]
  refine wp_bind (wp_mono (wp_moveIn_counted ht.2 (by simpa using hb)) fun r t ht => ?_)
  by_cases hr : r = .ok
  · rw [if_pos hr] at ht ⊢
    exact wp_write_last stable_untold (fun _ hu => hu.counted) ht stable_told (fun _ hu => hu.counted)
      fun u hu => hu.announce
  · rw [if_neg hr] at ht ⊢
    exact wp_pure stable_told (fun _ hu => hu.counted) ht

/-- The main loop holds the input mutex and works on `i`, which is not the cache. -/
structure Reads (i : BufId) (s : Sys) : Prop where
  told : AllTold s
  locked : s.link.mutexIn = true
  apart : i ≠ s.link.pBufferInCache

/-- The main loop holds the input mutex, and the pointers are apart. -/
structure Holding (s : Sys) : Prop where
  told : AllTold s
  locked : s.link.mutexIn = true
  apart : s.link.pBufferIn ≠ s.link.pBufferInCache

theorem stable_holding : Stable (CountRely size) Holding := by
  rintro s s' ⟨-, hR⟩ ⟨h1, h2, h3⟩
  obtain ⟨h2', hp, hc⟩ := hR.held h2
  exact ⟨h1.heeds hR, h2', by rw [hp, hc]; exact h3⟩

theorem stable_reads {i : BufId} : Stable (CountRely size) (Reads i) := by
  rintro s s' ⟨-, hR⟩ ⟨h1, h2, h3⟩
  obtain ⟨h2', -, hc⟩ := hR.held h2
  exact ⟨h1.heeds hR, h2', by rw [hc]; exact h3⟩

theorem Reads.congr {i : BufId} (h : Reads i s) (ht : s'.ghost.trace = s.ghost.trace)
    (hb : s'.link.lineInBusy = s.link.lineInBusy) (hm : s'.link.mutexIn = s.link.mutexIn)
    (hp : s'.link.pBufferInCache = s.link.pBufferInCache) (hc : s'.cacheB = s.cacheB) : Reads i s' :=
  ⟨h.told.congr ht hb hc, hm.trans h.locked, by rw [hp]; exact h.apart⟩

theorem Reads.setBuf {i : BufId} (h : Reads i s) (b : Buffer) : Reads i (s.setBuf i b) :=
  h.congr rfl rfl rfl rfl (Pool.get_set_of_ne _ _ h.apart)

theorem keeps_bufferGetAndDiscard {i : BufId} (len : ℕ) : Keeps (Reads i) (bufferGetAndDiscard i len) := by
  refine .bind (keeps_read _) fun pos => .bind (keeps_atomic fun s hs => ?_) fun _ =>
    .ite (keeps_pure _) (.bind (keeps_write fun s hs => hs.setBuf _) fun _ => keeps_pure _)
  dsimp only
  split_ifs
  · exact ⟨hs.told.log trivial (by unfold moveFailed; simp) (by simp), hs.locked, hs.apart⟩
  · exact hs

theorem keeps_returnRead (r : DataRead) : Keeps AllTold (returnRead r) :=
  .bind (keeps_write fun _ hs => hs.log trivial (by unfold moveFailed; simp) (by simp)) fun _ => keeps_pure _

/-- `spils_data_read` does not touch the cache. -/
theorem wp_spilsDataRead_counted (h : TellsAt size s) :
    wp (CountRely size) Counted spilsDataRead (fun _ => AllTold) s := by
  have hA : ∀ t, TellsAt size t → Counted t := fun t ht => ht.2.counted
  have hreturn : ∀ r t, AllTold t → wp (CountRely size) Counted (returnRead r) (fun _ => AllTold) t :=
    fun r t ht => wp_always_mono (wp_frame stable_told (keeps_returnRead r) ht) fun _ hu => hu.counted
  have hfin : ∀ i r t, Reads i t →
      wp (CountRely size) Counted (mutexInUnlock >>= fun _ => returnRead r) (fun _ => AllTold) t :=
    fun i r t ht => wp_write stable_reads (fun _ hu => hu.told.counted) ht fun u hu =>
      hreturn r _ (hu.told.congr rfl rfl rfl)
  unfold spilsDataRead
  refine wp_read stable_tellsAt hA h fun t ht => ?_
  by_cases hav : t.link.dataInAvailable = false
  · rw [if_pos hav]
    exact hreturn _ t ht.2
  rw [if_neg hav]
  refine wp_mutexInTrylock stable_tellsAt hA ht (fun t ht => ht.1.view.core.locked) fun t ht => ?_
  rw [if_neg (by decide)]
  -- the buffer that is read is the one `p_buffer_in` names under the mutex
  have hlock : Holding t.lockIn := ⟨ht.2.congr rfl rfl rfl, rfl, ht.1.view.core.ne⟩
  refine wp_read stable_holding (fun _ hu => hu.told.counted) hlock fun t ht => ?_
  have hreads : Reads t.link.pBufferIn t := ⟨ht.told, ht.locked, ht.apart⟩
  dsimp only
  generalize t.link.pBufferIn = i at hreads ⊢
  have hB : ∀ u, Reads i u → Counted u := fun u hu => hu.told.counted
  refine wp_write stable_reads hB hreads fun u hu => ?_
  refine wp_read stable_reads hB (hu.congr rfl rfl rfl rfl rfl) fun u hu => ?_
  refine wp_bind (wp_mono (wp_always_mono (wp_frame stable_reads (keeps_bufferGetAndDiscard _) hu) hB)
    fun r u hu => ?_)
  by_cases hr : r.1 = .err
  · rw [if_pos hr]
    exact wp_write stable_reads hB hu fun u hu => hfin i _ _ (hu.congr rfl rfl rfl rfl rfl)
  · rw [if_neg hr]
    refine wp_write stable_reads hB hu fun u hu => ?_
    refine wp_write stable_reads hB (hu.setBuf _) fun u hu => ?_
    refine wp_write stable_reads hB (hu.congr rfl rfl rfl rfl rfl) fun u hu => ?_
    exact hfin i _ _ (hu.congr rfl rfl rfl rfl rfl)

/-- Every call keeps the count. -/
theorem wp_linkProg_counted (k : LinkCall) (h : TellsAt size s) :
    wp (CountRely size) Counted (linkProg k) (fun _ => AllTold) s := by
  have hdone : ∀ t, AllTold t → wp (CountRely size) Counted (pure ()) (fun _ => AllTold) t :=
    fun t ht => wp_pure stable_told (fun _ hu => hu.counted) ht
  cases k with
  | poll => exact wp_spilsPoll_counted h
  | dataRead => exact wp_bind (wp_mono (wp_spilsDataRead_counted h) fun _ t ht => hdone t ht)
  | dataSend pData dataSize =>
    have hsend : Keeps (TellsAt size) (spilsDataSend pData dataSize) :=
      sendFrame_told.spilsDataSend fun t r ht => ⟨inAt_sendRet pData dataSize t r ht.1,
        ht.2.log trivial (by unfold moveFailed; simp) (by simp)⟩
    exact wp_bind (wp_mono (wp_always_mono (wp_frame stable_tellsAt hsend h) fun _ hu => hu.2.counted)
      fun _ t ht => hdone t ht.2)

end Main

/-! ## Every run -/

/-- The outline of the link, with the count. -/
theorem outline_counted (callOk : LinkCall → Sys → Prop) {irqOk : Irq → Sys → Prop} (size : ℕ)
    (hno : ∀ e s, irqOk (.edge e) s → ¬Bare s e) :
    (linkMachine callOk irqOk).Outline
      (fun s => (InAt size (InOpen size True True []) s ∧ Base size s) ∧ AllTold s)
      fun k s => (InAt size (Seen size True k.inFlight) s ∧ Base size s) ∧ Counted s := by
  have hshort : ∀ e s, irqOk (.edge e) s → True → NoShortPasses s e := fun e s hi _ len hlen =>
    Nat.le_of_lt (Nat.lt_of_not_le fun hle => hno e s hi ⟨len, hlen, hle⟩)
  have hrely : ∀ {n} s s', InAt size (Seen size True n) s ∧ Base size s →
      (linkMachine callOk irqOk).Rely s s' → CountRely size s s' := by
    rintro n s s' ⟨hin, hB⟩ ⟨i, hi, rfl⟩
    refine ⟨inRely_irq hB i (fun _ e he => hshort e s (he ▸ hi) trivial) fun _ _ _ => trivial, ?_⟩
    cases i with
    | edge e => exact heeds_edge hB hin (hno e s hi)
    | tick ms => exact ⟨rfl, rfl, fun hb => .inr ⟨hb, rfl⟩, id, id, fun hl => ⟨hl, rfl, rfl⟩⟩
  refine (outline_inbound callOk irqOk size hshort).join (H := CountRely size) ?_ (fun k => hrely) stable_told ?_
  · exact fun s s' h => hrely s s' ⟨seen_open (Nat.le_refl 0) s h.1, h.2⟩
  · exact fun k s h ht => wp_linkProg_counted k ⟨h.1, ht⟩

theorem told_start {conf : SpilsConf} (hc : conf.Ok) (hw : Board) (slave : SpiSlave) :
    AllTold (start conf hw slave) := by
  have hv := inView_start hc hw slave
  have hbusy : (start conf hw slave).link.lineInBusy = false := congrArg InView.busy hv
  have hacked : acked (start conf hw slave).ghost.trace = [] := congrArg InView.acked hv
  have htrace : ∀ x : Obs, (∀ o n st r, x ≠ .armed o n st r) → (start conf hw slave).ghost.trace.count x = 0 := by
    obtain ⟨h, heq, -⟩ := start_eq conf hw slave
    intro x hx
    rw [heq, prepared_eq hc]
    refine List.count_eq_zero.mpr fun hmem => ?_
    exact hx _ _ _ _ (List.mem_singleton.mp hmem)
  refine ⟨⟨htrace _ (by unfold moveFailed; simp), ?_⟩, fun hb => Bool.noConfusion (hbusy.symm.trans hb)⟩
  rw [hacked, hbusy]
  exact (htrace _ (by simp)).symm

/-- What holds in every state of a run in which every message past the check carries a payload. -/
structure HonestRun (c : Cfg Sys LinkCall) : Prop where
  /-- the assertion has not failed -/
  asserted : moveFailed ∉ c.st.ghost.trace
  /-- between calls there have been as many events as payloads have come to `p_buffer_in` -/
  announced : c.main = none →
    c.st.dataInReadies = (returned c.st.ghost.trace ++ entry c.st.inB.content).length
  /-- where `_line_in_busy_process` raises the event, `p_buffer_in` holds the next accepted payload -/
  polled : c.main = some (.poll, eventHandler .dataInReady) →
    c.st.inB.content ≠ [] ∧ (acked c.st.ghost.trace)[c.st.dataInReadies]? = some c.st.inB.content

section Counting

variable {size : ℕ} {s : Sys}

/-- The accepted payloads are those announced and the one in a busy cache. -/
theorem TellsAt.announced (h : TellsAt size s) :
    acked s.ghost.trace = returned s.ghost.trace ++ entry s.inB.content ++ entry s.cacheB.content ∧
      s.dataInReadies = (returned s.ghost.trace ++ entry s.inB.content).length := by
  obtain ⟨hin, ⟨-, hcount⟩, hfull⟩ := h
  have hcore := hin.view.core
  have hledger := hcore.ledger trivial
  rw [List.nil_append, inL_inView hin.shape, cacheL_inView hin.shape] at hledger
  have hledger : acked s.ghost.trace =
    returned s.ghost.trace ++ entry s.inB.content ++ entry s.cacheB.content := hledger
  refine ⟨hledger, ?_⟩
  have hcache : (entry s.cacheB.content).length = s.link.lineInBusy.toNat := by
    have hord := hcore.ordered trivial
    have hidle := hcore.idle
    have hmod := hcore.cacheMod
    rw [cacheL_inView hin.shape] at hord hidle hmod
    cases hb : s.link.lineInBusy with
    | false =>
      have hnil : s.cacheB.content = [] := hord.content_eq_nil (hidle hb)
      rw [hnil]
      rfl
    | true =>
      have hloaded := (Buffer.getLoadsize_ne_zero hmod).mp (hfull hb)
      exact length_entry (hord.content_ne_nil hloaded)
  rw [hledger, List.length_append, hcache] at hcount
  omega

/-- The event of the poll. -/
theorem Counted.polled (h : Counted s)
    (ht : TellsAt size ((s.mapSlave (spilsEventHandler .dataInReady)).log (.event .dataInReady))) :
    s.inB.content ≠ [] ∧ (acked s.ghost.trace)[s.dataInReadies]? = some s.inB.content := by
  set t := (s.mapSlave (spilsEventHandler .dataInReady)).log (.event .dataInReady)
  have hin : t.inB = s.inB := rfl
  have hcacheB : t.cacheB = s.cacheB := rfl
  have hreadies : t.dataInReadies = s.dataInReadies + 1 := by
    show (s.ghost.trace ++ [Obs.event .dataInReady]).count (.event .dataInReady) = _
    rw [List.count_append]
    rfl
  have hacked : acked t.ghost.trace = acked s.ghost.trace := acked_local (x := .event .dataInReady) trivial
  obtain ⟨hledger, hcount⟩ := ht.announced
  obtain h0 | ⟨h1, havail⟩ := h
  · -- the event would be one too many
    have hafter := ht.2.owes.count
    have hbefore := h0.count
    have hbusy : t.link.lineInBusy = s.link.lineInBusy := rfl
    rw [hacked, hreadies, hbusy] at hafter
    omega
  have hloaded : (inView t).inL.Loaded := ht.1.view.avail.mp havail
  have hord := ht.1.view.inOrdered trivial
  rw [inL_inView ht.1.shape, hin] at hloaded hord
  have hsome : s.inB.content ≠ [] := hord.content_ne_nil hloaded
  refine ⟨hsome, ?_⟩
  rw [hin, hreadies, List.length_append, length_entry hsome] at hcount
  rw [hin, hcacheB, hacked] at hledger
  have hentry : entry s.inB.content = [s.inB.content] := if_neg hsome
  have hreturned : s.dataInReadies = (returned t.ghost.trace).length := Nat.succ_inj.mp hcount
  rw [hledger, hentry, hreturned, List.append_assoc, List.getElem?_append_right (Nat.le_refl _), Nat.sub_self]
  rfl

end Counting

/-- **The assertion of `_transfer_receive_data`, and `DATA_IN_READY`.**  In every run in which no message
past the length check is only its header or less, the assertion never fails and every event comes with a
new payload, whether the interrupt raises it or the poll.  From every state of every run, the next transfer
is honest unless its message is only its header or less. -/
theorem move_honest_iff {callOk : LinkCall → Sys → Prop} {irqOk : Irq → Sys → Prop} {s₀ : Sys}
    (h₀ : Initial s₀) {c : Cfg Sys LinkCall} (hc : (linkMachine callOk irqOk).Reach s₀ c)
    (hq : c.irq = none) :
    ((∀ e s, irqOk (.edge e) s → ¬Bare s e) → HonestRun c) ∧
      ∀ e, (((irqProg (.edge e)).run c.st).2.moveFailures = c.st.moveFailures ↔ ¬OnlyHeader c.st e) ∧
        (MoveHonest c.st e ((irqProg (.edge e)).run c.st).2 ↔ ¬Bare c.st e) := by
  obtain ⟨conf, hw, slave, hok, rfl⟩ := h₀
  set size := conf.messageSizeMax + 2
  have hB := base_start hok hw slave
  refine ⟨fun hno => ?_, fun e => ?_⟩
  · have O := outline_counted callOk size hno
    have hinit := And.intro (And.intro (inAt_start (g := True) hok hw slave) hB) (told_start hok hw slave)
    refine ⟨?_, fun hidle => ?_, fun hpoll => ?_⟩
    · refine List.count_eq_zero.mp (O.always (P := fun s => s.moveFailures = 0) hinit ?_ ?_ hc hq)
      · exact fun s h => h.2.owes.asserted
      · exact fun k s h => h.2.elim Owes.asserted fun h => h.1.asserted
    · obtain ⟨s, m, q⟩ := c
      obtain rfl : q = none := hq
      obtain rfl : m = none := hidle
      obtain ⟨⟨hin, -⟩, htold⟩ := O.idle hinit hc
      exact (TellsAt.announced ⟨hin, htold⟩).2
    · obtain ⟨s, m, q⟩ := c
      obtain rfl : q = none := hq
      obtain rfl : m = some (.poll, eventHandler .dataInReady) := hpoll
      have hgood : wp (linkMachine callOk irqOk).Rely _ (eventHandler .dataInReady) _ s := O.sound hinit hc
      obtain ⟨⟨-, hcounted⟩, hrest⟩ := hgood s .refl
      obtain ⟨-, ⟨hin, -⟩, htold⟩ := hrest _ .refl
      exact hcounted.polled ⟨hin, htold⟩
  · have O := outline_inbound callOk irqOk size (g := False) fun _ _ _ hf => hf.elim
    have hseen : ∃ n, InAt size (Seen size False n) c.st ∧ Base size c.st := by
      refine O.always (P := fun s => ∃ n, InAt size (Seen size False n) s ∧ Base size s)
        ⟨inAt_start (g := False) hok hw slave, hB⟩ (fun s h => ?_) (fun k s h => ⟨_, h⟩) hc hq
      exact ⟨0, seen_open (Nat.le_refl 0) s h.1, h.2⟩
    obtain ⟨n, hin, hbase⟩ := hseen
    obtain ⟨f, r, hf, hr, ho⟩ := moveOutcome_handled hbase hin.rx hin.view.wf (hbase.run_edge e)
    refine ⟨?_, ho.honest_iff hf hr⟩
    rw [hf, ← ho.asserted_iff]
    omega

/-! ## Runs -/

/-- No message past the length check is only its header or less. -/
def Carries : Irq → Sys → Prop
  | .edge e, s => ¬Bare s e
  | .tick _, _ => True

theorem bare_iff (s : Sys) (e : Edge) :
    Bare s e ↔ ((s.link.state = .dataReceiving ∧ s.link.lineInBusy = false ∧
      s.link.lineInIsSaturated = false) ∧ messHeaderSize ≤ s.reported e) ∧
        ∃ h ∈ Exchange.header (s.received e), h.2 = MessType.data ∧ h.1.toNat ≤ messHeaderSize := by
  constructor
  · rintro ⟨len, ⟨⟨h1, h2, h3, hh⟩, hheader, -⟩, hle⟩
    exact ⟨⟨⟨h1, h2, h3⟩, hheader⟩, _, hh, rfl, hle⟩
  · rintro ⟨⟨⟨h1, h2, h3⟩, hheader⟩, ⟨len, type⟩, hh, rfl, hle⟩
    exact ⟨len, ⟨⟨h1, h2, h3, hh⟩, hheader, Nat.le_trans hle hheader⟩, hle⟩

instance (s : Sys) (e : Edge) : Decidable (Bare s e) := decidable_of_iff' _ (bare_iff s e)

instance (i : Irq) (s : Sys) : Decidable (Carries i s) :=
  match i with
  | .edge e => inferInstanceAs (Decidable (¬Bare s e))
  | .tick _ => .isTrue trivial

/-- A message is read while the next one waits in the cache, and `n` steps of the poll are done. -/
def samplePolled (n : ℕ) : List (Act LinkCall Irq) :=
  [.irq (.edge (.of [2, 1])), .irq (.edge (.of [4, 3, 7, 9])), .irq (.edge (.of [2, 1])),
    .irq (.edge (.of [3, 3, 5])), .call .dataRead, .go 40, .call .poll, .go n]

/-- The poll has moved the second message and is about to raise the event. -/
def sampleUntold : Cfg Sys LinkCall :=
  ⟨((linkMachine (fun _ _ => True) Carries).play (samplePolled 19) (sampleLink, none)).1,
    some (.poll, eventHandler .dataInReady), none⟩

theorem reach_sampleUntold : (linkMachine (fun _ _ => True) Carries).Reach sampleLink sampleUntold := by
  have hreach := Machine.Reach.play (c := (sampleLink, none)) (samplePolled 19)
    (.init (M := linkMachine (fun _ _ => True) Carries)) (by decide +kernel)
  have hmain : ((linkMachine (fun _ _ => True) Carries).play (samplePolled 19) (sampleLink, none)).2 =
      some (.poll, eventHandler .dataInReady) := rfl
  rw [hmain] at hreach
  exact hreach

/-- The master has announced a message and is heard. -/
def announcedLink : Sys × Option (LinkCall × Code Unit) :=
  (linkMachine (fun _ _ => True) fun _ _ => True).play [.irq (.edge (.of [2, 1]))] (sampleLink, none)

theorem reach_announcedLink :
    (linkMachine (fun _ _ => True) fun _ _ => True).Reach sampleLink
      ⟨announcedLink.1, announcedLink.2, none⟩ :=
  .play (c := (sampleLink, none)) _ .init
    (Machine.allowed_of_free (fun _ _ => trivial) (fun _ _ => trivial) _ _)

/-- The two events of that run, and the event of a message that finds `p_buffer_in` empty. -/
theorem move_honest_iff_polled :
    (moveFailed ∉ sampleUntold.st.ghost.trace ∧ sampleUntold.st.dataInReadies = 1 ∧
      sampleUntold.st.inB.content = [5] ∧
      (acked sampleUntold.st.ghost.trace)[1]? = some sampleUntold.st.inB.content) ∧
    NewPayload announcedLink.1 (.of [3, 3, 7]) ((irqProg (.edge (.of [3, 3, 7]))).run announcedLink.1).2 := by
  obtain ⟨hasserted, -, hpolled⟩ := (move_honest_iff sampleLink_initial reach_sampleUntold rfl).1 fun _ _ hi => hi
  have hready : sampleUntold.st.dataInReadies = 1 := by decide +kernel
  have hnext := (hpolled rfl).2
  rw [hready] at hnext
  have hmove := ((move_honest_iff sampleLink_initial reach_announcedLink rfl).2 (.of [3, 3, 7])).2.mpr (by decide)
  exact ⟨⟨hasserted, hready, by decide +kernel, hnext⟩, hmove.ready (by decide)⟩

/-- A message that is only its header: the assertion fails, and the event is raised with `p_buffer_in`
empty as before. -/
theorem move_honest_bare : ∃ c : Cfg Sys LinkCall,
    (linkMachine (fun _ _ => True) fun _ _ => True).Reach sampleLink c ∧ c.irq = none ∧
      moveFailed ∈ ((irqProg (.edge (.of [2, 3]))).run c.st).2.ghost.trace ∧
      Obs.event .dataInReady ∈ ((irqProg (.edge (.of [2, 3]))).run c.st).2.ghost.trace ∧
      ((irqProg (.edge (.of [2, 3]))).run c.st).2.inB.getLoadsize = 0 ∧
      ¬MoveHonest c.st (.of [2, 3]) ((irqProg (.edge (.of [2, 3]))).run c.st).2 := by
  refine ⟨_, reach_announcedLink, rfl, by decide, by decide, by decide, fun h => ?_⟩
  exact absurd h.asserted (by decide)

end NeuronWired
