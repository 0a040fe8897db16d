import NeuronWired.Frame

/-!
# Base — what holds at every point of every run

`Shape`: the buffers keep their sizes, and input pointers point to input buffers and output pointers
to output buffers.  `Base` adds that the driver is armed and the link is in one of its three resting
states.  No step of the main loop can disturb `Base` (`frame_base`), and the interrupt restores it.
-/

namespace NeuronWired

open Interrupt

/-! ## Shape -/

/-- The fields of the link that only the interrupt and the pointer swaps write. -/
def Spils.core (l : Spils) : ℕ × BufId × BufId × BufId × BufId × SpilsState :=
  (l.messageSizeMax, l.pBufferIn, l.pBufferInCache, l.pBufferOut, l.pBufferOutCache, l.state)

/-- The sizes of the buffers and the sides of the pointers. -/
structure Shape (size : ℕ) (s : Sys) : Prop where
  size_eq : s.link.messageSizeMax + 2 = size
  size_le : size ≤ 255
  sized : ∀ i, (s.pool.get i).Sized size
  inBuf : s.link.pBufferIn.isIn = true
  inCache : s.link.pBufferInCache.isIn = true
  outBuf : s.link.pBufferOut.isIn = false
  outCache : s.link.pBufferOutCache.isIn = false

namespace Shape

variable {size : ℕ} {s s' : Sys}

theorem sides (h : Shape size s) : s.link.pBufferInCache ≠ s.link.pBufferOutCache ∧
    s.link.pBufferInCache ≠ s.link.pBufferOut :=
  ⟨BufId.ne_of_isIn h.inCache h.outCache, BufId.ne_of_isIn h.inCache h.outBuf⟩

/-- Nothing but the link and the buffers matters. -/
theorem congr (h : Shape size s) (hl : s'.link = s.link) (hp : s'.pool = s.pool) : Shape size s' := by
  obtain ⟨h1, h2, h3, h4, h5, h6, h7⟩ := h
  exact ⟨by rw [hl]; exact h1, h2, by rw [hp]; exact h3, by rw [hl]; exact h4, by rw [hl]; exact h5,
    by rw [hl]; exact h6, by rw [hl]; exact h7⟩

theorem log (h : Shape size s) (x : Obs) : Shape size (s.log x) := h.congr rfl rfl

theorem mapLink (h : Shape size s) (f : Spils → Spils) (hf : (f s.link).core = s.link.core) :
    Shape size (s.mapLink f) := by
  obtain ⟨h1, h2, h3, h4, h5, h6, h7⟩ := h
  simp only [Spils.core, Prod.mk.injEq] at hf
  obtain ⟨g1, g2, g3, g4, g5, -⟩ := hf
  exact ⟨by rw [Sys.link_mapLink, g1]; exact h1, h2, h3, by rw [Sys.link_mapLink, g2]; exact h4,
    by rw [Sys.link_mapLink, g3]; exact h5, by rw [Sys.link_mapLink, g4]; exact h6,
    by rw [Sys.link_mapLink, g5]; exact h7⟩

theorem setBuf (h : Shape size s) (i : BufId) {b : Buffer} (hb : b.Sized size) :
    Shape size (s.setBuf i b) := by
  refine ⟨h.size_eq, h.size_le, fun j => ?_, h.inBuf, h.inCache, h.outBuf, h.outCache⟩
  by_cases hj : i = j
  · rw [← hj, Sys.pool_setBuf, Pool.get_set_self]; exact hb
  · rw [Sys.pool_setBuf, Pool.get_set_of_ne _ _ hj]; exact h.sized j

theorem header (h : Shape size s) (i : BufId) (len type : UInt8) :
    Shape size (s.setBuf i ((s.pool.get i).header len type)) :=
  h.setBuf i (((h.sized i).recycle.setData 0 _).updateWritePos _)

theorem answer (h : Shape size s) (t : UInt8) : Shape size (s.answer t) := h.header _ _ _

theorem dummyIfEmpty (h : Shape size s) : Shape size s.dummyIfEmpty := by
  unfold Sys.dummyIfEmpty
  split_ifs
  · exact h.header _ _ _
  · exact h

theorem recycleIn (h : Shape size s) : Shape size s.recycleIn := h.setBuf _ (h.sized _).recycle

theorem takeIn (h : Shape size s) (n : ℕ) : Shape size (s.takeIn n) :=
  h.setBuf _ ((h.sized _).updateWritePos _)

theorem shapeIn (h : Shape size s) : Shape size s.shapeIn :=
  h.setBuf _ ((((h.sized _).updateWritePos _).updateWritePos _).updateReadPos _)

theorem swapIn (h : Shape size s) : Shape size s.swapIn :=
  ⟨h.size_eq, h.size_le, h.sized, h.inCache, h.inBuf, h.outBuf, h.outCache⟩

theorem moveOut (h : Shape size s) : Shape size s.moveOut := by
  unfold Sys.moveOut
  split_ifs
  · exact ⟨h.size_eq, h.size_le, h.sized, h.inBuf, h.inCache, h.outCache, h.outBuf⟩
  · exact ⟨h.size_eq, h.size_le, h.sized, h.inBuf, h.inCache, h.outBuf, h.outCache⟩

theorem outDone (h : Shape size s) : Shape size s.outDone := by
  have hs := h.setBuf s.link.pBufferOutCache (h.sized s.link.pBufferOutCache).recycle
  unfold Sys.outDone
  split_ifs
  · exact hs.congr rfl rfl
  · exact hs

theorem clockIn (h : Shape size s) (e : Edge) : Shape size (s.clockIn e) := by
  unfold Sys.clockIn Sys.dmaStore
  split
  · exact (h.setBuf _ ((h.sized _).setData _ _)).congr rfl rfl
  · exact h.congr rfl rfl
  · exact h.congr rfl rfl

theorem begun (h : Shape size s) (e : Edge) : Shape size (s.begun e) := by
  have hc : Shape size (((s.clockIn e).mapSpi HalMcuSpi.idled).log (.transfer e.wire)) :=
    (h.clockIn e).congr rfl rfl
  exact (hc.mapLink (fun l => { l with connectionDetected := true }) rfl).outDone

theorem dispatched {p : Sys} {st : SpilsState} {ready : Bool} (h : Shape size s)
    (hd : Dispatched s p st ready) : Shape size p := by
  cases hd with
  | startErr => exact h.recycleIn.answer _
  | startOk => exact h.recycleIn.answer _
  | recvErr => exact h.recycleIn.answer _
  | recvBusy => exact h.dummyIfEmpty.recycleIn.answer _
  | recvOk => exact h.moveOut.dummyIfEmpty.recycleIn
  | dataErr => exact h.recycleIn.answer _
  | dataBusy => exact (h.shapeIn.mapLink (fun l => { l with lineInBusy := true }) rfl).answer _
  | dataEmpty => exact ((h.shapeIn.log _).recycleIn).answer _
  | dataOk => exact h.shapeIn.swapIn.recycleIn.answer _
  | renewed => exact h.recycleIn.answer _
  | dataReady => exact h.recycleIn.answer _
  | ready => exact h.recycleIn.answer _

theorem processed {n : ℕ} {p : Sys} {st : SpilsState} {ready : Bool} (h : Shape size s)
    (hp : Processed n s p st ready) : Shape size p := by
  cases hp with
  | refused => exact h.answer _
  | short => exact h.answer _
  | taken _ _ hd => exact (h.takeIn n).dispatched hd

theorem finish (h : Shape size s) (st : SpilsState) (ready : Bool) (g : HalMcuSpi) :
    Shape size (s.finish st ready g) := by
  obtain ⟨h1, h2, h3, h4, h5, h6, h7⟩ := h
  unfold Sys.finish
  split_ifs <;> exact ⟨h1, h2, h3, h4, h5, h6, h7⟩

end Shape

/-- What `_transfer_data_in_prepare` arms is an input buffer. -/
theorem Shape.rxPtr {size : ℕ} {s : Sys} (h : Shape size s) (p : Ptr) (hp : s.rxPtr = some p) :
    p.buf.isIn = true := by
  unfold Sys.rxPtr at hp
  split_ifs at hp
  obtain rfl := Option.some.inj hp
  exact h.inCache

/-! ## Base -/

/-- The link waits for the next chip-select edge. -/
def SpilsState.Resting (st : SpilsState) : Prop :=
  st = .listening ∨ st = .dataReceiving ∨ st = .dataSending

/-- The invariant that every point of the main loop shares. -/
structure Base (size : ℕ) (s : Sys) : Prop where
  shape : Shape size s
  armed : Armed s.spi
  resting : s.link.state.Resting
  rxSide : ∀ p, s.spi.pDataIn = some p → p.buf.isIn = true
  txSide : ∃ off, s.spi.pDataOut = some ⟨s.link.pBufferOutCache, off⟩

theorem Base.congr {size : ℕ} {s s' : Sys} (h : Base size s) (hl : s'.link = s.link)
    (hp : s'.pool = s.pool) (hs : s'.spi = s.spi) : Base size s' :=
  ⟨h.shape.congr hl hp, hs ▸ h.armed, hl ▸ h.resting, hs ▸ h.rxSide, by rw [hs, hl]; exact h.txSide⟩

section Finish

variable (p : Sys) (st : SpilsState) (ready : Bool) (h : HalMcuSpi)

theorem spi_finish : (p.finish st ready h).spi = h := by
  unfold Sys.finish; split_ifs <;> rfl

theorem pool_finish : (p.finish st ready h).pool = p.pool := by
  unfold Sys.finish; split_ifs <;> rfl

theorem link_finish : (p.finish st ready h).link =
    { p.link with state := st.settled, lineInIsSaturated := decide (p.cacheB.getLoadsize ≠ 0) } := by
  unfold Sys.finish; split_ifs <;> rfl

end Finish

/-- The state asked for is one of the three start states. -/
theorem settled_processed {n : ℕ} {s p : Sys} {st : SpilsState} {ready : Bool}
    (hp : Processed n s p st ready) : st.settled.Resting := by
  cases hp with
  | refused => exact .inl rfl
  | short => exact .inl rfl
  | taken _ _ hd =>
    cases hd with
    | startOk => exact .inr (.inl rfl)
    | renewed => exact .inr (.inl rfl)
    | recvOk => exact .inr (.inr rfl)
    | _ => exact .inl rfl

theorem Base.handled {size : ℕ} {s s' : Sys} {e : Edge} (h : Base size s) (hh : Handled e s s') :
    Base size s' := by
  cases hh with
  | again g silent armed same eq =>
    subst eq
    obtain ⟨hout, hin, -, -⟩ := same
    refine ⟨(h.shape.clockIn e).congr rfl rfl, armed, ?_, fun p hp => h.rxSide p (hin ▸ hp), ?_⟩
    · rw [Sys.link_mapSpi, (link_clockIn s e).1]
      exact h.resting
    · rw [Sys.link_mapSpi, (link_clockIn s e).1]
      obtain ⟨off, htx⟩ := h.txSide
      exact ⟨off, hout.trans htx⟩
  | done p st ready g valid resend processed armed eq =>
    subst eq
    have hp := (h.shape.begun e).processed processed
    refine ⟨hp.finish st ready g, ?_, ?_, ?_, ?_⟩
    · rw [spi_finish]; exact armed.armed
    · rw [link_finish]; exact settled_processed processed
    · rw [spi_finish, armed.pDataIn]
      exact hp.rxPtr
    · rw [spi_finish, link_finish, armed.pDataOut]
      exact ⟨_, rfl⟩

/-- What an interrupt does to a state with `Base`. -/
theorem Base.run_edge {size : ℕ} {s : Sys} (h : Base size s) (e : Edge) :
    Handled e s ((irqProg (.edge e)).run s).2 := NeuronWired.handled h.armed h.shape.sides

theorem Base.run_irq {size : ℕ} {s : Sys} (h : Base size s) (i : Irq) :
    Base size ((irqProg i).run s).2 := by
  cases i with
  | edge e => exact h.handled (h.run_edge e)
  | tick ms => exact h.congr rfl rfl rfl

/-! ## What a run of the interrupt leaves of `Spi_slave` -/

theorem slave_dispatched {t p : Sys} {st : SpilsState} {ready : Bool} (hd : Dispatched t p st ready) :
    p.slave = t.slave := by
  cases hd with
  | recvBusy => exact field_dummyIfEmpty Sys.slave (fun _ _ _ => rfl) t
  | recvOk => exact field_moveOut_dummyIfEmpty Sys.slave (fun _ _ _ => rfl) (fun _ => ⟨rfl, rfl⟩) t
  | _ => rfl

theorem slave_processed {n : ℕ} {s p : Sys} {st : SpilsState} {ready : Bool}
    (hp : Processed n s p st ready) : p.slave = s.slave := by
  cases hp with
  | refused => rfl
  | short => rfl
  | taken _ _ hd => exact slave_dispatched (t := s.takeIn n) hd

/-- A field that the event handler does not write is the same after the interrupt. -/
theorem field_handled {β : Type} {field : SpiSlave → β}
    (hfield : ∀ e p, field (spilsEventHandler e p) = field p) {s s' : Sys} {e : Edge}
    (h : Handled e s s') : field s'.slave = field s.slave := by
  obtain ⟨-, hclock, -, -⟩ := link_clockIn s e
  cases h with
  | again g silent armed same eq =>
    rw [eq]
    exact congrArg field hclock
  | done p st ready g valid resend processed armed eq =>
    have hfinish : field (p.finish st ready g).slave = field p.slave := by
      unfold Sys.finish
      split_ifs
      · exact hfield .dataInReady _
      · rfl
    have hbegun : field (s.begun e).slave = field (s.clockIn e).slave := by
      unfold Sys.begun Sys.outDone
      split_ifs
      · exact hfield .dataOutSent _
      · rfl
    rw [eq, hfinish, slave_processed processed, hbegun, hclock]

theorem Base.field_irq {β : Type} (field : SpiSlave → β)
    (hfield : ∀ e p, field (spilsEventHandler e p) = field p) {size : ℕ} {s : Sys} (h : Base size s)
    (i : Irq) : field ((irqProg i).run s).2.slave = field s.slave := by
  cases i with
  | edge e => exact field_handled hfield (h.run_edge e)
  | tick ms => rfl

/-! ## What a run of the interrupt adds to the trace -/

theorem trace_dummyIfEmpty (s : Sys) : s.dummyIfEmpty.ghost.trace = s.ghost.trace :=
  field_dummyIfEmpty (fun s : Sys => s.ghost.trace) (fun _ _ _ => rfl) s

theorem trace_moveOut_dummyIfEmpty (s : Sys) : s.moveOut.dummyIfEmpty.ghost.trace = s.ghost.trace :=
  field_moveOut_dummyIfEmpty (fun s : Sys => s.ghost.trace) (fun _ _ _ => rfl) (fun _ => ⟨rfl, rfl⟩) s

theorem trace_dispatched {t p : Sys} {st : SpilsState} {ready : Bool} (hd : Dispatched t p st ready) :
    ∃ l, p.ghost.trace = t.ghost.trace ++ l ∧ ∀ x ∈ l, x.Note := by
  have hsame : ∀ q : Sys, q.ghost.trace = t.ghost.trace →
      ∃ l, q.ghost.trace = t.ghost.trace ++ l ∧ ∀ x ∈ l, x.Note :=
    fun q hq => ⟨[], by rw [hq, List.append_nil], fun x hx => by cases hx⟩
  cases hd with
  | dataEmpty => exact ⟨_, rfl, fun x hx => by rw [List.mem_singleton.mp hx]; trivial⟩
  | recvBusy => exact hsame _ (trace_dummyIfEmpty t)
  | recvOk => exact hsame _ (trace_moveOut_dummyIfEmpty t)
  | _ => exact hsame _ rfl

theorem trace_processed {n : ℕ} {s p : Sys} {st : SpilsState} {ready : Bool}
    (hp : Processed n s p st ready) :
    ∃ l, p.ghost.trace = s.ghost.trace ++ l ∧ ∀ x ∈ l, x.Note := by
  cases hp with
  | refused => exact ⟨[], (List.append_nil _).symm, fun x hx => by cases hx⟩
  | short => exact ⟨[], (List.append_nil _).symm, fun x hx => by cases hx⟩
  | taken _ _ hd => exact trace_dispatched (t := s.takeIn n) hd

theorem trace_begun (s : Sys) (e : Edge) :
    ∃ l, (s.begun e).ghost.trace = s.ghost.trace ++ .transfer e.wire :: l ∧ ∀ x ∈ l, x.Note := by
  have hclock : (s.clockIn e).ghost.trace = s.ghost.trace := by rw [(link_clockIn s e).2.2.2]
  unfold Sys.begun Sys.outDone
  split_ifs
  · refine ⟨[.event .dataOutSent], ?_, fun x hx => by rw [List.mem_singleton.mp hx]; trivial⟩
    show ((s.clockIn e).ghost.trace ++ [_]) ++ [_] = _
    rw [hclock, List.append_assoc]
    rfl
  · refine ⟨[], ?_, fun x hx => by cases hx⟩
    show (s.clockIn e).ghost.trace ++ [_] = _
    rw [hclock]

theorem trace_finish (p : Sys) (st : SpilsState) (ready : Bool) (h : HalMcuSpi) :
    ∃ l, (p.finish st ready h).ghost.trace =
        p.ghost.trace ++ .armed p.outMess p.rxLen st .ok :: l ∧ ∀ x ∈ l, x.Note := by
  unfold Sys.finish
  split_ifs
  · refine ⟨[.event .dataInReady], ?_, fun x hx => by rw [List.mem_singleton.mp hx]; trivial⟩
    show (p.ghost.trace ++ [_]) ++ [_] = _
    rw [List.append_assoc]
    rfl
  · exact ⟨[], rfl, fun x hx => by cases hx⟩

/-- One transfer, one message armed for the next, and nothing else that the master can see. -/
theorem trace_done {n : ℕ} {s p : Sys} {e : Edge} {st : SpilsState} {ready : Bool}
    (hp : Processed n (s.begun e) p st ready) (h : HalMcuSpi) :
    ∃ l₁ l₂, (p.finish st ready h).ghost.trace = s.ghost.trace ++ .transfer e.wire :: l₁ ++
        .armed p.outMess p.rxLen st .ok :: l₂ ∧ ∀ x ∈ l₁ ++ l₂, x.Note := by
  obtain ⟨l₁, h₁, hl₁⟩ := trace_begun s e
  obtain ⟨l₂, h₂, hl₂⟩ := trace_processed hp
  obtain ⟨l₃, h₃, hl₃⟩ := trace_finish p st ready h
  refine ⟨l₁ ++ l₂, l₃, ?_, ?_⟩
  · rw [h₃, h₂, h₁]
    simp only [List.append_assoc, List.cons_append]
  · intro x hx
    simp only [List.mem_append] at hx
    rcases hx with (hx | hx) | hx
    · exact hl₁ x hx
    · exact hl₂ x hx
    · exact hl₃ x hx

/-! ## The main loop disturbs none of it -/

/-- The transfers of a trace, the driver and the state of the link are out of reach of the main loop. -/
theorem frame_base (size : ℕ) (Q : HalMcuSpi → SpilsState → Heard → Prop) :
    Frame fun s => Base size s ∧ Q s.spi s.link.state (heard s.ghost.trace) where
  isIn s h := ⟨h.1.shape.inBuf, h.1.shape.inCache⟩
  isOut s h := h.1.shape.outBuf
  link s f hf hp hc h := by
    obtain ⟨⟨⟨h1, h2, h3, -, -, h6, h7⟩, h8, h9, h10, h11⟩, hQ⟩ := h
    have hmax := Spils.field_eq hf Spils.messageSizeMax fun _ => rfl
    have hout := Spils.field_eq hf Spils.pBufferOut fun _ => rfl
    have hcache := Spils.field_eq hf Spils.pBufferOutCache fun _ => rfl
    have hstate := Spils.field_eq hf Spils.state fun _ => rfl
    refine ⟨⟨⟨hmax ▸ h1, h2, h3, hp, hc, hout ▸ h6, hcache ▸ h7⟩, h8, hstate ▸ h9, h10,
      hcache ▸ h11⟩, ?_⟩
    exact hstate ▸ hQ
  buf s i b hb h :=
    ⟨⟨h.1.shape.setBuf i (hb _ (h.1.shape.sized i)), h.1.armed, h.1.resting, h.1.rxSide, h.1.txSide⟩, h.2⟩
  slave s f h := ⟨h.1.congr rfl rfl rfl, h.2⟩
  ghost s f hf h := by
    refine ⟨h.1.congr rfl rfl rfl, ?_⟩
    rw [Sys.ghost_mapGhost, hf]
    exact h.2
  log s x hx h := by
    refine ⟨h.1.congr rfl rfl rfl, ?_⟩
    rw [Sys.trace_log, heard_append, Heard.step_local _ hx]
    exact h.2

/-! ## From the start on -/

theorem shape_prepared {conf : SpilsConf} (hc : conf.Ok) (hw : Board) (slave : SpiSlave) :
    Shape (conf.messageSizeMax + 2) (prepared conf hw slave) := by
  have hmax : conf.messageSizeMax ≤ 253 := hc
  have hinit := Buffer.sized_init (conf.messageSizeMax + 2)
  rw [prepared_eq hc]
  refine ⟨rfl, by omega, ?_, rfl, rfl, rfl, rfl⟩
  intro i
  cases i <;> exact hinit

theorem base_start {conf : SpilsConf} (hc : conf.Ok) (hw : Board) (slave : SpiSlave) :
    Base (conf.messageSizeMax + 2) (start conf hw slave) := by
  obtain ⟨h, heq, ha⟩ := start_eq conf hw slave
  have hs := (shape_prepared hc hw slave).answer MessType.resultReady
  rw [heq]
  refine ⟨hs.finish .listeningStart false h, ha.armed, .inl rfl, ?_, _, ha.pDataOut⟩
  show ∀ p, h.pDataIn = some p → _
  rw [ha.pDataIn]
  exact hs.rxPtr

theorem stable_base {κ : Type} (M : Machine Sys κ Irq) (hM : M.irq = irqProg) (size : ℕ) :
    Stable M.Rely (Base size) := by
  rintro s s' ⟨i, -, rfl⟩ h
  rw [hM]
  exact h.run_irq i

theorem frame_base_only (size : ℕ) : Frame (Base size) := by
  have h := frame_base size fun _ _ _ => True
  simpa only [and_true] using h

/-- `Base` holds at every point of every run of the link. -/
theorem outline_base (callOk : LinkCall → Sys → Prop) (irqOk : Irq → Sys → Prop) (size : ℕ) :
    (linkMachine callOk irqOk).Outline (Base size) fun _ => Base size where
  stable := stable_base _ rfl size
  call := fun k _ h _ =>
    wp_frame (stable_base _ rfl size) ((frame_base_only size).linkProg k) h

end NeuronWired
