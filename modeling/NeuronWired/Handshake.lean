import NeuronWired.Inbound

/-!
# Handshake — no stale permission to send or to receive

`Sound` says what an exchange tells about the state it was made in.  `Admitted` is the permission to
send a DATA message, as the history of exchanges shows it; the link grants it exactly by being in
`DATA_RECEIVING`.
-/

namespace NeuronWired

open Interrupt

/-! ## One exchange -/

/-- What the exchange `x`, made in state `s`, tells about `s`. -/
structure Sound (s : Sys) (e : Edge) (x : Exchange) : Prop where
  start : x.state = .listeningStart ∨ x.state = .dataReceiveStart ∨ x.state = .dataSendStart
  data : x.IsData → x.Answered MessType.resultOk ∨ x.Answered MessType.resultOkBusy →
    s.link.state = .dataReceiving ∧
      ∃ len, Exchange.header e.wire = some (len, MessType.data) ∧
        len.toNat ≤ (s.received e).length ∧
        Exchange.header (s.received e) = some (len, MessType.data)
  receive : x.state = .dataReceiveStart → x.Answered MessType.resultOk ∧
    (x.IsStart MessType.masterDataSendStart ∨ s.link.state = .dataReceiving ∧ x.IsUnknown)
  send : x.state = .dataSendStart ∨ (∀ r, x.answer ≠ [2, r]) → x.IsStart MessType.masterDataRecvStart

section Sound

variable {size : ℕ} {s t p : Sys} {e : Edge} {x : Exchange} {st : SpilsState} {ready : Bool} {r : UInt8}

/-- A result message that leaves the link listening. -/
theorem Sound.listening (hst : x.state = .listeningStart) (ha : x.answer = [2, r])
    (hd : x.IsData → x.Answered MessType.resultOk ∨ x.Answered MessType.resultOkBusy →
      s.link.state = .dataReceiving ∧ ∃ len, Exchange.header e.wire = some (len, MessType.data) ∧
        len.toNat ≤ (s.received e).length ∧
        Exchange.header (s.received e) = some (len, MessType.data)) : Sound s e x := by
  refine ⟨.inl hst, hd, fun hf => ?_, ?_⟩
  · rw [hst] at hf
    cases hf
  · rintro (hf | hf)
    · rw [hst] at hf
      cases hf
    · exact absurd ha (hf r)

theorem Sound.refused (hst : x.state = .listeningStart) (ha : x.answer = [2, r])
    (h1 : r ≠ MessType.resultOk) (h2 : r ≠ MessType.resultOkBusy) : Sound s e x :=
  .listening hst ha fun _ hok => absurd hok (Exchange.not_answered ha h1 h2)

/-- A message of another type is no DATA message. -/
theorem Exchange.not_data {len type : UInt8} (hh : Exchange.header x.wire = some (len, type))
    (ht : type ≠ MessType.data) : ¬x.IsData := by
  rintro ⟨len', hd⟩
  rw [hh] at hd
  exact ht (Prod.mk.inj (Option.some.inj hd)).2

/-- An accepted start message has the length of a header. -/
theorem Taken.isStart (h : Taken size s e t) {type : UInt8} (htype : t.head.2 = type)
    (good : ¬(t.head.1.toNat ≠ messHeaderSize ∨ t.cacheB.getLoadsize < t.head.1.toNat))
    (out : Bytes) (st : SpilsState) : Exchange.IsStart ⟨e.wire, out, st⟩ type := by
  have hlen : t.head.1 = 2 := by
    by_contra hne
    exact good (.inl fun h2 => hne (UInt8.toNat_inj.mp h2))
  have hh := (h.arrived.header (h.old.sized _)).2
  rw [show t.head = (t.head.1, t.head.2) from rfl, hlen, htype] at hh
  exact hh

theorem sound_dispatched (h : Taken size s e t) (hm : s.cacheB.look.Mod size)
    (hd : Dispatched t p st ready) : Sound s e ⟨e.wire, p.outMess, st⟩ := by
  have hsr := h.shape.recycleIn
  have hhead : Exchange.header e.wire = some (t.head.1, t.head.2) :=
    (h.arrived.header (h.old.sized _)).2
  have hstate : t.link.state = s.link.state := by rw [h.link]
  -- an accepted DATA message
  have hdata : ∀ (q : Sys) (r : UInt8), Shape size q → t.head.2 = MessType.data →
      t.link.state = .dataReceiving → t.head.1.toNat ≤ t.cacheB.getLoadsize →
      Sound s e ⟨e.wire, (q.answer r).outMess, .listeningStart⟩ := by
    intro q r hq type state whole
    refine .listening rfl (outMess_answer hq r) fun _ _ => ⟨hstate ▸ state, t.head.1, ?_, ?_, ?_⟩
    · rw [hhead, ← type]
    · rw [h.arrived.cache, (Buffer.mod_receive hm h.arrived.unloaded h.arrived.room).2.2] at whole
      exact whole
    · rw [(h.arrived.header (h.old.sized _)).1, ← type]
  cases hd with
  | startErr => exact .refused rfl (outMess_answer hsr _) (by decide) (by decide)
  | startOk type good =>
    refine ⟨.inr (.inl rfl), fun hf => absurd hf (Exchange.not_data hhead (by rw [type]; decide)),
      fun _ => ?_, ?_⟩
    · exact ⟨outMess_answer hsr _, .inl (h.isStart type good _ _)⟩
    · rintro (hf | hf)
      · cases hf
      · exact absurd (outMess_answer hsr _) (hf _)
  | recvErr => exact .refused rfl (outMess_answer hsr _) (by decide) (by decide)
  | recvBusy =>
    exact .refused rfl (outMess_answer h.shape.dummyIfEmpty.recycleIn _) (by decide) (by decide)
  | recvOk type good =>
    refine ⟨.inr (.inr rfl), fun hf => absurd hf (Exchange.not_data hhead (by rw [type]; decide)),
      fun hf => ?_, fun _ => h.isStart type good _ _⟩
    cases hf
  | dataErr => exact .refused rfl (outMess_answer hsr _) (by decide) (by decide)
  | dataBusy type state whole =>
    have hq : Shape size (t.shapeIn.mapLink fun l => { l with lineInBusy := true }) :=
      h.shape.shapeIn.mapLink _ rfl
    exact hdata _ _ hq type state whole
  | dataEmpty type state whole =>
    exact hdata _ _ ((h.shape.shapeIn.log _).recycleIn) type state whole
  | dataOk type state whole => exact hdata _ _ h.shape.shapeIn.swapIn.recycleIn type state whole
  | renewed type state =>
    refine ⟨.inr (.inl rfl), fun hf => absurd hf (Exchange.not_data hhead type.2.2), fun _ => ?_, ?_⟩
    · exact ⟨outMess_answer hsr _, .inr ⟨hstate ▸ state, _, _, hhead, type⟩⟩
    · rintro (hf | hf)
      · cases hf
      · exact absurd (outMess_answer hsr _) (hf _)
  | dataReady => exact .refused rfl (outMess_answer hsr _) (by decide) (by decide)
  | ready => exact .refused rfl (outMess_answer hsr _) (by decide) (by decide)

/-- **What an interrupt that completes a transfer adds to the history**, and the state it ends in. -/
theorem exchange_handled {s' : Sys} (hB : Base size s) (hrx : RxOk size s)
    (hm : s.cacheB.look.Mod size) (h : Handled e s s') :
    (s'.link.state = s.link.state ∧ (heard s'.ghost.trace) = heard s.ghost.trace) ∨
      ∃ x : Exchange, x.wire = e.wire ∧ Sound s e x ∧ s'.link.state = x.state.settled ∧
        (heard s'.ghost.trace).exchanges = (heard s.ghost.trace).exchanges ++ [x] := by
  cases h with
  | again k silent armed same eq =>
    subst eq
    left
    rw [Sys.link_mapSpi, Sys.ghost_mapSpi, (link_clockIn s e).1, (link_clockIn s e).2.2.2]
    exact ⟨rfl, rfl⟩
  | done p st ready k valid resend processed armed eq =>
    subst eq
    right
    have hsh := hB.shape.begun e
    have hh := (heard_processed processed).trans (heard_begun s e)
    refine ⟨⟨e.wire, p.outMess, st⟩, rfl, ?_, by rw [link_finish], ?_⟩
    · cases processed with
      | refused => exact .refused rfl (outMess_answer hsh _) (by decide) (by decide)
      | short => exact .refused rfl (outMess_answer hsh _) (by decide) (by decide)
      | taken free len hd => exact sound_dispatched (taken hB hrx free len) hm hd
    · obtain ⟨l, htrace, hl⟩ := trace_finish p st ready k
      rw [htrace, List.append_cons, heard_append_local _ fun x hx => (hl x hx).local, heard_append,
        hh]
      rfl

end Sound

/-! ## The history -/

/-- The last exchanges are a `MASTER_DATA_SEND_START` that was answered `RESULT_OK` and messages of
unknown type after it. -/
def Admitted (xs : List Exchange) : Prop :=
  ∃ pre y us, xs = pre ++ y :: us ∧ y.IsStart MessType.masterDataSendStart ∧
    y.Answered MessType.resultOk ∧ ∀ u ∈ us, u.IsUnknown

/-- An accepted DATA message. -/
def Exchange.Delivers (x : Exchange) : Prop :=
  x.IsData ∧ (x.Answered MessType.resultOk ∨ x.Answered MessType.resultOkBusy)

/-- The permissions that the history `xs` shows, for a link in state `st`. -/
structure Granted (st : SpilsState) (xs : List Exchange) : Prop where
  now : st = .dataReceiving → Admitted xs
  delivered : ∀ pre x post, xs = pre ++ x :: post → x.Delivers → Admitted pre
  sent : ∀ x ∈ xs, x.state = .dataSendStart ∨ (∀ r, x.answer ≠ [2, r]) →
    x.IsStart MessType.masterDataRecvStart

section Granted

variable {s : Sys} {e : Edge} {x : Exchange} {xs : List Exchange}

/-- An exchange at the end of a history or inside of it. -/
theorem append_singleton_cases {xs pre post : List Exchange} {x y : Exchange}
    (h : xs ++ [y] = pre ++ x :: post) : (xs = pre ∧ y = x) ∨ ∃ post', xs = pre ++ x :: post' := by
  rcases List.eq_nil_or_concat post with rfl | ⟨post', z, rfl⟩
  · left
    obtain ⟨h1, h2⟩ := List.append_inj' h rfl
    exact ⟨h1, (List.cons.inj h2).1⟩
  · right
    have h' : xs ++ [y] = (pre ++ x :: post') ++ [z] := by
      rw [h, List.concat_eq_append, List.append_assoc]
      rfl
    exact ⟨post', (List.append_inj' h' rfl).1⟩

/-- One more exchange. -/
theorem Granted.step (h : Granted s.link.state xs) (hx : Sound s e x) :
    Granted x.state.settled (xs ++ [x]) := by
  refine ⟨fun hst => ?_, fun pre y post heq hy => ?_, fun y hy hout => ?_⟩
  · have hrecv : x.state = .dataReceiveStart := by
      rcases hx.start with hs | hs | hs
      · rw [hs] at hst
        cases hst
      · exact hs
      · rw [hs] at hst
        cases hst
    obtain ⟨hok, hstart | ⟨hstate, hunknown⟩⟩ := hx.receive hrecv
    · exact ⟨xs, x, [], rfl, hstart, hok, fun u hu => by cases hu⟩
    · obtain ⟨pre, y, us, rfl, hy, hyok, hus⟩ := h.now hstate
      refine ⟨pre, y, us ++ [x], by rw [List.append_assoc]; rfl, hy, hyok, fun u hu => ?_⟩
      rcases List.mem_append.mp hu with hu | hu
      · exact hus u hu
      · rw [List.mem_singleton.mp hu]
        exact hunknown
  · rcases append_singleton_cases heq with ⟨rfl, rfl⟩ | ⟨post', hpre⟩
    · exact h.now (hx.data hy.1 hy.2).1
    · exact h.delivered pre y post' hpre hy
  · rcases List.mem_append.mp hy with hy | hy
    · exact h.sent y hy hout
    · rw [List.mem_singleton] at hy
      subst hy
      exact hx.send hout

/-- Between two accepted DATA messages there is another accepted start message. -/
theorem Granted.once {st : SpilsState} (h : Granted st xs) {pre mid post : List Exchange}
    {x x' : Exchange} (heq : xs = pre ++ x :: mid ++ x' :: post) (hx : x.Delivers)
    (hx' : x'.Delivers) :
    ∃ y ∈ mid, y.IsStart MessType.masterDataSendStart ∧ y.Answered MessType.resultOk := by
  obtain ⟨pre', y, us, hsplit, hy, hok, hus⟩ := h.delivered _ _ _ heq hx'
  obtain ⟨len, hdata⟩ := hx.1
  have hne : x ≠ y := by
    rintro rfl
    unfold Exchange.IsStart at hy
    rw [hdata] at hy
    exact absurd (Prod.mk.inj (Option.some.inj hy)).2 (by decide)
  rcases List.append_eq_append_iff.mp hsplit with ⟨l, hpre, hl⟩ | ⟨l, hpre, hl⟩
  · cases l with
    | nil => exact absurd (List.cons.inj hl).1 hne
    | cons z l =>
      obtain ⟨-, hmid⟩ := List.cons.inj hl
      exact ⟨y, by rw [hmid]; exact List.mem_append_right _ List.mem_cons_self, hy, hok⟩
  · cases l with
    | nil => exact absurd (List.cons.inj hl).1.symm hne
    | cons z l =>
      -- the DATA message would be one of the unknown messages
      obtain ⟨-, htail⟩ := List.cons.inj hl
      obtain ⟨len', type, hh, -, -, ht⟩ := hus x (by
        rw [htail]; exact List.mem_append_right _ List.mem_cons_self)
      rw [hdata] at hh
      exact absurd (Prod.mk.inj (Option.some.inj hh)).2.symm ht

end Granted

/-! ## Runs -/

/-- The outline extended by what every exchange keeps of the history. -/
theorem outline_history {C : LinkCall → Sys → Prop} {I : Irq → Sys → Prop} {g : Prop}
    {H : SpilsState → List Exchange → Prop} (size : ℕ)
    (hok : ∀ e s, I (.edge e) s → g → NoShort s e)
    (hH : ∀ s e x xs, I (.edge e) s → x.wire = e.wire → Sound s e x → H s.link.state xs →
      H x.state.settled (xs ++ [x])) :
    (linkMachine C I).Outline
      (fun s => (InAt size (InOpen size g True []) s ∧ Base size s) ∧
        Base size s ∧ H s.link.state (heard s.ghost.trace).exchanges)
      fun k s => (InAt size (Seen size g k.inFlight) s ∧ Base size s) ∧
        Base size s ∧ H s.link.state (heard s.ghost.trace).exchanges := by
  have O := outline_inbound C I size fun e s hi hg => (hok e s hi hg).passes
  refine O.extend (B := fun s => InAt size (fun v => v.cacheL.Mod size) s ∧ Base size s) ?_ ?_ ?_ ?_
  · exact fun s h => ⟨h.1.mono fun v hv => hv.core.cacheMod, h.2⟩
  · exact fun k s h => ⟨h.1.mono fun v hv => hv.cacheMod, h.2⟩
  · exact fun k => (frame_base size fun _ st h => H st h.exchanges).linkProg k
  · rintro s s' ⟨hin, hB⟩ ⟨i, hi, rfl⟩ ⟨-, hs⟩
    refine ⟨hB.run_irq i, ?_⟩
    cases i with
    | tick ms => exact hs
    | edge e =>
      have hm : s.cacheB.look.Mod size := by rw [← cacheL_inView hB.shape]; exact hin.view
      have hkey : ∀ s', Handled e s s' → H s'.link.state (heard s'.ghost.trace).exchanges := by
        intro s' hs'
        rcases exchange_handled hB hin.rx hm hs' with ⟨hst, hh⟩ | ⟨x, hw, hx, hst, hh⟩
        · rw [hst, hh]
          exact hs
        · rw [hst, hh]
          exact hH s e x _ hi hw hx hs
      exact hkey _ (hB.run_edge e)

/-- When `spils_init` returns the link is listening, and has armed one message. -/
theorem history_start {conf : SpilsConf} (hc : conf.Ok) (hw : Board) (slave : SpiSlave) :
    (start conf hw slave).link.state = .listening ∧
      (heard (start conf hw slave).ghost.trace).exchanges =
        [⟨[], [2, MessType.resultReady], .listeningStart⟩] := by
  obtain ⟨h, heq, -⟩ := start_eq conf hw slave
  have htrace : (prepared conf hw slave).ghost.trace = [] := by rw [prepared_eq hc]; rfl
  rw [heq, ← outMess_answer (shape_prepared hc hw slave)]
  refine ⟨rfl, ?_⟩
  show (heard ((prepared conf hw slave).ghost.trace ++ [_])).exchanges = _
  rw [htrace]
  rfl

theorem granted_start : Granted .listening [⟨[], [2, MessType.resultReady], .listeningStart⟩] := by
  refine ⟨fun hf => ?_, fun pre x post hf hx => ?_, fun x hx => ?_⟩
  · cases hf
  · have hmem : x ∈ [(⟨[], [2, MessType.resultReady], .listeningStart⟩ : Exchange)] := by
      rw [hf]
      exact List.mem_append_right _ List.mem_cons_self
    obtain ⟨⟨len, hdata⟩, -⟩ := hx
    rw [List.mem_singleton.mp hmem] at hdata
    cases hdata
  · rw [List.mem_singleton] at hx
    subst hx
    rintro (hf | hf)
    · cases hf
    · exact absurd rfl (hf _)

/-- **Handshake safety**: a DATA message is accepted only when the exchanges before it, messages of
unknown type aside, end in an accepted `MASTER_DATA_SEND_START`; between two of them there is another
such start; and anything but a result message is armed only in answer to a `MASTER_DATA_RECV_START`. -/
theorem handshake_safety {s₀ : Sys} (h₀ : Initial s₀) {c : Cfg Sys LinkCall}
    (hc : (linkMachine (fun _ _ => True) fun _ _ => True).Reach s₀ c) (hq : c.irq = none) :
    (∀ pre x post, (heard c.st.ghost.trace).exchanges = pre ++ x :: post → x.Delivers →
      Admitted pre) ∧
    (∀ pre x mid x' post, (heard c.st.ghost.trace).exchanges = pre ++ x :: mid ++ x' :: post →
      x.Delivers → x'.Delivers →
        ∃ y ∈ mid, y.IsStart MessType.masterDataSendStart ∧ y.Answered MessType.resultOk) ∧
    ∀ x ∈ (heard c.st.ghost.trace).exchanges,
      x.state = .dataSendStart ∨ (∀ r, x.answer ≠ [2, r]) →
        x.IsStart MessType.masterDataRecvStart := by
  obtain ⟨conf, hw, slave, hok, rfl⟩ := h₀
  have hB := base_start hok hw slave
  have hstart := history_start hok hw slave
  have O := outline_history (C := fun _ _ => True) (I := fun _ _ => True) (g := False)
    (H := Granted) (conf.messageSizeMax + 2) (fun _ _ _ hf => hf.elim) fun _ _ _ _ _ _ hx h => h.step hx
  have h : Granted c.st.link.state (heard c.st.ghost.trace).exchanges :=
    O.always ⟨⟨inAt_start hok hw slave, hB⟩, hB, by rw [hstart.1, hstart.2]; exact granted_start⟩
      (fun _ h => h.2.2) (fun _ _ h => h.2.2) hc hq
  exact ⟨h.delivered, fun _ _ _ _ _ heq hx hx' => h.once heq hx hx', h.sent⟩

/-- A start message and a DATA message. -/
theorem handshake_safety_sample :
    Admitted [⟨[], [2, MessType.resultReady], .listeningStart⟩,
      ⟨[2, 1], [2, MessType.resultOk], .dataReceiveStart⟩] := by
  have hreach := Machine.Reach.play (M := linkMachine (fun _ _ => True) fun _ _ => True)
    (c := (sampleLink, none)) [.irq (.edge (.of [2, 1])), .irq (.edge (.of [4, 3, 7, 9]))] .init
    (by decide)
  exact (handshake_safety sampleLink_initial hreach rfl).1 _
    ⟨[4, 3, 7, 9], [2, MessType.resultOk], .listeningStart⟩ [] (by decide) ⟨⟨4, rfl⟩, .inl rfl⟩

end NeuronWired
