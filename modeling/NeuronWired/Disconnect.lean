import NeuronWired.Base

/-!
# Disconnect — the connection machine against the clock

The disconnect timer is set and checked with the 32-bit value of `millis`, and `connection_detected` is
not cleared when CONNECTED is reported.  `Con` is the connection machine on its own, and `Con.poll` is
what `spils_poll` does to it; `Watch` remembers on the unwrapped clock what the timer stands for.  A poll
reports DISCONNECTED when it is due, and only then, exactly if it finds a `Timely` state.
-/

namespace NeuronWired

open Interrupt

/-! ## The connection machine on its own -/

/-- The state of the connection machine, the clock before it is cut to 32 bits, and how often
DISCONNECTED has been reported. -/
structure Con where
  state : SpilsConState
  detected : Bool
  timer : ℕ
  timeout : ℕ
  now : ℕ
  downs : ℕ
  deriving DecidableEq, Repr

/-- How often DISCONNECTED has been reported. -/
def Sys.downs (s : Sys) : ℕ := s.ghost.trace.count (.event .disconnected)

/-- The connection machine of a state. -/
def Sys.con (s : Sys) : Con :=
  { state := s.link.conState
    detected := s.link.connectionDetected
    timer := s.link.disconnectTimer
    timeout := s.link.disconnectTimeoutMs
    now := s.now
    downs := s.downs }

namespace Con

/-- The timer set to the timeout from now on. -/
def refresh (c : Con) : Con :=
  { c with timer := u32 ((c.now % 4294967296 : ℕ) + (c.timeout : ℤ)) }

/-- CONNECTED is reported. -/
def connect (c : Con) : Con := { c.refresh with state := .connected }

/-- DISCONNECTED is reported if the timer has expired. -/
def expire (c : Con) : Con :=
  if c.timer ≤ c.now % 4294967296 then
    { c with detected := false, state := .disconnected, downs := c.downs + 1 }
  else c

/-- A transfer that was detected is taken note of. -/
def notice (c : Con) : Con := if c.detected = true then { c.refresh with detected := false } else c

/-- What a poll does. -/
def poll (c : Con) : Con :=
  match c.state with
  | .unknown => if c.detected = true then c.connect else c.expire
  | .disconnected => if c.detected = true then c.connect else c
  | .connected => c.notice.expire

end Con

section Code

variable {s s' : Sys} {K : Con}

theorem downs_log (s : Sys) {x : Obs} (hx : x ≠ .event .disconnected) : (s.log x).downs = s.downs := by
  unfold Sys.downs
  rw [Sys.trace_log, List.count_append, List.count_singleton, if_neg (by simpa using hx)]
  rfl

theorem con_log (s : Sys) {x : Obs} (hx : x ≠ .event .disconnected) : (s.log x).con = s.con := by
  unfold Sys.con
  rw [downs_log s hx]
  rfl

/-- The fields of the link that the connection machine uses. -/
def Spils.con (l : Spils) : SpilsConState × Bool × ℕ × ℕ :=
  (l.conState, l.connectionDetected, l.disconnectTimer, l.disconnectTimeoutMs)

theorem con_mapLink (s : Sys) {f : Spils → Spils} (hf : (f s.link).con = s.link.con) :
    (s.mapLink f).con = s.con := by
  simp only [Spils.con, Prod.mk.injEq] at hf
  obtain ⟨h1, h2, h3, h4⟩ := hf
  unfold Sys.con
  rw [Sys.link_mapLink, h1, h2, h3, h4]
  rfl

theorem run_disconnectTimerReset (s : Sys) : disconnectTimerReset.run s = ((), s.mapLink fun l =>
    { l with disconnectTimer := u32 ((s.millis : ℤ) + s.link.disconnectTimeoutMs) }) := rfl

theorem con_setConnected (s : Sys) : (conStateSetConnected.run s).2.con = s.con.connect := by
  have hlog := con_log ((s.mapLink fun l => { l with
    disconnectTimer := u32 ((s.millis : ℤ) + s.link.disconnectTimeoutMs)
    conState := .connected }).mapSlave (spilsEventHandler .connected)) (x := .event .connected) (by simp)
  exact hlog

theorem con_setDisconnected (s : Sys) :
    (conStateSetDisconnected.run s).2.con =
      { s.con with detected := false, state := .disconnected, downs := s.con.downs + 1 } := by
  have hcount : (s.ghost.trace ++ [Obs.event .disconnected]).count (.event .disconnected) =
      s.downs + 1 := by
    rw [List.count_append]
    rfl
  show ({ s.con with
    detected := false, state := .disconnected
    downs := (s.ghost.trace ++ [Obs.event .disconnected]).count (.event .disconnected) } : Con) = _
  rw [hcount]
  rfl

theorem con_expire (s : Sys) : (conStateConnectedExpire.run s).2.con = s.con.expire := by
  have hcheck : timerCheck.run s = (decide (s.link.disconnectTimer ≤ s.millis), s) := rfl
  unfold conStateConnectedExpire
  rw [Prog.run_bind_of hcheck]
  by_cases h : s.con.timer ≤ s.con.now % 4294967296
  · have hyes : decide (s.link.disconnectTimer ≤ s.millis) = true := decide_eq_true h
    rw [if_pos hyes, con_setDisconnected]
    exact (if_pos h).symm
  · have hnot : ¬ decide (s.link.disconnectTimer ≤ s.millis) = true := by
      rw [decide_eq_true_eq]
      exact h
    rw [if_neg hnot]
    exact (if_neg h).symm

theorem con_expireUnknown (s : Sys) (h : ¬ s.link.connectionDetected = true) :
    (conStateUnknown.run s).2.con = s.con.expire := by
  unfold conStateUnknown
  rw [Prog.run_bind_of (run_readLink s _), if_neg h]
  exact con_expire s

theorem con_conStateConnected (s : Sys) : (conStateConnected.run s).2.con = s.con.notice.expire := by
  unfold conStateConnected
  rw [Prog.run_bind_of (run_readLink s _)]
  by_cases h : s.link.connectionDetected = true
  · have hnotice : s.con.notice = { s.con.refresh with detected := false } := if_pos h
    rw [if_pos h, Prog.run_bind_of (run_disconnectTimerReset s), Prog.run_bind_of (run_writeLink _ _),
      con_expire, hnotice]
    rfl
  · have hnotice : s.con.notice = s.con := if_neg h
    rw [if_neg h, con_expire, hnotice]

/-- `_con_machine` is the machine on its own. -/
theorem con_conMachine (s : Sys) : (conMachine.run s).2.con = s.con.poll := by
  have hst : s.con.state = s.link.conState := rfl
  unfold conMachine Con.poll
  rw [Prog.run_bind_of (run_readLink s _), hst]
  cases s.link.conState with
  | unknown =>
    show (conStateUnknown.run s).2.con = _
    by_cases h : s.link.connectionDetected = true
    · unfold conStateUnknown
      rw [Prog.run_bind_of (run_readLink s _), if_pos h, con_setConnected]
      exact (if_pos h).symm
    · rw [con_expireUnknown s h]
      exact (if_neg h).symm
  | disconnected =>
    show (conStateDisconnected.run s).2.con = _
    unfold conStateDisconnected
    rw [Prog.run_bind_of (run_readLink s _)]
    by_cases h : s.link.connectionDetected = true
    · rw [if_pos h, con_setConnected]
      exact (if_pos h).symm
    · rw [if_neg h]
      exact (if_neg h).symm
  | connected => exact con_conStateConnected s

/-- The inbound half of a poll and `spils_data_read` leave it alone. -/
theorem inFrame_con (K : Con) : InFrame fun s =>
    (s.link.pBufferIn.isIn = true ∧ s.link.pBufferInCache.isIn = true) ∧ s.con = K where
  isIn _ h := h.1
  link s f hf hp hc h := by
    refine ⟨⟨hp, hc⟩, ?_⟩
    rw [con_mapLink s (Spils.field_eq hf Spils.con fun _ => rfl)]
    exact h.2
  buf _ _ _ _ _ h := h
  swapIn _ _ h := h
  reading _ _ h := h
  event s h := by
    refine ⟨h.1, ?_⟩
    rw [con_log (x := .event .dataInReady) _ (by simp)]
    exact h.2
  log s x hx h := by
    refine ⟨h.1, ?_⟩
    rw [con_log s (by rintro rfl; exact hx)]
    exact h.2

/-- So does `spils_data_send`. -/
theorem outFrame_con (K : Con) : OutFrame fun s => s.link.pBufferOut.isIn = false ∧ s.con = K where
  isOut _ h := h.1
  link s f hf h := by
    have hout := Spils.field_eq hf Spils.pBufferOut fun _ => rfl
    refine ⟨(congrArg BufId.isIn hout).trans h.1, ?_⟩
    rw [con_mapLink s (Spils.field_eq hf Spils.con fun _ => rfl)]
    exact h.2
  buf _ _ _ _ _ h := h
  filling _ _ h := h
  failed s msg h := by
    refine ⟨h.1, ?_⟩
    rw [con_log s (by simp)]
    exact h.2

/-- `spils_poll` is the machine on its own. -/
theorem con_spilsPoll {size : ℕ} (h : Base size s) : (spilsPoll.run s).2.con = s.con.poll := by
  have hcon : Base size (conMachine.run s).2 := (frame_base_only size).con.conMachine.run h
  have hline := (inFrame_con (conMachine.run s).2.con).lineInBusyProcess.run
    ⟨⟨hcon.shape.inBuf, hcon.shape.inCache⟩, rfl⟩
  have hrun : spilsPoll.run s = lineInBusyProcess.run (conMachine.run s).2 := Prog.run_bind _ _ _
  rw [hrun, hline.2, con_conMachine]

/-- The other calls leave the connection machine alone. -/
theorem con_linkProg {size : ℕ} (h : Base size s) {k : LinkCall} (hk : k ≠ .poll) :
    ((linkProg k).run s).2.con = s.con := by
  cases k with
  | poll => exact absurd rfl hk
  | dataRead =>
    have hread : Keeps _ (linkProg .dataRead) :=
      .bind (inFrame_con s.con).spilsDataRead fun _ => keeps_pure _
    exact (hread.run ⟨⟨h.shape.inBuf, h.shape.inCache⟩, rfl⟩).2
  | dataSend pData dataSize =>
    have hsend : Keeps _ (linkProg (.dataSend pData dataSize)) :=
      .bind ((outFrame_con s.con).spilsDataSend fun t r ht =>
        ⟨ht.1, (con_log t (by simp)).trans ht.2⟩) fun _ => keeps_pure _
    exact (hsend.run ⟨h.shape.outBuf, rfl⟩).2

/-! ## The connection machine and the interrupts -/

/-- What the connection machine of a state and its clock are made of, the trace apart. -/
def Sys.clocked (s : Sys) : (SpilsConState × Bool × ℕ × ℕ) × ℕ := (s.link.con, s.now)

theorem clocked_dispatched {t p : Sys} {st : SpilsState} {ready : Bool} (hd : Dispatched t p st ready) :
    p.clocked = t.clocked := by
  cases hd with
  | recvBusy => exact field_dummyIfEmpty Sys.clocked (fun _ _ _ => rfl) t
  | recvOk => exact field_moveOut_dummyIfEmpty Sys.clocked (fun _ _ _ => rfl) (fun _ => ⟨rfl, rfl⟩) t
  | _ => rfl

theorem clocked_processed {n : ℕ} {t p : Sys} {st : SpilsState} {ready : Bool}
    (hp : Processed n t p st ready) : p.clocked = t.clocked := by
  cases hp with
  | refused => rfl
  | short => rfl
  | taken _ _ hd => exact clocked_dispatched (t := t.takeIn n) hd

theorem con_of_clocked (h : s'.clocked = s.clocked) (hd : s'.downs = s.downs) : s'.con = s.con := by
  simp only [Sys.clocked, Spils.con, Prod.mk.injEq] at h
  obtain ⟨⟨h1, h2, h3, h4⟩, h5⟩ := h
  unfold Sys.con
  rw [h1, h2, h3, h4, h5, hd]

/-- Notes report no disconnection. -/
theorem count_note {l : List Obs} (h : ∀ x ∈ l, x.Note) : l.count (.event .disconnected) = 0 := by
  rw [List.count_eq_zero]
  intro hmem
  exact h _ hmem

/-- A transfer is heard. -/
def Con.hear (c : Con) (valid : Bool) : Con := { c with detected := c.detected || valid }

/-- Time passes. -/
def Con.tick (c : Con) (ms : ℕ) : Con := { c with now := c.now + ms }

theorem con_edge {size : ℕ} (h : Base size s) (e : Edge) :
    ((irqProg (.edge e)).run s).2.con = s.con.hear (decide (s.received e ≠ [])) := by
  obtain ⟨hlink, -, hnow, hghost⟩ := link_clockIn s e
  have hclock : (s.clockIn e).clocked = s.clocked := by
    unfold Sys.clocked
    rw [hlink, hnow]
  rcases h.run_edge e with ⟨g, hsilent, -, -, heq⟩ | ⟨p, st, ready, g, hvalid, -, hp, -, heq⟩
  · have hhear : s.con.hear (decide (s.received e ≠ [])) = s.con := by
      unfold Con.hear
      rw [hsilent]
      simp
    rw [heq, hhear]
    refine con_of_clocked hclock ?_
    show (s.clockIn e).ghost.trace.count _ = _
    rw [hghost]
    rfl
  · obtain ⟨l₁, l₂, htrace, hnote⟩ := trace_done hp g
    have hdowns : (p.finish st ready g).downs = s.downs := by
      have hl := count_note hnote
      unfold Sys.downs
      rw [htrace]
      simp only [List.count_append, List.count_cons] at hl ⊢
      simp only [beq_iff_eq, reduceCtorEq, if_false]
      omega
    have hfinish : (p.finish st ready g).clocked = p.clocked := by
      unfold Sys.finish
      split_ifs <;> rfl
    have hbegun : (s.begun e).clocked =
        ((s.clockIn e).mapLink fun l => { l with connectionDetected := true }).clocked := by
      unfold Sys.begun Sys.outDone
      split_ifs <;> rfl
    have hheard : ((s.clockIn e).mapLink fun l => { l with connectionDetected := true }).clocked =
        (s.mapLink fun l => { l with connectionDetected := true }).clocked := by
      unfold Sys.clocked
      rw [Sys.link_mapLink, hlink]
      exact congrArg _ hnow
    have hhear : s.con.hear (decide (s.received e ≠ [])) =
        (s.mapLink fun l => { l with connectionDetected := true }).con := by
      unfold Con.hear
      rw [decide_eq_true hvalid, Bool.or_true]
      rfl
    rw [heq, hhear]
    exact con_of_clocked (hfinish.trans ((clocked_processed hp).trans (hbegun.trans hheard))) hdowns

end Code

/-! ## The transfers and the times that a run remembers -/

/-- What is remembered beside a run: whether a transfer was heard since the previous poll, the time of the
last poll that found one or reported CONNECTED, and the time the timer was last set. -/
structure Watch where
  seen : Bool
  since : ℕ
  set : ℕ
  deriving DecidableEq, Repr

namespace Watch

/-- From the start on nothing has been heard. -/
def begin (now : ℕ) : Watch := ⟨false, now, now⟩

/-- A transfer is heard. -/
def hear (w : Watch) (valid : Bool) : Watch := { w with seen := w.seen || valid }

/-- A poll: it may find a transfer or report CONNECTED, and it sets the timer if the flag is set. -/
def poll (w : Watch) (c : Con) : Watch :=
  { seen := false
    since := if w.seen = true ∨ c.state ≠ .connected ∧ c.poll.state = .connected then c.now else w.since
    set := if c.detected = true then c.now else w.set }

/-- DISCONNECTED is due: no transfer was heard, and the timeout is over. -/
def Due (w : Watch) (c : Con) : Prop := w.seen = false ∧ w.since + c.timeout ≤ c.now

instance (w : Watch) (c : Con) : Decidable (w.Due c) := inferInstanceAs (Decidable (_ ∧ _))

/-- The 32-bit clock gives the right answer.  If the flag is set, the timer is set again and has expired
at once if the sum wraps: right only when the flag is left over from the report of CONNECTED and the time
is over.  If the flag is clear, the clock must not have wrapped since the timer was set and must not be
between the two deadlines, or it must have wrapped and caught up with the timer. -/
def Timely (w : Watch) (c : Con) : Prop :=
  if c.detected = true then
    (c.now % 4294967296 + c.timeout < 4294967296 ∧
      (w.seen = true ∨ c.now < w.since + c.timeout)) ∨
    (4294967296 ≤ c.now % 4294967296 + c.timeout ∧
      w.seen = false ∧ w.since + c.timeout ≤ c.now)
  else
    (c.now / 4294967296 = w.set / 4294967296 ∧
      (c.now < w.since + c.timeout ∨ w.set + c.timeout ≤ c.now)) ∨
    (w.set / 4294967296 < c.now / 4294967296 ∧ c.timer ≤ c.now % 4294967296)

instance (w : Watch) (c : Con) : Decidable (w.Timely c) := by
  unfold Timely
  infer_instance

end Watch

/-- The memory agrees with the connection machine. -/
structure Con.Follows (c : Con) (w : Watch) : Prop where
  since_le : w.since ≤ c.now
  flag : w.seen = true → c.detected = true
  timer : c.state = .connected → c.detected = false → w.since ≤ w.set ∧ w.set ≤ c.now ∧
    w.set % 4294967296 + c.timeout < 4294967296 ∧ c.timer = w.set % 4294967296 + c.timeout

namespace Con.Follows

variable {c : Con} {w : Watch}

theorem unseen (h : c.Follows w) (hd : c.detected = false) : w.seen = false := by
  cases hs : w.seen with
  | false => rfl
  | true =>
    have hflag := h.flag hs
    rw [hd] at hflag
    cases hflag

theorem hear (h : c.Follows w) (valid : Bool) : (c.hear valid).Follows (w.hear valid) := by
  refine ⟨h.since_le, fun hs => ?_, fun hst hd => ?_⟩
  · rcases Bool.or_eq_true_iff.mp hs with hs | hs
    · exact Bool.or_eq_true_iff.mpr (.inl (h.flag hs))
    · exact Bool.or_eq_true_iff.mpr (.inr hs)
  · exact h.timer hst (Bool.or_eq_false_iff.mp hd).1

theorem tick (h : c.Follows w) (ms : ℕ) : (c.tick ms).Follows w := by
  refine ⟨Nat.le_add_right_of_le h.since_le, h.flag, fun hst hd => ?_⟩
  obtain ⟨h1, h2, h3, h4⟩ := h.timer hst hd
  exact ⟨h1, Nat.le_add_right_of_le h2, h3, h4⟩

/-- A poll with the flag clear. -/
theorem poll_clear (h : c.Follows w) (hd : c.detected = false) : c.poll.Follows (w.poll c) := by
  have hseen := h.unseen hd
  have hpoll : c.poll = c.expire ∨ c.poll = c := by
    unfold Con.poll Con.notice
    cases c.state <;> simp [hd]
  have hkeep : c.poll.state = .connected → c.poll = c := by
    intro hst
    rcases hpoll with hp | hp
    · rw [hp] at hst ⊢
      unfold Con.expire at hst ⊢
      split_ifs at hst ⊢
      rfl
    · exact hp
  have hnow : c.poll.now = c.now ∧ c.poll.detected = false := by
    rcases hpoll with hp | hp
    · rw [hp]
      unfold Con.expire
      split_ifs
      · exact ⟨rfl, rfl⟩
      · exact ⟨rfl, hd⟩
    · rw [hp]
      exact ⟨rfl, hd⟩
  have hsince : (w.poll c).since = w.since := by
    refine if_neg ?_
    rintro (hs | ⟨hne, hst⟩)
    · rw [hseen] at hs
      cases hs
    · rw [hkeep hst] at hst
      exact hne hst
  have hset : (w.poll c).set = w.set := if_neg (by rw [hd]; decide)
  refine ⟨?_, fun hs => ?_, fun hst _ => ?_⟩
  · rw [hsince, hnow.1]
    exact h.since_le
  · cases hs
  · rw [hsince, hset, hkeep hst]
    exact h.timer (hkeep hst ▸ hst) hd

/-- A poll with the flag set. -/
theorem poll_detected (h : c.Follows w) (hms : c.timeout < 4294967296) (hd : c.detected = true) :
    c.poll.Follows (w.poll c) := by
  have hset : (w.poll c).set = c.now := if_pos hd
  have hsince : (w.poll c).since ≤ c.now := by
    show (if _ then _ else _) ≤ _
    split_ifs
    · exact Nat.le_refl _
    · exact h.since_le
  have hconnect : c.poll = c.connect ∨
      c.poll = ({ c.refresh with detected := false } : Con).expire := by
    unfold Con.poll Con.notice
    cases c.state <;> simp [hd]
  rcases hconnect with hp | hp
  · rw [hp]
    refine ⟨hsince, fun hs => ?_, fun _ hclear => ?_⟩
    · cases hs
    · exact absurd (hd.symm.trans hclear) (by decide)
  · rw [hp]
    unfold Con.expire
    split_ifs with hexp
    · refine ⟨hsince, fun hs => ?_, fun hst _ => ?_⟩
      · cases hs
      · cases hst
    · have hlt : c.now % 4294967296 < u32 ((c.now % 4294967296 : ℕ) + (c.timeout : ℤ)) :=
        Nat.lt_of_not_le hexp
      have hsum : c.now % 4294967296 + c.timeout < 4294967296 ∧
          u32 ((c.now % 4294967296 : ℕ) + (c.timeout : ℤ)) = c.now % 4294967296 + c.timeout := by
        unfold u32 at hlt ⊢
        omega
      refine ⟨hsince, fun hs => ?_, fun _ _ => ?_⟩
      · cases hs
      · rw [hset]
        exact ⟨hsince, Nat.le_refl _, hsum.1, hsum.2⟩

theorem poll (h : c.Follows w) (hms : c.timeout < 4294967296) : c.poll.Follows (w.poll c) := by
  cases hd : c.detected with
  | false => exact h.poll_clear hd
  | true => exact h.poll_detected hms hd

/-- A poll decides as it should exactly if the state it finds is timely. -/
theorem decided (h : c.Follows w) (hpos : 0 < c.timeout) (hms : c.timeout < 4294967296)
    (hst : c.state = .connected) : (c.downs < c.poll.downs ↔ w.Due c) ↔ w.Timely c := by
  have hpoll : c.poll = c.notice.expire := by
    unfold Con.poll
    rw [hst]
  have hreport : c.downs < c.poll.downs ↔ c.notice.timer ≤ c.now % 4294967296 := by
    have hnotice : c.notice.downs = c.downs ∧ c.notice.now = c.now := by
      unfold Con.notice
      split_ifs <;> exact ⟨rfl, rfl⟩
    rw [hpoll, ← hnotice.1, ← hnotice.2]
    unfold Con.expire
    split_ifs with hexp
    · exact iff_of_true (Nat.lt_succ_self _) hexp
    · exact iff_of_false (Nat.lt_irrefl _) hexp
  rw [hreport]
  unfold Con.notice Watch.Due Watch.Timely
  cases hd : c.detected with
  | true =>
    -- the timer is set again: it has expired at once if and only if the sum wraps
    have hwrap : u32 ((c.now % 4294967296 : ℕ) + (c.timeout : ℤ)) ≤ c.now % 4294967296 ↔
        4294967296 ≤ c.now % 4294967296 + c.timeout := by
      unfold u32
      omega
    show (u32 ((c.now % 4294967296 : ℕ) + (c.timeout : ℤ)) ≤ c.now % 4294967296 ↔ _) ↔ _
    rw [hwrap, if_pos rfl]
    cases w.seen
    · simp only [Bool.false_eq_true, false_or, true_and]
      omega
    · simp only [Bool.true_eq_false, false_and, true_or, and_true, and_false, or_false, iff_false]
      omega
  | false =>
    obtain ⟨h1, h2, h3, h4⟩ := h.timer hst hd
    rw [if_neg Bool.false_ne_true, if_neg Bool.false_ne_true, h4, h.unseen hd]
    simp only [true_and]
    omega

end Con.Follows

/-! ## Runs -/

/-- What happens between two polls: calls of the link and interrupts, none inside another. -/
inductive LinkEvent where
  | call (k : LinkCall)
  | irq (i : Irq)
  deriving DecidableEq, Repr

/-- The state after an event. -/
def Sys.happen (s : Sys) : LinkEvent → Sys
  | .call k => ((linkProg k).run s).2
  | .irq i => ((irqProg i).run s).2

/-- What is remembered after an event. -/
def Watch.happen (w : Watch) (s : Sys) : LinkEvent → Watch
  | .call .poll => w.poll s.con
  | .irq (.edge e) => w.hear (decide (s.received e ≠ []))
  | _ => w

/-- The state and the memory after a run. -/
def watched (l : List LinkEvent) (s : Sys) (w : Watch) : Sys × Watch :=
  l.foldl (fun x ev => (x.1.happen ev, x.2.happen x.1 ev)) (s, w)

/-- `spils_poll` reports DISCONNECTED. -/
def ReportsDisconnected (s : Sys) : Prop := s.downs < (spilsPoll.run s).2.downs

instance (s : Sys) : Decidable (ReportsDisconnected s) := inferInstanceAs (Decidable (_ < _))

/-- What holds at every point of a run. -/
structure Followed (size ms : ℕ) (s : Sys) (w : Watch) : Prop where
  base : Base size s
  timeout : s.con.timeout = ms
  follows : s.con.Follows w

section Runs

variable {size ms : ℕ} {s : Sys} {w : Watch}

theorem Con.timeout_poll (c : Con) : c.poll.timeout = c.timeout := by
  unfold Con.poll Con.notice Con.connect Con.expire
  cases c.state <;> dsimp only <;> split_ifs <;> rfl

theorem Followed.call (h : Followed size ms s w) (hms : ms < 4294967296) (k : LinkCall) :
    Followed size ms (s.happen (.call k)) (w.happen s (.call k)) := by
  have hbase : Base size (s.happen (.call k)) := ((frame_base_only size).linkProg k).run h.base
  by_cases hk : k = .poll
  · subst hk
    have hcon : (s.happen (.call .poll)).con = s.con.poll := con_spilsPoll h.base
    refine ⟨hbase, ?_, ?_⟩
    · rw [hcon, Con.timeout_poll]
      exact h.timeout
    · rw [hcon]
      exact h.follows.poll (h.timeout ▸ hms)
  · have hcon : (s.happen (.call k)).con = s.con := con_linkProg h.base hk
    have hw : w.happen s (.call k) = w := by
      cases k with
      | poll => exact absurd rfl hk
      | dataRead => rfl
      | dataSend => rfl
    refine ⟨hbase, ?_, ?_⟩
    · rw [hcon]
      exact h.timeout
    · rw [hcon, hw]
      exact h.follows

theorem Followed.irq (h : Followed size ms s w) (i : Irq) :
    Followed size ms (s.happen (.irq i)) (w.happen s (.irq i)) := by
  have hbase : Base size (s.happen (.irq i)) := h.base.run_irq i
  cases i with
  | edge e =>
    have hcon : (s.happen (.irq (.edge e))).con = s.con.hear (decide (s.received e ≠ [])) :=
      con_edge h.base e
    refine ⟨hbase, ?_, ?_⟩
    · rw [hcon]
      exact h.timeout
    · rw [hcon]
      exact h.follows.hear _
  | tick n =>
    have hcon : (s.happen (.irq (.tick n))).con = s.con.tick n := rfl
    refine ⟨hbase, ?_, ?_⟩
    · rw [hcon]
      exact h.timeout
    · rw [hcon]
      exact h.follows.tick n

theorem Followed.run (h : Followed size ms s w) (hms : ms < 4294967296) (l : List LinkEvent) :
    Followed size ms (watched l s w).1 (watched l s w).2 := by
  induction l generalizing s w with
  | nil => exact h
  | cons ev l ih =>
    cases ev with
    | call k => exact ih (h.call hms k)
    | irq i => exact ih (h.irq i)

theorem followed_start {conf : SpilsConf} (hc : conf.Ok) (hw : Board) (slave : SpiSlave) :
    Followed (conf.messageSizeMax + 2) conf.disconnectTimeoutMs (start conf hw slave) (.begin hw.now) := by
  obtain ⟨g, heq, -⟩ := start_eq conf hw slave
  have hcon : (start conf hw slave).con = (prepared conf hw slave).con := by
    rw [heq]
    refine con_of_clocked rfl ?_
    exact downs_log ((prepared conf hw slave).answer MessType.resultReady) (by simp)
  refine ⟨base_start hc hw slave, ?_, ?_⟩
  · rw [hcon, prepared_eq hc]
    rfl
  · rw [hcon, prepared_eq hc]
    refine ⟨Nat.le_refl _, fun hs => ?_, fun hst _ => ?_⟩
    · cases hs
    · cases hst

end Runs

/-- **A poll entered in CONNECTED reports DISCONNECTED when it is due and only then, exactly if the state is
timely**, in every run, whatever the clock shows at the start. -/
theorem disconnect_decided {conf : SpilsConf} (hc : conf.Ok) (hpos : 0 < conf.disconnectTimeoutMs)
    (hms : conf.disconnectTimeoutMs < 2147483648) (hw : Board) (slave : SpiSlave) (l : List LinkEvent)
    {s : Sys} {w : Watch} (hrun : watched l (start conf hw slave) (.begin hw.now) = (s, w))
    (hst : s.link.conState = .connected) :
    (ReportsDisconnected s ↔ w.Due s.con) ↔ w.Timely s.con := by
  have h := (followed_start hc hw slave).run (by omega) l
  rw [hrun] at h
  have hpoll : (spilsPoll.run s).2.downs = s.con.poll.downs := congrArg Con.downs (con_spilsPoll h.base)
  unfold ReportsDisconnected
  rw [hpoll]
  exact h.follows.decided (h.timeout ▸ hpos) (h.timeout ▸ by omega) hst

/-- Four-byte messages, a timeout of a second, and a clock that shows `now` at the start. -/
def sampleClock (now : ℕ) : Sys :=
  start ⟨4, 1000⟩ ⟨8, true, true, now⟩ ⟨false, false, false, .new 4, .new 4⟩

/-- A transfer that is heard, and a poll. -/
def heardPoll : List LinkEvent := [.irq (.edge (.of [2, 0])), .call .poll]

/-- CONNECTED has just been reported. -/
def justConnected : Sys × Watch := watched heardPoll (sampleClock 0) (.begin 0)

theorem disconnect_decided_connected :
    (ReportsDisconnected justConnected.1 ↔ justConnected.2.Due justConnected.1.con) ↔
      justConnected.2.Timely justConnected.1.con :=
  disconnect_decided (show SpilsConf.Ok ⟨4, 1000⟩ by decide) (by decide) (by decide) ⟨8, true, true, 0⟩
    ⟨false, false, false, .new 4, .new 4⟩ heardPoll (s := justConnected.1) (w := justConnected.2) rfl
    (by decide +kernel)

/-- A transfer is heard in CONNECTED 996 ms before the clock wraps, and the next poll reports DISCONNECTED. -/
def beforeWrap : Sys × Watch :=
  watched (heardPoll ++ [.irq (.edge (.of [2, 0]))]) (sampleClock 4294966300) (.begin 4294966300)

/-- No transfer is heard for a second after the report of CONNECTED, and the poll then reports nothing. -/
def afterConnect : Sys × Watch :=
  watched (heardPoll ++ [.irq (.tick 1000)]) (sampleClock 0) (.begin 0)

/-- The timer would expire half a second before the clock wraps; the next poll comes half a second after
that and reports nothing. -/
def afterWrap : Sys × Watch :=
  watched (heardPoll ++ [.call .poll, .irq (.tick 2000)]) (sampleClock 4294965796) (.begin 4294965796)

theorem disconnect_wrong :
    (beforeWrap.1.link.conState = .connected ∧
      ReportsDisconnected beforeWrap.1 ∧ ¬ beforeWrap.2.Due beforeWrap.1.con) ∧
    (afterConnect.1.link.conState = .connected ∧
      ¬ ReportsDisconnected afterConnect.1 ∧ afterConnect.2.Due afterConnect.1.con) ∧
    (afterWrap.1.link.conState = .connected ∧
      ¬ ReportsDisconnected afterWrap.1 ∧ afterWrap.2.Due afterWrap.1.con) := by
  decide +kernel

end NeuronWired
