import NeuronWired.Disconnect
import NeuronWired.Run.Basic

/-!
# DisconnectDisabled — a disconnect timeout of zero

The configuration documents a timeout of 0 as disabling the detection.  `timer_set_ms` and `timer_check`
know nothing of it: a timer that is set to zero milliseconds has expired at once.
-/

namespace NeuronWired

open Interrupt

/-! ## What is claimed -/

/-- DISCONNECTED has not been reported, and once CONNECTED has been reported the link is connected. -/
def Undisturbed (s : Sys) : Prop :=
  .event .disconnected ∉ s.ghost.trace ∧
    (.event .connected ∈ s.ghost.trace → s.link.conState = .connected)

/-- A poll finds nothing decided yet, and a transfer that was heard or a timer that has not expired. -/
def FindsUndecided (s : Sys) : LinkEvent → Prop
  | .call .poll => s.link.conState = .unknown ∧
      (s.link.connectionDetected = true ∨ s.millis < s.link.disconnectTimer)
  | _ => True

/-- A poll begins with nothing decided yet, and a transfer that was heard. -/
def BeginsHeard : LinkCall → Sys → Prop
  | .poll, s => s.link.conState = .unknown ∧ s.link.connectionDetected = true
  | _, _ => True

instance (s : Sys) : Decidable (Undisturbed s) := inferInstanceAs (Decidable (_ ∧ _))

instance (s : Sys) (ev : LinkEvent) : Decidable (FindsUndecided s ev) := by
  unfold FindsUndecided
  split <;> infer_instance

/-! ## Who disturbs it -/

section Frames

variable {s s' : Sys}

theorem undisturbed_congr (ht : s'.ghost.trace = s.ghost.trace) (hst : s'.link.conState = s.link.conState)
    (h : Undisturbed s) : Undisturbed s' := by
  unfold Undisturbed
  rw [ht, hst]
  exact h

theorem undisturbed_log {x : Obs} (hd : x ≠ .event .disconnected) (hc : x ≠ .event .connected)
    (h : Undisturbed s) : Undisturbed (s.log x) := by
  refine ⟨fun hmem => ?_, fun hmem => ?_⟩ <;> rw [Sys.trace_log, List.mem_append, List.mem_singleton] at hmem
  · exact hmem.elim h.1 fun heq => hd heq.symm
  · exact h.2 (hmem.resolve_right fun heq => hc heq.symm)

/-- The inbound half of a poll and `spils_data_read` do not disturb it. -/
theorem inFrame_undisturbed (size : ℕ) : InFrame fun s => Undisturbed s ∧ Base size s := by
  have hb := (frame_base_only size).inFrame
  refine ⟨⟨fun s h => hb.isIn s h.2, ?_, ?_, ?_⟩, ?_, ?_, ?_⟩
  · intro s f hf hp hc h
    have hst := Spils.field_eq hf Spils.conState fun _ => rfl
    exact ⟨undisturbed_congr (s := s) rfl hst h.1, hb.link s f hf hp hc h.2⟩
  · exact fun s sw h => ⟨h.1, hb.swapIn s sw h.2⟩
  · intro s h
    exact ⟨undisturbed_log (s := s.mapSlave (spilsEventHandler .dataInReady)) (by simp) (by simp) h.1,
      hb.event s h.2⟩
  · exact fun s i b hi hbuf h => ⟨h.1, hb.buf s i b hi hbuf h.2⟩
  · exact fun s r h => ⟨h.1, hb.reading s r h.2⟩
  · intro s x hx h
    exact ⟨undisturbed_log (by rintro rfl; exact hx) (by rintro rfl; exact hx) h.1, hb.log s x hx h.2⟩

/-- Nor does `spils_data_send`. -/
theorem outFrame_undisturbed (size : ℕ) : OutFrame fun s => Undisturbed s ∧ Base size s := by
  have hb := (frame_base_only size).outFrame
  refine ⟨fun s h => hb.isOut s h.2, ?_, ?_, ?_, ?_⟩
  · intro s f hf h
    have hst := Spils.field_eq hf Spils.conState fun _ => rfl
    exact ⟨undisturbed_congr (s := s) rfl hst h.1, hb.link s f hf h.2⟩
  · exact fun s i b hi hbuf h => ⟨h.1, hb.buf s i b hi hbuf h.2⟩
  · exact fun s r h => ⟨h.1, hb.filling s r h.2⟩
  · exact fun s msg h => ⟨undisturbed_log (by simp) (by simp) h.1, hb.failed s msg h.2⟩

/-- The calls that are no poll. -/
theorem keeps_undisturbed (size : ℕ) {k : LinkCall} (hk : k ≠ .poll) :
    Keeps (fun s => Undisturbed s ∧ Base size s) (linkProg k) := by
  cases k with
  | poll => exact absurd rfl hk
  | dataRead => exact .bind (inFrame_undisturbed size).spilsDataRead fun _ => keeps_pure _
  | dataSend pData dataSize =>
    exact .bind ((outFrame_undisturbed size).spilsDataSend fun s r hs =>
      ⟨undisturbed_log (by simp) (by simp) hs.1, (frame_base_only size).sendRet _ _ s r hs.2⟩)
      fun _ => keeps_pure _

/-- Interrupts report nothing about the connection. -/
theorem undisturbed_irq {size : ℕ} (hb : Base size s) (i : Irq) (h : Undisturbed s) :
    Undisturbed ((irqProg i).run s).2 := by
  cases i with
  | tick n => exact h
  | edge e =>
    have hst : ((irqProg (.edge e)).run s).2.link.conState = s.link.conState :=
      congrArg Con.state (con_edge hb e)
    obtain ⟨-, -, -, hghost⟩ := link_clockIn s e
    rcases hb.run_edge e with ⟨g, -, -, -, heq⟩ | ⟨p, st, ready, g, -, -, hp, -, heq⟩
    · refine undisturbed_congr ?_ hst h
      rw [heq]
      show (s.clockIn e).ghost.trace = _
      rw [hghost]
    · obtain ⟨l₁, l₂, htrace, hnote⟩ := trace_done hp g
      have hnew : ∀ ev, ev = .connected ∨ ev = .disconnected →
          Obs.event ev ∈ ((irqProg (.edge e)).run s).2.ghost.trace → Obs.event ev ∈ s.ghost.trace := by
        intro ev hev hmem
        rw [heq, htrace] at hmem
        simp only [List.mem_append, List.mem_cons, reduceCtorEq, false_or] at hmem
        rcases hmem with (hmem | hmem) | hmem
        · exact hmem
        · have := hnote _ (List.mem_append_left _ hmem)
          rcases hev with rfl | rfl <;> exact this.elim
        · have := hnote _ (List.mem_append_right _ hmem)
          rcases hev with rfl | rfl <;> exact this.elim
      unfold Undisturbed
      rw [hst]
      exact ⟨fun hmem => h.1 (hnew _ (.inr rfl) hmem), fun hmem => h.2 (hnew _ (.inl rfl) hmem)⟩

theorem downs_eq_zero_iff (s : Sys) : s.downs = 0 ↔ .event .disconnected ∉ s.ghost.trace :=
  List.count_eq_zero

end Frames

/-! ## One event -/

section Events

variable {size : ℕ} {s : Sys}

/-- What holds in front of every event, as long as nothing has disturbed the connection. -/
structure Disabled (size : ℕ) (s : Sys) : Prop where
  base : Base size s
  timeout : s.con.timeout = 0
  undisturbed : Undisturbed s
  state : s.con.state ≠ .disconnected
  heard : s.con.state = .connected → s.con.detected = true

/-- A poll that finds a transfer reports CONNECTED. -/
theorem undisturbed_connect (h : Disabled size s) (hst : s.con.state = .unknown) (hd : s.con.detected = true) :
    Undisturbed (spilsPoll.run s).2 := by
  have hcon : (spilsPoll.run s).2.con = s.con.connect := by
    rw [con_spilsPoll h.base]
    unfold Con.poll
    rw [hst]
    exact if_pos hd
  refine ⟨?_, fun _ => congrArg Con.state hcon⟩
  rw [← downs_eq_zero_iff]
  have hdowns : (spilsPoll.run s).2.downs = s.downs := congrArg Con.downs hcon
  rw [hdowns, downs_eq_zero_iff]
  exact h.undisturbed.1

/-- A poll that finds nothing and a timer that has not expired reports nothing. -/
theorem undisturbed_wait (h : Disabled size s) (hst : s.con.state = .unknown) (hd : ¬ s.con.detected = true)
    (htimer : ¬ s.con.timer ≤ s.con.now % 4294967296) : Undisturbed (spilsPoll.run s).2 := by
  have hmachine : conMachine.run s = ((), s) := by
    have hcheck : timerCheck.run s = (decide (s.link.disconnectTimer ≤ s.millis), s) := rfl
    have hlater : ¬ decide (s.link.disconnectTimer ≤ s.millis) = true := by
      rw [decide_eq_true_eq]
      exact htimer
    have hclear : ¬ s.link.connectionDetected = true := hd
    unfold conMachine
    rw [Prog.run_bind_of (run_readLink s _), show s.link.conState = .unknown from hst]
    unfold conStateUnknown
    rw [Prog.run_bind_of (run_readLink s _), if_neg hclear, Prog.run_bind_of hcheck, if_neg hlater]
    rfl
  have hrun : spilsPoll.run s = lineInBusyProcess.run s := Prog.run_bind_of hmachine
  rw [hrun]
  exact ((inFrame_undisturbed size).lineInBusyProcess.run ⟨h.undisturbed, h.base⟩).1

/-- A timer that is set to zero milliseconds has expired. -/
theorem downs_poll_expired (h : Disabled size s)
    (hexp : s.con.state = .unknown ∧ ¬ s.con.detected = true ∧ s.con.timer ≤ s.con.now % 4294967296 ∨
      s.con.state = .connected) : ¬ Undisturbed (spilsPoll.run s).2 := by
  have hdowns : s.con.poll.downs = s.con.downs + 1 := by
    unfold Con.poll
    rcases hexp with ⟨hst, hd, htimer⟩ | hst <;> rw [hst]
    · dsimp only
      rw [if_neg hd]
      unfold Con.expire
      rw [if_pos htimer]
    · have hset : s.con.notice = { s.con.refresh with detected := false } := if_pos (h.heard hst)
      have hnow : u32 ((s.con.now % 4294967296 : ℕ) + (s.con.timeout : ℤ)) ≤ s.con.now % 4294967296 := by
        rw [h.timeout]
        unfold u32
        omega
      dsimp only
      rw [hset]
      exact congrArg Con.downs (if_pos hnow)
  intro hun
  have hzero := (downs_eq_zero_iff _).mpr hun.1
  have hpoll : (spilsPoll.run s).2.downs = s.con.poll.downs := congrArg Con.downs (con_spilsPoll h.base)
  rw [hpoll, hdowns] at hzero
  cases hzero

/-- A poll disturbs nothing exactly if nothing is decided yet, and there is a transfer or time left. -/
theorem undisturbed_poll_iff (h : Disabled size s) :
    Undisturbed (spilsPoll.run s).2 ↔ FindsUndecided s (.call .poll) := by
  have hmillis : s.millis = s.con.now % 4294967296 := rfl
  show _ ↔ s.con.state = .unknown ∧ (s.con.detected = true ∨ s.millis < s.con.timer)
  rw [hmillis]
  cases hst : s.con.state with
  | disconnected => exact absurd hst h.state
  | connected =>
    refine iff_of_false (downs_poll_expired h (Or.inr hst)) ?_
    rintro ⟨hne, -⟩
    cases hne
  | unknown =>
    by_cases hd : s.con.detected = true
    · exact iff_of_true (undisturbed_connect h hst hd) ⟨rfl, Or.inl hd⟩
    · by_cases htimer : s.con.timer ≤ s.con.now % 4294967296
      · refine iff_of_false (downs_poll_expired h (Or.inl ⟨hst, hd, htimer⟩)) ?_
        rintro ⟨-, hd' | hlt⟩
        · exact hd hd'
        · omega
      · exact iff_of_true (undisturbed_wait h hst hd htimer) ⟨rfl, Or.inr (Nat.lt_of_not_le htimer)⟩

/-- An event that is no poll. -/
theorem undisturbed_other (h : Disabled size s) {ev : LinkEvent} (hev : ev ≠ .call .poll) :
    Undisturbed (s.happen ev) := by
  cases ev with
  | irq i => exact undisturbed_irq h.base i h.undisturbed
  | call k =>
    have hk : k ≠ .poll := fun heq => hev (heq ▸ rfl)
    exact ((keeps_undisturbed size hk).run ⟨h.undisturbed, h.base⟩).1

theorem undisturbed_iff (h : Disabled size s) (ev : LinkEvent) :
    Undisturbed (s.happen ev) ↔ FindsUndecided s ev := by
  by_cases hev : ev = .call .poll
  · subst hev
    exact undisturbed_poll_iff h
  · refine iff_of_true (undisturbed_other h hev) ?_
    unfold FindsUndecided
    split
    · exact absurd rfl hev
    · trivial

/-- An event that disturbs nothing leaves what holds in front of it. -/
theorem disabled_happen (h : Disabled size s) {ev : LinkEvent} (hev : FindsUndecided s ev) :
    Disabled size (s.happen ev) := by
  have hun := (undisturbed_iff h ev).mpr hev
  cases ev with
  | irq i =>
    have hbase : Base size (s.happen (.irq i)) := h.base.run_irq i
    cases i with
    | edge e =>
      have hcon : (s.happen (.irq (.edge e))).con = s.con.hear (decide (s.received e ≠ [])) := con_edge h.base e
      refine ⟨hbase, ?_, hun, ?_, ?_⟩ <;> rw [hcon]
      · exact h.timeout
      · exact h.state
      · exact fun hst => Bool.or_eq_true_iff.mpr (Or.inl (h.heard hst))
    | tick n => exact ⟨hbase, h.timeout, hun, h.state, h.heard⟩
  | call k =>
    have hbase : Base size (s.happen (.call k)) := ((frame_base_only size).linkProg k).run h.base
    by_cases hk : k = .poll
    · subst hk
      obtain ⟨hst, hready⟩ := hev
      have hcon : (s.happen (.call .poll)).con = s.con.poll := con_spilsPoll h.base
      have hpoll : s.con.poll = if s.con.detected = true then s.con.connect else s.con.expire := by
        unfold Con.poll
        rw [show s.con.state = .unknown from hst]
      refine ⟨hbase, ?_, hun, ?_, ?_⟩ <;> rw [hcon]
      · rw [Con.timeout_poll]
        exact h.timeout
      · rw [hpoll]
        split_ifs with hd
        · exact fun heq => by cases heq
        · have htimer : ¬ s.con.timer ≤ s.con.now % 4294967296 :=
            Nat.not_le_of_lt (hready.resolve_left hd)
          rw [show s.con.expire = s.con from if_neg htimer]
          exact h.state
      · rw [hpoll]
        split_ifs with hd
        · exact fun _ => hd
        · have htimer : ¬ s.con.timer ≤ s.con.now % 4294967296 :=
            Nat.not_le_of_lt (hready.resolve_left hd)
          rw [show s.con.expire = s.con from if_neg htimer]
          exact h.heard
    · have hcon : (s.happen (.call k)).con = s.con := con_linkProg h.base hk
      refine ⟨hbase, ?_, hun, ?_, ?_⟩ <;> rw [hcon]
      · exact h.timeout
      · exact h.state
      · exact h.heard

/-- `spils_init` reports nothing. -/
theorem undisturbed_start {conf : SpilsConf} (hc : conf.Ok) (hw : Board) (slave : SpiSlave) :
    Undisturbed (start conf hw slave) := by
  obtain ⟨g, heq, -⟩ := start_eq conf hw slave
  have htrace : (prepared conf hw slave).ghost.trace = [] := by
    rw [prepared_eq hc]
    rfl
  rw [heq]
  refine undisturbed_log (by simp) (by simp) ⟨?_, ?_⟩
  · show _ ∉ (prepared conf hw slave).ghost.trace
    rw [htrace]
    exact List.not_mem_nil
  · show _ ∈ (prepared conf hw slave).ghost.trace → _
    rw [htrace]
    exact fun hmem => absurd hmem List.not_mem_nil

theorem disabled_start {conf : SpilsConf} (hc : conf.Ok) (hzero : conf.disconnectTimeoutMs = 0) (hw : Board)
    (slave : SpiSlave) : Disabled (conf.messageSizeMax + 2) (start conf hw slave) := by
  obtain ⟨g, heq, -⟩ := start_eq conf hw slave
  have hstate : (start conf hw slave).con.state = .unknown := by
    have hlink : (prepared conf hw slave).link.conState = .unknown := by
      rw [prepared_eq hc]
    rw [heq]
    exact hlink
  refine ⟨base_start hc hw slave, ?_, undisturbed_start hc hw slave, ?_, ?_⟩
  · rw [(followed_start hc hw slave).timeout, hzero]
  · rw [hstate]
    exact fun h => by cases h
  · rw [hstate]
    exact fun h => by cases h

end Events

/-! ## Interleavings -/

section Interleavings

/-- What interrupts leave of the connection. -/
def Spares (s s' : Sys) : Prop :=
  s'.link.conState = s.link.conState ∧
    (s.link.connectionDetected = true → s'.link.connectionDetected = true) ∧ (Undisturbed s → Undisturbed s')

theorem spares_irq {size : ℕ} {s : Sys} (hb : Base size s) (i : Irq) : Spares s ((irqProg i).run s).2 := by
  cases i with
  | tick n => exact ⟨rfl, id, id⟩
  | edge e =>
    have hcon : ((irqProg (.edge e)).run s).2.con = s.con.hear (decide (s.received e ≠ [])) := con_edge hb e
    have hdetected : ((irqProg (.edge e)).run s).2.link.connectionDetected =
        (s.link.connectionDetected || decide (s.received e ≠ [])) := congrArg Con.detected hcon
    refine ⟨congrArg Con.state hcon, fun hd => ?_, undisturbed_irq hb (.edge e)⟩
    rw [hdetected, hd]
    rfl

variable {size : ℕ} {P : Sys → Prop}

theorem stable_spared (hP : ∀ s s', Spares s s' → P s → P s') :
    Stable (linkMachine BeginsHeard fun _ _ => True).Rely fun s => P s ∧ Base size s := by
  rintro s _ ⟨i, -, rfl⟩ ⟨hs, hb⟩
  exact ⟨hP _ _ (spares_irq hb i) hs, hb.run_irq i⟩

/-- A poll that begins with a transfer that was heard. -/
theorem wp_poll_heard {s : Sys} (hs : Undisturbed s) (hb : Base size s) (hk : BeginsHeard .poll s) :
    wp (linkMachine BeginsHeard fun _ _ => True).Rely (fun s => Undisturbed s ∧ Base size s) spilsPoll
      (fun _ s => Undisturbed s ∧ Base size s) s := by
  have hframe := frame_base_only size
  have hundisturbed : Stable (linkMachine BeginsHeard fun _ _ => True).Rely fun s =>
      Undisturbed s ∧ Base size s := stable_spared fun _ _ h => h.2.2
  have hheard : Stable (linkMachine BeginsHeard fun _ _ => True).Rely fun s => (Undisturbed s ∧
      s.link.conState = .unknown ∧ s.link.connectionDetected = true) ∧ Base size s :=
    stable_spared fun _ _ h hs => ⟨h.2.2 hs.1, h.1.trans hs.2.1, h.2.1 hs.2.2⟩
  have hconnected : Stable (linkMachine BeginsHeard fun _ _ => True).Rely fun s => (Undisturbed s ∧
      s.link.conState = .connected) ∧ Base size s :=
    stable_spared fun _ _ h hs => ⟨h.2.2 hs.1, h.1.trans hs.2⟩
  have hA : ∀ {Q : Sys → Prop} (s : Sys), (Undisturbed s ∧ Q s) ∧ Base size s → Undisturbed s ∧ Base size s :=
    fun s h => ⟨h.1.1, h.2⟩
  refine wp_bind (wp_mono (Q := fun _ s => Undisturbed s ∧ Base size s) ?_ fun _ s hs =>
    wp_frame hundisturbed (inFrame_undisturbed size).lineInBusyProcess hs)
  refine wp_read_of .unknown hheard hA ⟨⟨hs, hk⟩, hb⟩ (fun _ h => h.1.2.1) fun s hs => ?_
  refine wp_read_of true hheard hA hs (fun _ h => h.1.2.2) fun s hs => ?_
  rw [if_pos rfl]
  -- the timer, which nothing here depends on
  refine wp_bind (wp_mono (wp_always_mono (wp_frame hheard ?_ hs) hA) fun _ s hs => ?_)
  · refine .bind (keeps_read _) fun _ => .bind (keeps_read _) fun _ => keeps_write fun s hs => ?_
    exact ⟨hs.1, hframe.con.link s _ rfl hs.2⟩
  refine wp_write hheard hA hs fun s hs => ?_
  have hset : (Undisturbed (s.mapLink fun l => { l with conState := .connected }) ∧
      (s.mapLink fun l => { l with conState := .connected }).link.conState = .connected) ∧
      Base size (s.mapLink fun l => { l with conState := .connected }) :=
    ⟨⟨⟨hs.1.1.1, fun _ => rfl⟩, rfl⟩, hframe.con.link s _ rfl hs.2⟩
  refine wp_write_last hconnected hA hset hundisturbed (fun _ h => h) fun s hs => ?_
  refine ⟨⟨fun hmem => ?_, fun _ => hs.1.2⟩, hframe.con.event s _ (.inl rfl) hs.2⟩
  rw [Sys.trace_log, List.mem_append, List.mem_singleton] at hmem
  rcases hmem with hmem | heq
  · exact hs.1.1.1 hmem
  · cases heq

/-- As long as polls begin with nothing decided yet and a transfer that was heard, nothing is disturbed. -/
theorem outline_undisturbed (size : ℕ) :
    (linkMachine BeginsHeard fun _ _ => True).Outline (fun s => Undisturbed s ∧ Base size s)
      fun _ s => Undisturbed s ∧ Base size s where
  stable := stable_spared fun _ _ h => h.2.2
  call k s hs hok := by
    by_cases hk : k = .poll
    · subst hk
      exact wp_poll_heard hs.1 hs.2 hok
    · exact wp_frame (stable_spared fun _ _ h => h.2.2) (keeps_undisturbed size hk) hs

end Interleavings

/-! ## Runs -/

/-- **A timeout of zero.**  With the disconnect timeout 0, DISCONNECTED is never reported and CONNECTED
stays in exactly the runs in which every poll finds nothing decided yet, and a transfer that was heard or a
timer that has not expired; and, with interrupts between any two steps, in all runs whose polls begin with
nothing decided yet and a transfer that was heard. -/
theorem disabled_detection {conf : SpilsConf} (hc : conf.Ok) (hzero : conf.disconnectTimeoutMs = 0)
    (hw : Board) (slave : SpiSlave) :
    (∀ l, Run.Along Sys.happen (fun s ev => Undisturbed (s.happen ev)) (start conf hw slave) l ↔
        Run.Along Sys.happen FindsUndecided (start conf hw slave) l) ∧
      ∀ c, (linkMachine BeginsHeard fun _ _ => True).Reach (start conf hw slave) c → c.irq = none →
        Undisturbed c.st := by
  constructor
  · intro l
    exact (Run.along_true _ l).iff (disabled_start hc hzero hw slave)
      (fun _ _ h _ hev => disabled_happen h hev) fun _ ev h _ => undisturbed_iff h ev
  · intro c hreach hirq
    exact (outline_undisturbed _).always ⟨undisturbed_start hc hw slave, base_start hc hw slave⟩
      (fun _ h => h.1) (fun _ _ h => h.1) hreach hirq

/-- Four-byte messages and a timeout of zero. -/
def sampleDisabled : Sys := start ⟨4, 0⟩ ⟨8, true, true, 0⟩ ⟨false, false, false, .new 4, .new 4⟩

theorem disabled_detection_sample :
    (∀ l, Run.Along Sys.happen (fun s ev => Undisturbed (s.happen ev)) sampleDisabled l ↔
        Run.Along Sys.happen FindsUndecided sampleDisabled l) ∧
      ∀ c, (linkMachine BeginsHeard fun _ _ => True).Reach sampleDisabled c → c.irq = none →
        Undisturbed c.st :=
  disabled_detection (show SpilsConf.Ok ⟨4, 0⟩ by decide) rfl ⟨8, true, true, 0⟩
    ⟨false, false, false, .new 4, .new 4⟩

/-- The first poll reports DISCONNECTED; and if a transfer is heard first, the poll after the report of
CONNECTED does. -/
theorem disabled_detection_reports :
    ¬ Run.Along Sys.happen (fun s ev => Undisturbed (s.happen ev)) sampleDisabled [.call .poll] ∧
      ¬ Run.Along Sys.happen (fun s ev => Undisturbed (s.happen ev)) sampleDisabled
        (heardPoll ++ [.call .poll]) := by
  decide +kernel

end NeuronWired
