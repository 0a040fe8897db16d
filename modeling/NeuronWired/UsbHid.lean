import NeuronWired.Cint
import NeuronWired.Interrupt.Logic

/-!
# UsbHid — the IN endpoint of the HID interface (`hid_device.c`, `usbd.c`, `tusb.c`)

A report is put into `epin_buf` and handed to the controller, which copies it and waits for the host to take
it.  Until `tud_task` has handled the completion the endpoint is busy and claimed.
-/

namespace NeuronWired

open Interrupt

/-- `CFG_TUD_HID_EP_BUFSIZE`. -/
abbrev hidEpBufsize : ℕ := 64

/-- `tu_edpt_state_t`. -/
structure EdptState where
  busy : Bool
  claimed : Bool
  deriving DecidableEq, Repr

/-- The endpoint: its state, `epin_buf`, the bytes that the controller holds for the host, whether a
completion waits for `tud_task`, and what the host has taken. -/
structure UsbHid where
  epStatus : EdptState
  epinBuf : Bytes
  transfer : Option Bytes
  xferComplete : Bool
  received : List Bytes
  deriving DecidableEq, Repr

/-- `tu_edpt_claim`, behind the mutex. -/
def tuEdptClaim (ep : EdptState) : Bool × EdptState :=
  let available := !ep.busy && !ep.claimed
  (available, if available = true then { ep with claimed := true } else ep)

/-- `tu_memcpy_s`, and whether it has returned 0. -/
def tuMemcpyS (dest : Bytes) (off destsz : ℕ) (src : Bytes) : Bool × Bytes :=
  if src.length > destsz then (false, dest) else (true, memcpy dest off src)

namespace UsbHid

/-- `tu_edpt_claim` of the endpoint. -/
def claim (u : UsbHid) : Bool × UsbHid :=
  ((tuEdptClaim u.epStatus).1, { u with epStatus := (tuEdptClaim u.epStatus).2 })

/-- What `tud_hid_n_report` does to `epin_buf`. -/
def prepare (u : UsbHid) (reportId : UInt8) (report : Bytes) : Bool × UsbHid :=
  if reportId ≠ 0 then
    let copied := tuMemcpyS (memcpy u.epinBuf 0 [reportId]) 1 (hidEpBufsize - 1) report
    (copied.1, { u with epinBuf := copied.2 })
  else
    let copied := tuMemcpyS u.epinBuf 0 hidEpBufsize report
    (copied.1, { u with epinBuf := copied.2 })

/-- `dcd_edpt_xfer`, which copies the bytes and always succeeds. -/
def dcdEdptXfer (u : UsbHid) (totalBytes : ℕ) : Bool × UsbHid :=
  (true, { u with transfer := some (u.epinBuf.take totalBytes) })

/-- The host takes what the controller holds. -/
def takeTransfer (u : UsbHid) : UsbHid :=
  { u with received := u.received ++ u.transfer.toList, transfer := none, xferComplete := true }

/-- `tud_task` on `DCD_EVENT_XFER_COMPLETE`. -/
def handleComplete (u : UsbHid) : UsbHid :=
  { u with epStatus := { u.epStatus with busy := false, claimed := false }, xferComplete := false }

end UsbHid

/-- `usbd_edpt_claim`: the check in front of the mutex, and the one behind it. -/
def usbdEdptClaim : Prog UsbHid Bool := do
  let free ← Prog.read fun u => !u.epStatus.busy && !u.epStatus.claimed
  if free = true then Prog.atomic UsbHid.claim else pure false

/-- `usbd_edpt_xfer`. -/
def usbdEdptXfer (totalBytes : ℕ) : Prog UsbHid Bool := do
  let busy ← Prog.read fun u => u.epStatus.busy
  if busy = true then pure false
  else
    Prog.write fun u => { u with epStatus.busy := true }
    let started ← Prog.atomic fun u => u.dcdEdptXfer totalBytes
    if started = true then pure true
    else
      Prog.write fun u => { u with epStatus := { u.epStatus with busy := false, claimed := false } }
      pure false

/-- `tud_hid_n_report`. -/
def tudHidNReport (reportId : UInt8) (report : Bytes) : Prog UsbHid Bool := do
  let claimed ← usbdEdptClaim
  if claimed = true then
    let copied ← Prog.atomic fun u => u.prepare reportId report
    if copied = true then
      usbdEdptXfer (if reportId ≠ 0 then report.length + 1 else report.length)
    -- the endpoint stays claimed
    else pure false
  else pure false

/-! ## One report -/

namespace UsbHid

/-- A step of the host or of `tud_task`. -/
def Moves (u u' : UsbHid) : Prop :=
  u.transfer ≠ none ∧ u' = u.takeTransfer ∨ u.xferComplete = true ∧ u' = u.handleComplete

/-- What the host has taken, and what it is going to take next. -/
def outgoing (u : UsbHid) : List Bytes := u.received ++ u.transfer.toList

/-- Between two calls of `tud_hid_n_report` the endpoint is free, or a transfer is under way, or its
completion has not been handled. -/
structure Settled (u : UsbHid) : Prop where
  size : u.epinBuf.length = hidEpBufsize
  claimed : u.epStatus.claimed = u.epStatus.busy
  free : u.epStatus.busy = false → u.transfer = none ∧ u.xferComplete = false
  one : u.transfer = none ∨ u.xferComplete = false
  waits : u.epStatus.busy = true → u.transfer ≠ none ∨ u.xferComplete = true

/-- The endpoint is claimed and there is nothing to wait for. -/
structure Claimed (u : UsbHid) : Prop where
  size : u.epinBuf.length = hidEpBufsize
  claimed : u.epStatus.claimed = true
  transfer : u.transfer = none
  complete : u.xferComplete = false

variable {u u' : UsbHid}

theorem Settled.moves (h : u.Settled) (hm : u.Moves u') : u'.Settled ∧ u'.outgoing = u.outgoing := by
  obtain ⟨hsize, hclaimed, hfree, hone, -⟩ := h
  rcases hm with ⟨htransfer, rfl⟩ | ⟨hcomplete, rfl⟩
  · refine ⟨⟨hsize, hclaimed, fun hbusy => absurd (hfree hbusy).1 htransfer, .inl rfl, fun _ => .inr rfl⟩, ?_⟩
    unfold outgoing takeTransfer
    exact List.append_nil _
  · have hnone : u.transfer = none := hone.resolve_right (by rw [hcomplete]; exact Bool.noConfusion)
    exact ⟨⟨hsize, rfl, fun _ => ⟨hnone, rfl⟩, .inr rfl, fun hbusy => Bool.noConfusion hbusy⟩, rfl⟩

theorem stable_settled (out : List Bytes) : Stable Moves fun u => u.Settled ∧ u.outgoing = out := by
  rintro u u' hm ⟨h, hout⟩
  obtain ⟨h', hsame⟩ := h.moves hm
  exact ⟨h', hsame.trans hout⟩

/-- Nothing happens to an endpoint that waits for nothing. -/
theorem Claimed.moves (h : u.Claimed) : ¬ u.Moves u' := by
  rintro (⟨htransfer, -⟩ | ⟨hcomplete, -⟩)
  · exact htransfer h.transfer
  · exact Bool.noConfusion (h.complete.symm.trans hcomplete)

theorem stable_claimed {P : UsbHid → Prop} : Stable Moves fun u => u.Claimed ∧ P u :=
  fun _ _ hm h => absurd hm h.1.moves

end UsbHid

/-- A report as it goes over the bus. -/
def wire (reportId : UInt8) (report : Bytes) : Bytes := if reportId ≠ 0 then reportId :: report else report

/-- The report fits `epin_buf`, its id included. -/
def Transferable (reportId : UInt8) (report : Bytes) : Prop := (wire reportId report).length ≤ hidEpBufsize

instance (reportId : UInt8) (report : Bytes) : Decidable (Transferable reportId report) :=
  inferInstanceAs (Decidable (_ ≤ _))

section Prepare

variable {u : UsbHid} {reportId : UInt8} {report : Bytes}

theorem tuMemcpyS_eq (report : Bytes) {dest : Bytes} {off destsz : ℕ} (h : off + destsz = dest.length) :
    (tuMemcpyS dest off destsz report).1 = decide (report.length ≤ destsz) ∧
      (tuMemcpyS dest off destsz report).2.length = dest.length ∧
      (report.length ≤ destsz → (tuMemcpyS dest off destsz report).2.take (off + report.length) =
        dest.take off ++ report) := by
  unfold tuMemcpyS
  by_cases hle : report.length ≤ destsz
  · rw [if_neg (by omega), decide_eq_true hle]
    refine ⟨rfl, length_memcpy _ _ _, fun _ => ?_⟩
    have hlen : (dest.take off ++ report).length = off + report.length := by
      rw [List.length_append, List.length_take_of_le (by omega)]
    rw [memcpy_of_le (by omega), ← hlen, List.take_left]
  · rw [if_pos (by omega), decide_eq_false hle]
    exact ⟨rfl, rfl, fun h => absurd h hle⟩

theorem wire_of_ne (h : reportId ≠ 0) : wire reportId report = reportId :: report := if_pos h

/-- The report is at the start of `epin_buf`, if it fits. -/
theorem prepare_eq (reportId : UInt8) (report : Bytes) (hsize : u.epinBuf.length = hidEpBufsize) :
    ∃ buf : Bytes, u.prepare reportId report =
        (decide (Transferable reportId report), { u with epinBuf := buf }) ∧ buf.length = hidEpBufsize ∧
      (Transferable reportId report → buf.take (wire reportId report).length = wire reportId report) := by
  by_cases hid : reportId = 0
  · have hwire : wire reportId report = report := if_neg (not_not.mpr hid)
    have hfits : report.length ≤ hidEpBufsize ↔ Transferable reportId report := by
      unfold Transferable
      rw [hwire]
    have hprepare : u.prepare reportId report = ((tuMemcpyS u.epinBuf 0 hidEpBufsize report).1,
        { u with epinBuf := (tuMemcpyS u.epinBuf 0 hidEpBufsize report).2 }) := if_neg (not_not.mpr hid)
    obtain ⟨hok, hlen, htake⟩ := tuMemcpyS_eq report ((Nat.zero_add hidEpBufsize).trans hsize.symm)
    rw [hprepare, hok, hwire]
    refine ⟨_, Prod.ext (decide_eq_decide.mpr hfits) rfl, hlen.trans hsize, fun h => ?_⟩
    rw [← Nat.zero_add report.length, htake (hfits.mpr h), List.take_zero, List.nil_append]
  · have hwire : wire reportId report = reportId :: report := wire_of_ne hid
    have hfits : report.length ≤ hidEpBufsize - 1 ↔ Transferable reportId report := by
      unfold Transferable
      rw [hwire, List.length_cons]
      show report.length ≤ 63 ↔ report.length + 1 ≤ 64
      omega
    have hbuf : (memcpy u.epinBuf 0 [reportId]).length = hidEpBufsize := by rw [length_memcpy, hsize]
    have hprepare : u.prepare reportId report =
        ((tuMemcpyS (memcpy u.epinBuf 0 [reportId]) 1 (hidEpBufsize - 1) report).1,
        { u with epinBuf := (tuMemcpyS (memcpy u.epinBuf 0 [reportId]) 1 (hidEpBufsize - 1) report).2 }) :=
      if_pos hid
    have hfirst : (memcpy u.epinBuf 0 [reportId]).take 1 = [reportId] := by
      rw [memcpy_zero (by rw [hsize, List.length_singleton]; decide)]
      rfl
    obtain ⟨hok, hlen, htake⟩ := tuMemcpyS_eq report
      (show 1 + (hidEpBufsize - 1) = (memcpy u.epinBuf 0 [reportId]).length from hbuf.symm)
    rw [hprepare, hok, hwire]
    refine ⟨_, Prod.ext (decide_eq_decide.mpr hfits) rfl, hlen.trans hbuf, fun h => ?_⟩
    rw [List.length_cons, Nat.add_comm, htake (hfits.mpr h), hfirst]
    rfl

end Prepare

/-! ## The call as a whole -/

section Report

variable {reportId : UInt8} {report : Bytes}

/-- What `tud_hid_n_report` leaves: the report is on its way; or nothing has happened, as the endpoint was
in use; or the report is too long, and the endpoint stays claimed. -/
inductive UsbHid.Answered (reportId : UInt8) (report : Bytes) (out : List Bytes) : Bool → UsbHid → Prop where
  | sent {u : UsbHid} (h : u.Settled) (hfits : Transferable reportId report)
      (hout : u.outgoing = out ++ [wire reportId report]) : UsbHid.Answered reportId report out true u
  | busy {u : UsbHid} (h : u.Settled) (hout : u.outgoing = out) : UsbHid.Answered reportId report out false u
  | tooLong {u : UsbHid} (h : u.Claimed) (hlong : ¬ Transferable reportId report) (hout : u.outgoing = out) :
      UsbHid.Answered reportId report out false u

theorem stable_answered (out : List Bytes) (ok : Bool) :
    Stable UsbHid.Moves (UsbHid.Answered reportId report out ok) := by
  intro u u' hm h
  cases h with
  | sent h hfits hout =>
    obtain ⟨h', hsame⟩ := h.moves hm
    exact .sent h' hfits (hsame.trans hout)
  | busy h hout =>
    obtain ⟨h', hsame⟩ := h.moves hm
    exact .busy h' (hsame.trans hout)
  | tooLong h hlong hout => exact absurd hm h.moves

/-- A transfer of the first bytes of `epin_buf`. -/
theorem wp_usbdEdptXfer {u : UsbHid} {out : List Bytes} {n : ℕ} (h : u.Claimed)
    (hbusy : u.epStatus.busy = false) (hout : u.outgoing = out)
    (hbytes : u.epinBuf.take n = wire reportId report) (hfits : Transferable reportId report) :
    wp UsbHid.Moves (fun _ => True) (usbdEdptXfer n) (UsbHid.Answered reportId report out) u := by
  have htrue : ∀ {P : UsbHid → Prop} (t : UsbHid), P t → True := fun _ _ => trivial
  have hstable : ∀ P : UsbHid → Prop, Stable UsbHid.Moves fun t => t.Claimed ∧ P t :=
    fun _ => UsbHid.stable_claimed
  unfold usbdEdptXfer
  refine wp_read_of false
    (hstable fun t => t.epStatus.busy = false ∧ t.outgoing = out ∧ t.epinBuf.take n = wire reportId report)
    htrue ⟨h, hbusy, hout, hbytes⟩ (fun t ht => ht.2.1) ?_
  rintro t ⟨ht, -, htout, htbytes⟩
  refine wp_write (hstable fun t => t.outgoing = out ∧ t.epinBuf.take n = wire reportId report) htrue
    ⟨ht, htout, htbytes⟩ ?_
  rintro t ⟨⟨hsize, hclaimed, htransfer, hcomplete⟩, htout, htbytes⟩
  refine wp_atomic (hstable fun t => t.epStatus.busy = true ∧ t.outgoing = out ∧
    t.epinBuf.take n = wire reportId report) htrue
    ⟨⟨hsize, hclaimed, htransfer, hcomplete⟩, rfl, htout, htbytes⟩ ?_
  rintro t ⟨⟨hsize, hclaimed, htransfer, hcomplete⟩, hbusy, htout, htbytes⟩
  refine ⟨_, _, rfl, wp_pure (stable_answered _ _) htrue
    (.sent ⟨hsize, ?_, ?_, .inr hcomplete, fun _ => .inl (Option.some_ne_none _)⟩ hfits ?_)⟩
  · exact hclaimed.trans hbusy.symm
  · exact fun hfree => absurd (hbusy.symm.trans hfree) Bool.noConfusion
  · unfold UsbHid.outgoing at htout ⊢
    rw [htransfer, Option.toList_none, List.append_nil] at htout
    show t.received ++ [t.epinBuf.take n] = _
    rw [htout, htbytes]

theorem wp_tudHidNReport {u : UsbHid} (h : u.Settled) :
    wp UsbHid.Moves (fun _ => True) (tudHidNReport reportId report) (UsbHid.Answered reportId report u.outgoing) u := by
  generalize hout : u.outgoing = out
  have htrue : ∀ {P : UsbHid → Prop} (t : UsbHid), P t → True := fun _ _ => trivial
  have hrefused : ∀ t, t.Settled ∧ t.outgoing = out → wp UsbHid.Moves (fun _ => True) (pure false)
      (UsbHid.Answered reportId report out) t :=
    fun t ht => wp_pure (stable_answered _ _) htrue (.busy ht.1 ht.2)
  have hclaimed : ∀ t, t.Claimed → t.epStatus.busy = false → t.outgoing = out →
      wp UsbHid.Moves (fun _ => True) (do
        let copied ← Prog.atomic fun u : UsbHid => u.prepare reportId report
        if copied = true then
          usbdEdptXfer (if reportId ≠ 0 then report.length + 1 else report.length)
        else pure false) (UsbHid.Answered reportId report out) t := by
    intro t ht hbusy hsame
    have hlen : (if reportId ≠ 0 then report.length + 1 else report.length) = (wire reportId report).length := by
      unfold wire
      split_ifs <;> rfl
    rw [hlen]
    refine wp_atomic (P := fun t => t.Claimed ∧ t.epStatus.busy = false ∧ t.outgoing = out)
      UsbHid.stable_claimed htrue ⟨ht, hbusy, hsame⟩ ?_
    rintro t ⟨⟨hsize, hclaimed, htransfer, hcomplete⟩, hbusy, hsame⟩
    obtain ⟨buf, hprepare, hbuf, htake⟩ := prepare_eq reportId report hsize
    refine ⟨_, _, hprepare, ?_⟩
    by_cases hfits : Transferable reportId report
    · rw [decide_eq_true hfits, if_pos rfl]
      exact wp_usbdEdptXfer ⟨hbuf, hclaimed, htransfer, hcomplete⟩ hbusy hsame (htake hfits) hfits
    · rw [decide_eq_false hfits, if_neg Bool.noConfusion]
      exact wp_pure (stable_answered _ _) htrue
        (.tooLong ⟨hbuf, hclaimed, htransfer, hcomplete⟩ hfits hsame)
  unfold tudHidNReport usbdEdptClaim
  rw [bind_assoc]
  refine wp_read (UsbHid.stable_settled out) htrue ⟨h, hout⟩ fun t ht => ?_
  by_cases hfree : (!t.epStatus.busy && !t.epStatus.claimed) = true
  · rw [if_pos hfree]
    refine wp_atomic (UsbHid.stable_settled out) htrue ht ?_
    rintro t ⟨hsettled, hsame⟩
    cases hbusy : t.epStatus.busy with
    | true =>
      have hclaim : t.claim = (false, t) := by
        unfold UsbHid.claim tuEdptClaim
        rw [hbusy]
        rfl
      exact ⟨_, _, hclaim, hrefused t ⟨hsettled, hsame⟩⟩
    | false =>
      obtain ⟨htransfer, hcomplete⟩ := hsettled.free hbusy
      have hclaim : t.claim = (true, { t with epStatus := ⟨false, true⟩ }) := by
        unfold UsbHid.claim tuEdptClaim
        rw [hsettled.claimed, hbusy]
        rfl
      exact ⟨_, _, hclaim, hclaimed _ ⟨hsettled.size, rfl, htransfer, hcomplete⟩ rfl hsame⟩
  · rw [if_neg hfree]
    exact hrefused t ht

/-- A free endpoint is claimed. -/
theorem run_usbdEdptClaim {u : UsbHid} (h : u.Settled) (hbusy : u.epStatus.busy = false) :
    usbdEdptClaim.run u = (true, { u with epStatus := ⟨false, true⟩ }) := by
  have hclaimed : u.epStatus.claimed = false := h.claimed.trans hbusy
  have hclaim : u.claim = (true, { u with epStatus := ⟨false, true⟩ }) := by
    unfold UsbHid.claim tuEdptClaim
    rw [hclaimed, hbusy]
    rfl
  unfold usbdEdptClaim
  rw [Prog.run_bind, Prog.run_read, hbusy, hclaimed]
  exact hclaim

/-- A free endpoint takes a report that fits. -/
theorem run_tudHidNReport_free {u : UsbHid} (h : u.Settled) (hbusy : u.epStatus.busy = false)
    (hfits : Transferable reportId report) :
    ((tudHidNReport reportId report).run u).1 = true ∧ ((tudHidNReport reportId report).run u).2.Settled ∧
      ((tudHidNReport reportId report).run u).2.outgoing = u.outgoing ++ [wire reportId report] := by
  have hok : ((tudHidNReport reportId report).run u).1 = true := by
    obtain ⟨buf, hprepare, -, -⟩ := prepare_eq (u := { u with epStatus := ⟨false, true⟩ }) reportId report h.size
    unfold tudHidNReport
    rw [Prog.run_bind_of (run_usbdEdptClaim h hbusy), if_pos rfl, Prog.run_bind, Prog.run_atomic, hprepare,
      decide_eq_true hfits, if_pos rfl]
    rfl
  have hanswer : UsbHid.Answered reportId report u.outgoing ((tudHidNReport reportId report).run u).1
      ((tudHidNReport reportId report).run u).2 := wp_post (wp_tudHidNReport h)
  rw [hok] at hanswer
  cases hanswer with
  | sent hsettled _ hout => exact ⟨hok, hsettled, hout⟩

/-- A report that is too long leaves a free endpoint claimed. -/
theorem run_tudHidNReport_long {u : UsbHid} (h : u.Settled) (hbusy : u.epStatus.busy = false)
    (hlong : ¬ Transferable reportId report) :
    ((tudHidNReport reportId report).run u).1 = false ∧ ((tudHidNReport reportId report).run u).2.Claimed ∧
      ((tudHidNReport reportId report).run u).2.received = u.received := by
  obtain ⟨htransfer, hcomplete⟩ := h.free hbusy
  obtain ⟨buf, hprepare, hbuf, -⟩ := prepare_eq (u := { u with epStatus := ⟨false, true⟩ }) reportId report h.size
  have hrun : (tudHidNReport reportId report).run u =
      (false, { u with epStatus := ⟨false, true⟩, epinBuf := buf }) := by
    unfold tudHidNReport
    rw [Prog.run_bind_of (run_usbdEdptClaim h hbusy), if_pos rfl, Prog.run_bind, Prog.run_atomic, hprepare,
      decide_eq_false hlong]
    rfl
  rw [hrun]
  exact ⟨rfl, ⟨hbuf, rfl, htransfer, hcomplete⟩, rfl⟩

/-- A claimed endpoint takes no report. -/
theorem keeps_tudHidNReport (packets : List Bytes) :
    Keeps (fun u : UsbHid => u.Claimed ∧ u.received = packets) (tudHidNReport reportId report) := by
  unfold tudHidNReport usbdEdptClaim
  rw [bind_assoc]
  refine Keeps.read_bind fun u hu => ?_
  have hnot : ¬ (!u.epStatus.busy && !u.epStatus.claimed) = true := by
    rw [hu.1.claimed]
    simp
  rw [if_neg hnot]
  exact keeps_pure _

end Report

end NeuronWired
