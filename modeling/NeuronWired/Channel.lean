import NeuronWired.HidDelivery

/-!
# Channel — the reports of one interface in the common queue (`hidDefy.cpp` over TinyUSB)

All interfaces but the mouse share `tx_ff_hid`.  For the reports of one id: the host gets a part of them in
their order, and with the queue empty it has the last one, unless that was left out or given up.
-/

namespace NeuronWired

open Interrupt HidEvent

/-! ## The reports of one id -/

/-- The report is one of this interface. -/
def ofInterface (id : UInt8) (r : HidReport) : Bool := r.id = id

/-- The packet is a report of this interface. -/
def fromInterface (id : UInt8) (packet : Bytes) : Bool := packet.head? = some id

/-- The packet of a report. -/
def HidReport.packet (r : HidReport) : Bytes := wire r.id r.data

/-- Whether the reports of the interface were queued or left out. -/
def outcomesOf (id : UInt8) (log : List HidEvent) : List Bool :=
  log.filterMap fun
    | .enqueued r => if ofInterface id r = true then some true else none
    | .dropped r => if ofInterface id r = true then some false else none
    | _ => none

/-- The reports of the interface that have left the queue, and whether they had been sent. -/
def departedOf (id : UInt8) (log : List HidEvent) : List (HidReport × Bool) :=
  ((queued log).zip (removals log)).filter fun g => ofInterface id g.1

/-- The last report of the interface was neither left out by `SendReport_` nor given up by
`SendLastReport`. -/
def ArrivesOf (id : UInt8) (log : List HidEvent) : Prop :=
  (outcomesOf id log).getLast? ≠ some false ∧ (departedOf id log).getLast?.map Prod.snd ≠ some false

/-- No report of the interface was. -/
def AllArriveOf (id : UInt8) (log : List HidEvent) : Prop :=
  false ∉ outcomesOf id log ∧ ∀ g ∈ departedOf id log, g.2 = true

instance (id : UInt8) (log : List HidEvent) : Decidable (ArrivesOf id log) :=
  inferInstanceAs (Decidable (_ ∧ _))

instance (id : UInt8) (log : List HidEvent) : Decidable (AllArriveOf id log) :=
  inferInstanceAs (Decidable (_ ∧ _))

theorem filter_ofInterface_of_ne {id : UInt8} {r : HidReport} (h : r.id ≠ id) :
    [r].filter (ofInterface id) = [] := by
  simp [ofInterface, h]

theorem filter_ofInterface_of_eq {id : UInt8} {r : HidReport} (h : r.id = id) :
    [r].filter (ofInterface id) = [r] := by
  simp [ofInterface, h]

/-! ## What has been sent -/

/-- The reports that the interface has sent, among those of the others. -/
structure Carried (id : UInt8) (reports : List HidReport) (d : HidDevice) : Prop where
  underway : Underway d
  sent : (submitted d.log).filter (ofInterface id) = reports
  ids : ∀ r ∈ submitted d.log, r.id ≠ 0

section Carried

variable {id : UInt8} {reports : List HidReport} {d d' : HidDevice} {r : HidReport} {n : ℕ}

theorem stable_carried : Stable DeviceMoves (Carried id reports) := by
  intro d d' hm h
  refine ⟨stable_underway d d' hm h.underway, ?_, ?_⟩
  · rw [hm.2.1]
    exact h.sent
  · rw [hm.2.1]
    exact h.ids

/-- A report is submitted, of this interface or of another. -/
theorem Carried.submits (h : Carried id reports d) (hmouse : id ≠ hidReportidMouse) (hid : r.id ≠ 0)
    (hs : Submits r d d') : Carried id (reports ++ [r].filter (ofInterface id)) d' := by
  rcases hs.submitted with hlog | ⟨hr, hlog⟩
  · refine ⟨hs.underway, ?_, fun r' hr' => ?_⟩
    · rw [hlog, List.filter_append, h.sent]
    · rw [hlog] at hr'
      rcases List.mem_append.mp hr' with hr' | hr'
      · exact h.ids r' hr'
      · rw [List.mem_singleton.mp hr']
        exact hid
  · -- a report of the mouse
    rw [filter_ofInterface_of_ne (by rw [hr]; exact hmouse.symm), List.append_nil]
    refine ⟨hs.underway, ?_, ?_⟩
    · rw [hlog]
      exact h.sent
    · rw [hlog]
      exact h.ids

/-- A report of another interface. -/
theorem Carried.other (h : Carried id reports d) (hmouse : id ≠ hidReportidMouse) (hid : r.id ≠ 0)
    (hother : r.id ≠ id) (hs : Submits r d d') : Carried id reports d' := by
  have h' := h.submits hmouse hid hs
  rwa [filter_ofInterface_of_ne hother, List.append_nil] at h'

/-- The queue has room for `n` bytes more. -/
def Roomy (id : UInt8) (n : ℕ) (reports : List HidReport) (d : HidDevice) : Prop :=
  Carried id reports d ∧ d.txFifo.count + n ≤ hidDepth

theorem stable_roomy : Stable DeviceMoves (Roomy id n reports) := by
  rintro d d' hm ⟨hcarried, hroom⟩
  refine ⟨stable_carried d d' hm hcarried, ?_⟩
  rw [hm.1]
  exact hroom

/-- A report of this interface takes its part of the room. -/
theorem wp_roomySendReport (hmouse : id ≠ hidReportidMouse) (hzero : id ≠ 0) (hid : r.id = id)
    (hpos : 1 ≤ r.data.length) (hle : r.data.length ≤ 63) (h : Roomy id (4 + r.data.length + n) reports d) :
    wp DeviceMoves (fun _ => True) (HidDevice.sendReport_ r) (fun _ => Roomy id n (reports ++ [r])) d := by
  obtain ⟨hcarried, hroom⟩ := h
  obtain ⟨gone, queue, hconveyed⟩ := hcarried.underway
  have hr : r.id ≠ 0 := by rw [hid]; exact hzero
  refine wp_mono (wp_deviceSendReport hconveyed ⟨hr, hpos, hle, fun _ => by omega⟩) ?_
  rintro - d' hsubmits
  have hcount := hsubmits.count_le
  have hnext := hcarried.submits hmouse hr hsubmits
  rw [filter_ofInterface_of_eq hid] at hnext
  exact ⟨hnext, by omega⟩

/-- A report of another interface. -/
theorem wp_carriedOther (hmouse : id ≠ hidReportidMouse) (hother : r.id ≠ id) (h : Carried id reports d)
    (hr : FitsEndpoint r d) :
    wp DeviceMoves (fun _ => True) (HidDevice.sendReport_ r) (fun _ => Carried id reports) d := by
  obtain ⟨gone, queue, hconveyed⟩ := h.underway
  refine wp_mono (wp_deviceSendReport hconveyed hr) ?_
  rintro - d' hsubmits
  exact h.other hmouse hr.1 hother hsubmits

theorem keeps_submitted (log : List HidReport) :
    Keeps (fun d : HidDevice => submitted d.log = log) HidDevice.sendLastReport := by
  refine keeps_deviceSendLastReport (fun _ _ _ => ?_) (fun _ _ hd => hd) fun d next success hd => ?_
  · exact keeps_zoom (L := HidDevice.usbLens) (F := fun d => submitted d.log = log) (fun _ _ hd => hd) _
  · show submitted (d.log ++ [_]) = log
    rw [submitted_snoc, hd]
    exact List.append_nil log

theorem wp_carriedSendLastReport (h : Carried id reports d) :
    wp DeviceMoves (fun _ => True) DeviceCall.sendLastReport.prog (fun _ => Carried id reports) d := by
  have hlog : Stable DeviceMoves fun d' : HidDevice => submitted d'.log = submitted d.log := by
    intro d₁ d₂ hm hd
    rw [hm.2.1]
    exact hd
  obtain ⟨gone, queue, hconveyed⟩ := h.underway
  have hboth := wp_and (wp_deviceSendLastReport hconveyed) (wp_frame hlog (keeps_submitted _) rfl)
  refine wp_bind (wp_mono (wp_always_mono hboth fun _ _ => trivial) ?_)
  rintro - d' ⟨hunderway, hsame⟩
  refine wp_pure stable_carried (fun _ _ => trivial) ⟨hunderway, ?_, ?_⟩
  · rw [hsame]
    exact h.sent
  · rw [hsame]
    exact h.ids

theorem carried_start (buffer : Vector UInt8 hidDepth) (mounted suspended : Bool) (pad : UInt8)
    (stack : Vector UInt8 260) : Carried id [] (.start buffer mounted suspended pad stack) :=
  ⟨underway_start buffer mounted suspended pad stack, rfl, fun _ hr => absurd hr List.not_mem_nil⟩

end Carried

/-! ## What the log says -/

section Log

variable {id : UInt8} {log : List HidEvent}

theorem queued_sublist (log : List HidEvent) : (queued log).Sublist (submitted log) := by
  induction log with
  | nil => exact .refl _
  | cons e log ih =>
    cases e with
    | enqueued r => exact ih.cons_cons r
    | dropped r => exact ih.cons r
    | _ => exact ih

theorem queued_of_outcomes (h : false ∉ outcomesOf id log) :
    (queued log).filter (ofInterface id) = (submitted log).filter (ofInterface id) := by
  induction log with
  | nil => rfl
  | cons e log ih =>
    cases e with
    | enqueued r =>
      have hrest : false ∉ outcomesOf id log := by
        intro hf
        refine h ?_
        simp only [outcomesOf, List.mem_filterMap, List.mem_cons] at hf ⊢
        obtain ⟨e, he, hsome⟩ := hf
        exact ⟨e, .inr he, hsome⟩
      show ((r :: queued log).filter (ofInterface id)) = (r :: submitted log).filter (ofInterface id)
      rw [List.filter_cons, List.filter_cons, ih hrest]
    | dropped r =>
      have hid : r.id ≠ id := fun hid => h (by simp [outcomesOf, ofInterface, hid])
      have hskip : outcomesOf id (.dropped r :: log) = outcomesOf id log := by
        simp [outcomesOf, ofInterface, hid]
      rw [hskip] at h
      show (queued log).filter (ofInterface id) = ([r] ++ submitted log).filter (ofInterface id)
      rw [List.filter_append, filter_ofInterface_of_ne hid]
      exact ih h
    | _ => exact ih h

/-- The last report of the interface is the last one queued, unless it was left out. -/
theorem getLast?_submitted (h : (outcomesOf id log).getLast? ≠ some false) :
    ((submitted log).filter (ofInterface id)).getLast? = ((queued log).filter (ofInterface id)).getLast? := by
  have hsnoc : ∀ (log : List HidEvent) (e : HidEvent),
      outcomesOf id (log ++ [e]) = outcomesOf id log ++ outcomesOf id [e] :=
    fun _ _ => List.filterMap_append
  induction log using List.reverseRecOn with
  | nil => rfl
  | append_singleton log e ih =>
    rw [hsnoc] at h
    rw [submitted_snoc, queued_snoc, List.filter_append, List.filter_append]
    have hkept : ∀ l l' : List HidReport, l' = [] → outcomesOf id [e] = [] → l = [] →
        ((submitted log).filter (ofInterface id) ++ l).getLast? =
          ((queued log).filter (ofInterface id) ++ l').getLast? := by
      rintro _ _ rfl hnone rfl
      rw [hnone, List.append_nil] at h
      rw [List.append_nil, List.append_nil]
      exact ih h
    cases e with
    | enqueued r =>
      by_cases hid : r.id = id
      · show (_ ++ [r].filter (ofInterface id)).getLast? = (_ ++ [r].filter (ofInterface id)).getLast?
        rw [filter_ofInterface_of_eq hid, List.getLast?_concat, List.getLast?_concat]
      · have hnone := filter_ofInterface_of_ne hid
        exact hkept _ _ hnone (by simp [outcomesOf, ofInterface, hid]) hnone
    | dropped r =>
      by_cases hid : r.id = id
      · have hone : outcomesOf id [.dropped r] = [false] := by simp [outcomesOf, ofInterface, hid]
        rw [hone, List.getLast?_concat] at h
        exact absurd rfl h
      · exact hkept _ _ rfl (by simp [outcomesOf, ofInterface, hid]) (filter_ofInterface_of_ne hid)
    | _ => exact hkept _ _ rfl rfl rfl

end Log

/-! ## What the host has taken -/

section Host

variable {id : UInt8} {reports : List HidReport} {d : HidDevice} {gone : List (HidReport × Bool)}
  {queue : List HidReport}

/-- The reports of the interface that have left the queue, as the log tells them. -/
theorem departedOf_eq (h : Shelved d.txFifo d.log gone queue) :
    departedOf id d.log = gone.filter fun g => ofInterface id g.1 := by
  unfold departedOf
  rw [h.queued, h.removed]
  have hzip : (gone.map Prod.fst ++ queue).zip (gone.map Prod.snd) = gone := by
    have happ : (gone.map Prod.fst ++ queue).zip (gone.map Prod.snd ++ []) =
        (gone.map Prod.fst).zip (gone.map Prod.snd) ++ queue.zip [] :=
      List.zip_append (by rw [List.length_map, List.length_map])
    rw [List.append_nil, List.zip_nil_right, List.append_nil] at happ
    rw [happ, List.zip_map']
    exact List.map_id gone
  rw [hzip]

/-- The packets of the interface are those of its reports that left the queue with success. -/
theorem filter_packets (hids : ∀ g ∈ gone, g.1.id ≠ 0) : (packets gone).filter (fromInterface id) =
    ((gone.filter fun g => ofInterface id g.1).filter Prod.snd).map fun g => g.1.packet := by
  have hfrom : ∀ g ∈ gone.filter Prod.snd,
      (fromInterface id ∘ fun g : HidReport × Bool => wire g.1.id g.1.data) g = ofInterface id g.1 := by
    intro g hg
    refine decide_eq_decide.mpr ?_
    show (wire g.1.id g.1.data).head? = _ ↔ _
    rw [wire_of_ne (hids g (List.mem_filter.mp hg).1), List.head?_cons, Option.some.injEq]
  unfold packets
  rw [List.filter_map, List.filter_congr hfrom, List.filter_comm]
  rfl

theorem fromInterface_outgoing (hmouse : id ≠ hidReportidMouse) (u : UsbHid) :
    u.outgoing.filter (fromInterface id) = (u.outgoing.filter fromQueue).filter (fromInterface id) := by
  rw [List.filter_filter]
  refine List.filter_congr fun packet _ => ?_
  unfold fromInterface fromQueue
  by_cases hhead : packet.head? = some id
  · simp [hhead, hmouse]
  · simp [hhead]

/-- What has been sent, what has left the queue and what the host has taken or is going to take. -/
structure Told (id : UInt8) (reports : List HidReport) (gone : List (HidReport × Bool)) (queue : List HidReport)
    (d : HidDevice) : Prop where
  shelved : Shelved d.txFifo d.log gone queue
  queued : ((gone.filter fun g => ofInterface id g.1).map Prod.fst ++ queue.filter (ofInterface id)).Sublist reports
  outgoing : d.usb.outgoing.filter (fromInterface id) =
    ((gone.filter fun g => ofInterface id g.1).filter Prod.snd).map fun g => g.1.packet

theorem Carried.told (h : Carried id reports d) (hmouse : id ≠ hidReportidMouse) :
    ∃ gone queue, Told id reports gone queue d := by
  obtain ⟨gone, queue, hconveyed⟩ := h.underway
  have hqueued := hconveyed.shelved.queued
  have hsub := queued_sublist d.log
  have hids : ∀ g ∈ gone, g.1.id ≠ 0 := by
    intro g hg
    refine h.ids g.1 (hsub.subset ?_)
    rw [hqueued]
    exact List.mem_append_left _ (List.mem_map_of_mem hg)
  refine ⟨gone, queue, hconveyed.shelved, ?_, ?_⟩
  · have hfilter := hsub.filter (ofInterface id)
    rw [hqueued, List.filter_append, List.filter_map, h.sent] at hfilter
    exact hfilter
  · rw [fromInterface_outgoing hmouse, hconveyed.sent, filter_packets hids]

/-- The host has taken packets of reports that were sent, in their order; none is left out as long as
`SendReport_` and `SendLastReport` leave none out. -/
theorem Carried.received (h : Carried id reports d) (hmouse : id ≠ hidReportidMouse) :
    (d.usb.received.filter (fromInterface id)).Sublist (reports.map HidReport.packet) ∧
      (AllArriveOf id d.log →
        d.usb.received.filter (fromInterface id) <+: reports.map HidReport.packet) := by
  obtain ⟨gone, queue, htold⟩ := h.told hmouse
  have htaken : d.usb.received.filter (fromInterface id) <+: d.usb.outgoing.filter (fromInterface id) :=
    (List.prefix_append _ _).filter _
  have hmap := htold.queued.map HidReport.packet
  rw [List.map_append, List.map_map] at hmap
  refine ⟨htaken.sublist.trans ?_, fun ⟨houtcomes, hsent⟩ => htaken.trans ?_⟩
  · rw [htold.outgoing]
    exact (List.filter_sublist.map _).trans ((List.sublist_append_left _ _).trans hmap)
  · -- nothing was left out, and nothing was given up
    rw [departedOf_eq htold.shelved] at hsent
    have hall := queued_of_outcomes houtcomes
    rw [htold.shelved.queued, List.filter_append, List.filter_map, h.sent] at hall
    rw [htold.outgoing, List.filter_eq_self.mpr hsent, ← hall, List.map_append, List.map_map]
    exact List.prefix_append _ _

/-- With the queue empty and nothing in the controller, the last packet of the interface is that of its last
report, if that arrives. -/
theorem Carried.last_packet (h : Carried id reports d) (hmouse : id ≠ hidReportidMouse)
    (hempty : d.txFifo.count = 0) (htaken : d.usb.transfer = none) (harrives : ArrivesOf id d.log) :
    (d.usb.received.filter (fromInterface id)).getLast? = reports.getLast?.map HidReport.packet := by
  obtain ⟨gone, queue, htold⟩ := h.told hmouse
  obtain rfl : queue = [] := htold.shelved.stored.eq_nil_iff.mp
    (List.length_eq_zero_iff.mp (htold.shelved.sound.count_eq.symm.trans hempty))
  have hreceived : d.usb.outgoing = d.usb.received := by
    unfold UsbHid.outgoing
    rw [htaken]
    exact List.append_nil _
  obtain ⟨houtcomes, hgone⟩ := harrives
  have hlast := getLast?_submitted houtcomes
  rw [departedOf_eq htold.shelved] at hgone
  rw [htold.shelved.queued, List.append_nil, h.sent, List.filter_map, List.getLast?_map] at hlast
  change _ = (gone.filter fun g => ofInterface id g.1).getLast?.map Prod.fst at hlast
  rw [← hreceived, htold.outgoing]
  generalize (gone.filter fun g => ofInterface id g.1) = K at hgone hlast ⊢
  cases hK : K.getLast? with
  | none =>
    rw [hK] at hlast
    rw [hlast, List.getLast?_eq_none_iff.mp hK]
    rfl
  | some g =>
    obtain ⟨r, ok⟩ := g
    rw [hK] at hlast hgone
    obtain ⟨before, rfl⟩ := List.getLast?_eq_some_iff.mp hK
    cases ok with
    | false => exact absurd rfl hgone
    | true =>
      have hone : [(r, true)].filter Prod.snd = [(r, true)] := rfl
      rw [List.filter_append, hone, List.map_append, hlast]
      exact List.getLast?_concat

end Host

/-! ## Rounds -/

namespace HidDevice

/-- The host takes what the controller holds, and `tud_task` handles the completion. -/
def serve (d : HidDevice) : HidDevice :=
  let taken := if d.usb.transfer = none then d.usb else d.usb.takeTransfer
  { d with usb := if taken.xferComplete = true then taken.handleComplete else taken }

/-- And then `SendLastReport` is called. -/
def round (d : HidDevice) : HidDevice := (sendLastReport.run d.serve).2

end HidDevice

section Rounds

variable {d : HidDevice} {gone : List (HidReport × Bool)} {queue : List HidReport} {r : HidReport}
  {id : UInt8} {reports : List HidReport}

/-- The endpoint is free afterwards. -/
theorem settled_serve (h : d.usb.Settled) : d.serve.usb.Settled ∧ d.serve.usb.outgoing = d.usb.outgoing ∧
    d.serve.usb.epStatus.busy = false ∧ d.serve.usb.transfer = none := by
  have htake : ∀ u : UsbHid, u.Settled → u.transfer = none →
      (if u.xferComplete = true then u.handleComplete else u).Settled ∧
      (if u.xferComplete = true then u.handleComplete else u).outgoing = u.outgoing ∧
      (if u.xferComplete = true then u.handleComplete else u).epStatus.busy = false ∧
      (if u.xferComplete = true then u.handleComplete else u).transfer = none := by
    intro u hu hnone
    by_cases hcomplete : u.xferComplete = true
    · rw [if_pos hcomplete]
      obtain ⟨hsettled, hout⟩ := hu.moves (.inr ⟨hcomplete, rfl⟩)
      exact ⟨hsettled, hout, rfl, hnone⟩
    · rw [if_neg hcomplete]
      refine ⟨hu, rfl, ?_, hnone⟩
      refine Bool.eq_false_iff.mpr fun hbusy => ?_
      rcases hu.waits hbusy with hsome | htrue
      · exact hsome hnone
      · exact hcomplete htrue
  unfold HidDevice.serve
  by_cases hnone : d.usb.transfer = none
  · rw [if_pos hnone]
    exact htake d.usb h hnone
  · obtain ⟨hsettled, hout⟩ := h.moves (.inl ⟨hnone, rfl⟩)
    rw [if_neg hnone]
    obtain ⟨h₁, h₂, h₃⟩ := htake d.usb.takeTransfer hsettled rfl
    exact ⟨h₁, h₂.trans hout, h₃⟩

theorem Conveyed.serve (h : Conveyed gone queue d.txFifo d.log d.usb) :
    Conveyed gone queue d.serve.txFifo d.serve.log d.serve.usb := by
  obtain ⟨hsettled, hout, -⟩ := settled_serve h.settled
  exact ⟨h.shelved, hsettled, by rw [hout, h.sent]⟩

/-- A round sends the oldest report. -/
theorem Conveyed.round (h : Conveyed gone (r :: queue) d.txFifo d.log d.usb) :
    Conveyed (gone ++ [(r, true)]) queue d.round.txFifo d.round.log d.round.usb ∧
      d.round.log = d.log ++ [.removed true] := by
  obtain ⟨hsettled, hout, hbusy, -⟩ := settled_serve h.settled
  have hserved := h.serve
  have hfits : Transferable r.id r.data := transferable_of_le (h.shelved.fits r List.mem_cons_self).2.2
  obtain ⟨hok, hsettled', hout'⟩ := run_tudHidNReport_free hsettled hbusy hfits
  obtain ⟨pad, rest, hrun⟩ := run_deviceSendLastReport (s := d.serve) h.shelved.sound h.shelved.stored
  have hround : d.round = { d.serve with
      txFifo := d.txFifo.settle, usb := ((tudHidNReport r.id r.data).run d.serve.usb).2 }.removeReport
        (r.frame pad ++ rest) true := by
    unfold HidDevice.round
    rw [hrun (Prod.ext hok rfl)]
    rfl
  rw [hround]
  obtain ⟨hshelved, hspan⟩ := h.shelved.settle
  have hsettle : Conveyed gone (r :: queue) d.txFifo.settle d.log d.serve.usb :=
    ⟨hshelved, hserved.settled, hserved.sent⟩
  exact ⟨hsettle.handed hspan pad rest (.sent hsettled' hfits hout'), rfl⟩

/-- A round with an empty queue only serves the host. -/
theorem Conveyed.round_nil (h : Conveyed gone [] d.txFifo d.log d.usb) : d.round = d.serve := by
  have hcount : d.serve.txFifo.count = 0 := by
    show d.txFifo.count = 0
    rw [h.shelved.sound.count_eq, h.shelved.stored.eq_nil_iff.mpr rfl]
    rfl
  unfold HidDevice.round HidDevice.sendLastReport
  rw [Prog.run_bind, Prog.run_read, if_neg (not_not.mpr hcount)]
  rfl

/-- As many rounds as there are reports send them all. -/
theorem Conveyed.rounds (n : ℕ) (h : Conveyed gone queue d.txFifo d.log d.usb) (hn : queue.length ≤ n) :
    Conveyed (gone ++ queue.map fun r => (r, true)) [] (HidDevice.round^[n] d).txFifo (HidDevice.round^[n] d).log
        (HidDevice.round^[n] d).usb ∧
      (HidDevice.round^[n] d).log = d.log ++ List.replicate queue.length (.removed true) := by
  induction n generalizing d gone queue with
  | zero =>
    obtain rfl := List.length_eq_zero_iff.mp (Nat.le_zero.mp hn)
    simpa using h
  | succ n ih =>
    rw [Function.iterate_succ_apply]
    cases queue with
    | nil =>
      rw [h.round_nil]
      exact ih h.serve (Nat.zero_le n)
    | cons r queue =>
      obtain ⟨hnext, hlog⟩ := h.round
      obtain ⟨hall, hlogs⟩ := ih hnext (Nat.le_of_succ_le_succ hn)
      refine ⟨?_, ?_⟩
      · rw [List.append_assoc] at hall
        exact hall
      · rw [hlogs, hlog, List.append_assoc]
        rfl

/-- The queue holds no more reports than bytes. -/
theorem Frames.length_le {bs : Bytes} {rs : List HidReport} (h : Frames bs rs) : rs.length ≤ bs.length := by
  induction h with
  | nil => exact le_rfl
  | cons pad r hr _ ih =>
    rw [List.length_append, List.length_cons, HidReport.length_frame]
    omega

/-- A log to which only removals are added tells of no new report. -/
theorem submitted_removals (log : List HidEvent) (n : ℕ) :
    submitted (log ++ List.replicate n (.removed true)) = submitted log := by
  unfold submitted
  rw [List.filterMap_append, List.filterMap_replicate_of_none rfl, List.append_nil]

theorem outcomesOf_removals (log : List HidEvent) (n : ℕ) :
    outcomesOf id (log ++ List.replicate n (.removed true)) = outcomesOf id log := by
  unfold outcomesOf
  rw [List.filterMap_append, List.filterMap_replicate_of_none rfl, List.append_nil]

/-- What has left the queue with success has arrived. -/
theorem ArrivesOf.emptied {d' : HidDevice} (harrives : ArrivesOf id d.log)
    (h : Shelved d.txFifo d.log gone queue)
    (h' : Shelved d'.txFifo d'.log (gone ++ queue.map fun r => (r, true)) [])
    (hlog : d'.log = d.log ++ List.replicate queue.length (.removed true)) : ArrivesOf id d'.log := by
  obtain ⟨houtcomes, hgone⟩ := harrives
  refine ⟨?_, ?_⟩
  · rw [hlog, outcomesOf_removals]
    exact houtcomes
  · -- the last one has left just now, or it had left before
    rw [departedOf_eq h] at hgone
    rw [departedOf_eq h', List.filter_append]
    rcases List.eq_nil_or_concat' ((queue.map fun r => (r, true)).filter fun g => ofInterface id g.1) with
      hnil | ⟨before, g, hsnoc⟩
    · rw [hnil, List.append_nil]
      exact hgone
    · have hmem : g ∈ (queue.map fun r => (r, true)).filter fun g => ofInterface id g.1 := by
        rw [hsnoc]
        exact List.mem_append_right _ (List.mem_singleton.mpr rfl)
      obtain ⟨r, -, rfl⟩ := List.mem_map.mp (List.mem_filter.mp hmem).1
      rw [hsnoc, ← List.append_assoc, List.getLast?_concat]
      simp

/-- After the rounds the queue is empty, and what arrives has arrived. -/
theorem Carried.settles (h : Carried id reports d) {n : ℕ} (hn : d.txFifo.count ≤ n) :
    Carried id reports (HidDevice.round^[n] d).serve ∧ (HidDevice.round^[n] d).serve.txFifo.count = 0 ∧
      (HidDevice.round^[n] d).serve.usb.transfer = none ∧
      (ArrivesOf id d.log → ArrivesOf id (HidDevice.round^[n] d).serve.log) := by
  obtain ⟨gone, queue, hconveyed⟩ := h.underway
  have hle : queue.length ≤ n := by
    have hlen := hconveyed.shelved.stored.length_le
    rw [← hconveyed.shelved.sound.count_eq] at hlen
    omega
  obtain ⟨hall, hlog⟩ := hconveyed.rounds n hle
  obtain ⟨-, -, -, hnone⟩ := settled_serve hall.settled
  have hsubmitted : submitted (HidDevice.round^[n] d).log = submitted d.log := by
    rw [hlog, submitted_removals]
  have hcount : (HidDevice.round^[n] d).txFifo.count = 0 := by
    rw [hall.shelved.sound.count_eq, hall.shelved.stored.eq_nil_iff.mpr rfl]
    rfl
  refine ⟨⟨⟨_, _, hall.serve⟩, ?_, ?_⟩, hcount, hnone, ?_⟩
  · show (submitted (HidDevice.round^[n] d).log).filter (ofInterface id) = _
    rw [hsubmitted]
    exact h.sent
  · show ∀ r ∈ submitted (HidDevice.round^[n] d).log, r.id ≠ 0
    rw [hsubmitted]
    exact h.ids
  · intro harrives
    exact harrives.emptied hconveyed.shelved hall.shelved hlog

/-- With the last report of the interface not left out or given up, `SendLastReport` called as often as there are
bytes in the queue, and the host served before each call and afterwards, the host has that report last. -/
theorem Carried.settled_packet (h : Carried id reports d) (hmouse : id ≠ hidReportidMouse)
    (harrives : ArrivesOf id d.log) {n : ℕ} (hn : d.txFifo.count ≤ n) :
    ((HidDevice.round^[n] d).serve.usb.received.filter (fromInterface id)).getLast? =
      reports.getLast?.map HidReport.packet := by
  obtain ⟨hcarried, hempty, htaken, hkept⟩ := h.settles hn
  exact hcarried.last_packet hmouse hempty htaken (hkept harrives)

end Rounds

end NeuronWired
