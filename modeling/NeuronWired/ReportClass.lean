import NeuronWired.Channel

/-!
# ReportClass — a class of `MultiReport` on the device

A class keeps an object and sends reports under its id with `HID().SendReport`.  What it sends goes through the
queue with the reports of all others; an invariant of the object and of what it has sent is therefore one of the
object and of what the host gets.

This needs that nothing is lost on the way.  The runs are those in which the class finds room in `tx_ff_hid` for
what a call sends, the reports of the others fit the endpoint and find room too, and the device stays configured.
-/

namespace NeuronWired

open Interrupt

/-- A class of `MultiReport`: a call changes the object and sends reports. -/
structure ReportClass (κ C : Type) where
  id : UInt8
  call : C → κ → κ × List Bytes
  shared : id ≠ hidReportidMouse
  numbered : id ≠ 0
  fits : ∀ c object, ∀ data ∈ (call c object).2, 1 ≤ data.length ∧ data.length ≤ 63

/-- The object of a class and the device; the reports that the object has sent. -/
structure Reporter (κ : Type) where
  object : κ
  device : HidDevice
  sent : List Bytes

/-- A call of the main loop; `report` is one of another class. -/
inductive ReporterCall (C : Type) where
  | call (c : C)
  | report (r : HidReport)
  | sendLastReport
  deriving DecidableEq, Repr

/-- The bytes of reports in the queue. -/
def framedLength : List Bytes → ℕ
  | [] => 0
  | data :: datas => 4 + data.length + framedLength datas

namespace Reporter

variable {κ : Type}

/-- The device. -/
def deviceLens : Lens (Reporter κ) HidDevice where
  get s := s.device
  set d s := { s with device := d }
  get_set _ _ := rfl
  set_get _ := rfl
  set_set _ _ _ := rfl

/-- Nothing has been sent. -/
def start (object : κ) (d : HidDevice) : Reporter κ := ⟨object, d, []⟩

/-- All but the device. -/
def rest (s : Reporter κ) : κ × List Bytes := (s.object, s.sent)

end Reporter

namespace ReportClass

variable {κ C : Type} (K : ReportClass κ C)

/-- Reports one after the other. -/
def sendReports (id : UInt8) : List Bytes → Prog HidDevice Unit
  | [] => pure ()
  | data :: datas => do
    HidDevice.sendReport_ ⟨id, data⟩
    sendReports id datas

/-- The program of a call. -/
def prog : ReporterCall C → Prog (Reporter κ) Unit
  | .call c => do
    let object ← Prog.read fun s => s.object
    (sendReports K.id (K.call c object).2).zoom Reporter.deviceLens
    Prog.write fun s => { s with object := (K.call c object).1, sent := s.sent ++ (K.call c object).2 }
  | .report r => (DeviceCall.sendReport r).prog.zoom Reporter.deviceLens
  | .sendLastReport => DeviceCall.sendLastReport.prog.zoom Reporter.deviceLens

/-- The machine, while the reports of the class find room in `tx_ff_hid`, and those of the others fit and find
room. -/
def machine : Machine (Reporter κ) (ReporterCall C) DeviceEvent where
  call := K.prog
  irq e := Prog.write fun s => { s with device := e.act s.device }
  callOk
    | .call c, s => s.device.txFifo.count + framedLength (K.call c s.object).2 ≤ hidDepth
    | .report r, s => r.id ≠ K.id ∧ FitsEndpoint r s.device
    | .sendLastReport, _ => True
  irqOk e s := (deviceMachine FitsEndpoint).irqOk e s.device

instance (k : ReporterCall C) (s : Reporter κ) : Decidable (K.machine.callOk k s) :=
  match k with
  | .call _ => inferInstanceAs (Decidable (_ ≤ _))
  | .report _ => inferInstanceAs (Decidable (_ ∧ _))
  | .sendLastReport => .isTrue trivial

instance (e : DeviceEvent) (s : Reporter κ) : Decidable (K.machine.irqOk e s) :=
  inferInstanceAs (Decidable ((deviceMachine FitsEndpoint).irqOk e s.device))

/-- The reports, as `SendReport` gets them. -/
def reports (datas : List Bytes) : List HidReport := datas.map fun data => ⟨K.id, data⟩

/-- The packets of the reports. -/
def packets (datas : List Bytes) : List Bytes := datas.map fun data => K.id :: data

/-! ## Every call -/

/-- What happens around the main loop. -/
def Around (s s' : Reporter κ) : Prop := ∃ d, DeviceMoves s.device d ∧ s' = { s with device := d }

variable {K} {s : Reporter κ} {sent : List HidReport} {d : HidDevice}

theorem stable_around {P : HidDevice → Prop} (hP : Stable DeviceMoves P) (rest : κ × List Bytes) :
    Stable Around fun s => P s.device ∧ s.rest = rest := by
  rintro s _ ⟨d, hm, rfl⟩ ⟨hs, hrest⟩
  exact ⟨hP _ _ hm hs, hrest⟩

/-- A program of the device leaves all else alone. -/
theorem wp_around {α : Type} {p : Prog HidDevice α} {Q : α → HidDevice → Prop}
    (h : wp DeviceMoves (fun _ => True) p Q s.device) :
    wp Around (fun _ => True) (p.zoom Reporter.deviceLens) (fun a t => Q a t.device ∧ t.rest = s.rest) s := by
  have hframe : ∀ t t', Around t t' → t.rest = s.rest →
      Relation.ReflTransGen DeviceMoves (Reporter.deviceLens.get t) (Reporter.deviceLens.get t') ∧
        t'.rest = s.rest := by
    rintro t _ ⟨d, hm, rfl⟩ hrest
    exact ⟨.single hm, hrest⟩
  exact wp_always_mono (wp_zoom hframe (fun _ _ ht => ht) h rfl) fun _ _ => trivial

/-- After any reports, all of them have been sent. -/
theorem wp_sendReports (datas : List Bytes) (hfits : ∀ data ∈ datas, 1 ≤ data.length ∧ data.length ≤ 63)
    (h : Roomy K.id (framedLength datas) sent d) :
    wp DeviceMoves (fun _ => True) (sendReports K.id datas)
      (fun _ => Carried K.id (sent ++ K.reports datas)) d := by
  induction datas generalizing d sent with
  | nil =>
    refine wp_pure stable_carried (fun _ _ => trivial) ?_
    rw [reports, List.map_nil, List.append_nil]
    exact h.1
  | cons data datas ih =>
    obtain ⟨hpos, hle⟩ := hfits data List.mem_cons_self
    have hhead := wp_roomySendReport (r := ⟨K.id, data⟩) K.shared K.numbered rfl hpos hle h
    refine wp_bind (wp_mono hhead fun _ e he => ?_)
    have hrest := ih (fun data' hmem => hfits data' (List.mem_cons_of_mem _ hmem)) he
    rw [List.append_assoc] at hrest
    exact hrest

variable {I : κ → List Bytes → Prop}

/-- Between two calls: the invariant, and the queue carries what was sent. -/
def Reports (K : ReportClass κ C) (I : κ → List Bytes → Prop) (s : Reporter κ) : Prop :=
  Carried K.id (K.reports s.sent) s.device ∧ I s.object s.sent

theorem stable_reports : Stable Around (K.Reports I) := by
  rintro s _ ⟨d, hm, rfl⟩ ⟨hs, hI⟩
  exact ⟨stable_carried _ _ hm hs, hI⟩

theorem Reports.of_rest {t : Reporter κ} (h : K.Reports I s) (hd : Carried K.id (K.reports s.sent) t.device)
    (hrest : t.rest = s.rest) : K.Reports I t := by
  obtain ⟨hobject, hsent⟩ : t.object = s.object ∧ t.sent = s.sent := Prod.ext_iff.mp hrest
  refine ⟨?_, ?_⟩
  · rw [hsent]
    exact hd
  · rw [hobject, hsent]
    exact h.2

/-- A call of the class. -/
theorem wp_classCall (hcall : ∀ c object sent, I object sent →
      I (K.call c object).1 (sent ++ (K.call c object).2)) (c : C) (h : K.Reports I s)
    (hroom : s.device.txFifo.count + framedLength (K.call c s.object).2 ≤ hidDepth) :
    wp Around (fun _ => True) (K.prog (.call c)) (fun _ => K.Reports I) s := by
  have hroomy : Roomy K.id (framedLength (K.call c s.object).2) (K.reports s.sent) s.device ∧ s.rest = s.rest :=
    ⟨⟨h.1, hroom⟩, rfl⟩
  refine wp_read_of s.object (stable_around stable_roomy s.rest) (fun _ _ => trivial) hroomy
    (fun t ht => congrArg Prod.fst ht.2) fun t ht => ?_
  refine wp_bind (wp_mono (wp_around (wp_sendReports _ (K.fits c s.object) ht.1)) fun _ u hu => ?_)
  rw [ht.2] at hu
  refine wp_write_last (stable_around stable_carried s.rest) (fun _ _ => trivial) hu stable_reports
    (fun _ _ => trivial) fun v hv => ?_
  have hsent : v.sent = s.sent := congrArg Prod.snd hv.2
  refine ⟨?_, ?_⟩
  · show Carried K.id (K.reports (v.sent ++ _)) v.device
    rw [hsent, reports, List.map_append]
    exact hv.1
  · show I _ (v.sent ++ _)
    rw [hsent]
    exact hcall c s.object s.sent h.2

/-- The invariant between the calls. -/
theorem outline (hcall : ∀ c object sent, I object sent → I (K.call c object).1 (sent ++ (K.call c object).2)) :
    K.machine.Outline (K.Reports I) fun _ _ => True := by
  have hmoves : ∀ s s', K.machine.Rely s s' → Around s s' := by
    rintro s _ ⟨e, he, rfl⟩
    exact ⟨_, moves_of_rely (show (deviceMachine FitsEndpoint).Rely _ _ from ⟨e, he, rfl⟩), rfl⟩
  refine ⟨stable_reports.anti hmoves, fun k s hs hok => wp_anti ?_ hmoves⟩
  cases k with
  | call c => exact wp_classCall hcall c hs hok
  | report r =>
    refine wp_mono (wp_around (wp_carriedOther K.shared hok.1 hs.1 hok.2)) ?_
    rintro - t ⟨hcarried, hrest⟩
    exact hs.of_rest hcarried hrest
  | sendLastReport =>
    refine wp_mono (wp_around (wp_carriedSendLastReport hs.1)) ?_
    rintro - t ⟨hcarried, hrest⟩
    exact hs.of_rest hcarried hrest

/-! ## Every run -/

variable {buffer : Vector UInt8 hidDepth} {mounted suspended : Bool} {pad : UInt8} {stack : Vector UInt8 260}
  {object : κ}

/-- What every call keeps holds in every state between calls, of what the queue has carried. -/
theorem reach (h₀ : I object [])
    (hcall : ∀ c object sent, I object sent → I (K.call c object).1 (sent ++ (K.call c object).2))
    (hreach : K.machine.Reach (.start object (.start buffer mounted suspended pad stack)) ⟨s, none, none⟩) :
    K.Reports I s :=
  (outline hcall).idle ⟨carried_start buffer mounted suspended pad stack, h₀⟩ hreach

/-- Where a schedule leads that ends between two calls. -/
theorem reach_play {s₀ : Reporter κ} (acts : List (Act (ReporterCall C) DeviceEvent))
    (hok : K.machine.Allowed acts (s₀, none)) (hidle : (K.machine.play acts (s₀, none)).2.isNone = true) :
    K.machine.Reach s₀ ⟨(K.machine.play acts (s₀, none)).1, none, none⟩ := by
  have hreach := Machine.Reach.play (M := K.machine) (c := (s₀, none)) acts .init hok
  rwa [Option.isNone_iff_eq_none.mp hidle] at hreach

theorem map_packet_reports (datas : List Bytes) : (K.reports datas).map HidReport.packet = K.packets datas := by
  unfold reports packets
  rw [List.map_map]
  exact List.map_congr_left fun data _ => wire_of_ne K.numbered

/-- The host has taken packets that were sent, in their order, and all so far if all arrive. -/
theorem Reports.received (h : K.Reports I s) :
    (s.device.usb.received.filter (fromInterface K.id)).Sublist (K.packets s.sent) ∧
      (AllArriveOf K.id s.device.log →
        s.device.usb.received.filter (fromInterface K.id) <+: K.packets s.sent) := by
  rw [← map_packet_reports]
  exact h.1.received K.shared

/-- After the rounds the last packet of the class is the last one sent, if that arrives. -/
theorem Reports.settled (h : K.Reports I s) (harrives : ArrivesOf K.id s.device.log) {n : ℕ}
    (hn : s.device.txFifo.count ≤ n) :
    ((HidDevice.round^[n] s.device).serve.usb.received.filter (fromInterface K.id)).getLast? =
      s.sent.getLast?.map fun data => K.id :: data := by
  rw [h.1.settled_packet K.shared harrives hn, reports, List.getLast?_map, Option.map_map]
  cases s.sent.getLast? with
  | none => rfl
  | some data => exact congrArg some (wire_of_ne K.numbered)

end ReportClass

end NeuronWired
