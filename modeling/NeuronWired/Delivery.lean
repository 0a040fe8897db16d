import NeuronWired.Handshake
import NeuronWired.Outbound

/-!
# Delivery — what was accepted arrives, in order and once

Inbound, the payloads of the DATA messages answered `RESULT_OK` or `RESULT_OK_BUSY` are returned in order,
each once, and those not yet returned are in the two input buffers.  Outbound, the payloads accepted by
`spils_data_send` are armed in order, each once, and the one not yet armed is in `p_buffer_out`.
-/

namespace NeuronWired

open Interrupt

/-! ## Inbound -/

/-- Every DATA message that is received says that it covers at least `n` bytes. -/
def DataAtLeast (n : ℕ) : Irq → Sys → Prop
  | .edge e, s => ∀ h ∈ Exchange.header (s.received e), h.2 = MessType.data → n ≤ h.1.toNat
  | .tick _, _ => True

instance (n : ℕ) (i : Irq) (s : Sys) : Decidable (DataAtLeast n i s) :=
  match i with
  | .edge e => Option.decidableForallMem (Exchange.header (s.received e))
  | .tick _ => .isTrue trivial

/-- The payloads the slave has taken responsibility for, in order. -/
def payloads (trace : List Obs) : List Bytes := (heard trace).exchanges.filterMap Exchange.accepted

/-- Every payload that was accepted has bytes in it. -/
def NonEmpty (xs : List Exchange) : Prop := ∀ x ∈ xs, ∀ p, x.accepted = some p → p ≠ []

section NonEmpty

variable {s : Sys} {e : Edge} {x : Exchange} {n : ℕ}

theorem noShort_of_dataAtLeast (h : DataAtLeast n (.edge e) s) (hn : 2 ≤ n) : NoShort s e :=
  fun _ htakes => Nat.le_trans hn (h _ htakes.2.2.2 rfl)

theorem acked_eq_payloads {trace : List Obs} (h : NonEmpty (heard trace).exchanges) :
    acked trace = payloads trace := by
  unfold acked payloads
  generalize (heard trace).exchanges = xs at h
  induction xs with
  | nil => rfl
  | cons x xs ih =>
    have hxs := ih fun y hy => h y (List.mem_cons_of_mem _ hy)
    rw [List.flatMap_cons, hxs]
    cases hx : x.accepted with
    | none => rw [List.filterMap_cons_none hx, Exchange.gain_none hx, List.nil_append]
    | some p =>
      have hp : entry p = [p] := if_neg (h x List.mem_cons_self p hx)
      rw [List.filterMap_cons_some hx, Exchange.gain_some hx, hp]
      rfl

/-- An accepted payload is the message without its header. -/
theorem Exchange.accepted_eq {p : Bytes} (h : x.accepted = some p) :
    x.Delivers ∧ ∀ len type, Exchange.header x.wire = some (len, type) →
      p = (x.wire.take len.toNat).drop 2 := by
  by_cases ha : x.Answered MessType.resultOk ∨ x.Answered MessType.resultOkBusy
  · cases hh : Exchange.header x.wire with
    | none =>
      have hn : x.payload = none := by
        unfold Exchange.payload
        rw [hh]
      unfold Exchange.accepted at h
      rw [hn, ite_self] at h
      cases h
    | some ht =>
      by_cases ht' : ht.2 = MessType.data
      · have hdata : Exchange.header x.wire = some (ht.1, MessType.data) := by rw [hh, ← ht']
        refine ⟨⟨⟨_, hdata⟩, ha⟩, fun len type hlen => ?_⟩
        rw [Exchange.accepted_data hdata ha] at h
        rw [← Option.some.inj h, (Prod.mk.inj (Option.some.inj hlen)).1]
      · have hn : x.accepted = none := Exchange.accepted_other hh ht'
        rw [hn] at h
        cases h
  · have hn : x.accepted = none := if_neg ha
    rw [hn] at h
    cases h

theorem NonEmpty.step {xs : List Exchange} (h : NonEmpty xs) (hd : DataAtLeast 3 (.edge e) s)
    (hw : x.wire = e.wire) (hx : Sound s e x) : NonEmpty (xs ++ [x]) := by
  intro y hy p hp
  rcases List.mem_append.mp hy with hy | hy
  · exact h y hy p hp
  · rw [List.mem_singleton] at hy
    subst hy
    obtain ⟨hdel, hpay⟩ := Exchange.accepted_eq hp
    obtain ⟨-, len, hwire, hle, hrec⟩ := hx.data hdel.1 hdel.2
    have h3 : 3 ≤ len.toNat := hd _ hrec rfl
    have hrecv := length_received_wire s e
    rw [hpay len _ (by rw [hw]; exact hwire), hw]
    intro hnil
    have hlen := congrArg List.length hnil
    rw [List.length_drop, List.length_take, List.length_nil] at hlen
    omega

end NonEmpty

/-- **Delivery in order**: for any messages of the master whose DATA headers cover more than
themselves. -/
theorem inbound_delivery {s₀ : Sys} (h₀ : Initial s₀) {c : Cfg Sys LinkCall}
    (hc : (linkMachine (fun _ _ => True) (DataAtLeast 3)).Reach s₀ c) (hq : c.irq = none) :
    returned c.st.ghost.trace <+: payloads c.st.ghost.trace ∧
    (∃ fl held : List Bytes,
      payloads c.st.ghost.trace = returned c.st.ghost.trace ++ fl ++ held ∧
      fl.length ≤ 1 ∧ ((∀ p, c.main ≠ some (.dataRead, p)) → fl = []) ∧
      (∀ p ∈ held, p = c.st.inB.content ∨ p = c.st.cacheB.content) ∧
      (c.st.ghost.swapIn = false → held = entry c.st.inB.content ++ entry c.st.cacheB.content)) ∧
    ∀ x ∈ (heard c.st.ghost.trace).exchanges,
      x.Answered MessType.resultErr ∨ x.Answered MessType.resultBusy → x.accepted = none := by
  obtain ⟨conf, hw, slave, hok, rfl⟩ := h₀
  set size := conf.messageSizeMax + 2
  have hB := base_start hok hw slave
  have O := outline_history (C := fun _ _ => True) (I := DataAtLeast 3) (g := True)
    (H := fun _ xs => NonEmpty xs) size (fun e s h _ => noShort_of_dataAtLeast h (by decide))
    fun _ _ _ _ hd hw hx h => h.step hd hw hx
  have h₀ : NonEmpty (heard (start conf hw slave).ghost.trace).exchanges := by
    rw [(history_start hok hw slave).2]
    intro x hx p hp
    rw [List.mem_singleton.mp hx] at hp
    cases hp
  obtain ⟨s, m, q⟩ := c
  have hq' : q = none := hq
  subst hq'
  have hkey : ∃ n : ℕ, n ≤ 1 ∧ ((∀ p, m ≠ some (.dataRead, p)) → n = 0) ∧
      InAt size (Seen size True n) s ∧ NonEmpty (heard s.ghost.trace).exchanges := by
    have hinit := And.intro (And.intro (inAt_start (g := True) hok hw slave) hB) (And.intro hB h₀)
    cases m with
    | none =>
      obtain ⟨⟨hin, -⟩, -, hne⟩ := O.idle hinit hc
      exact ⟨0, Nat.zero_le _, fun _ => rfl, seen_open (Nat.zero_le _) s hin, hne⟩
    | some kp =>
      obtain ⟨⟨hin, -⟩, -, hne⟩ := O.during hinit hc
      refine ⟨kp.1.inFlight, kp.1.inFlight_le, fun hm => ?_, hin, hne⟩
      cases hk : kp.1 with
      | dataRead => exact absurd (by rw [← hk]) (hm kp.2)
      | poll => rfl
      | dataSend pData dataSize => rfl
  obtain ⟨n, hn, hread, hin, hne⟩ := hkey
  obtain ⟨fl, held, hfl, hack, hmem, hswap⟩ := hin.view.holds trivial
  have hack' : payloads s.ghost.trace = returned s.ghost.trace ++ fl ++ held := by
    rw [← acked_eq_payloads hne]
    exact hack
  have hinL : (inView s).inL.content = s.inB.content := by rw [inL_inView hin.shape]; rfl
  have hcacheL : (inView s).cacheL.content = s.cacheB.content := by rw [cacheL_inView hin.shape]; rfl
  rw [hinL, hcacheL] at hmem hswap
  refine ⟨?_, ⟨fl, held, hack', Nat.le_trans hfl hn, fun hm => ?_, hmem, hswap⟩, ?_⟩
  · rw [hack', List.append_assoc]
    exact List.prefix_append _ _
  · have h0 := hread hm
    exact List.eq_nil_of_length_eq_zero (by omega)
  · rintro x - (hx | hx)
    · exact Exchange.accepted_refused hx (by decide) (by decide)
    · exact Exchange.accepted_refused hx (by decide) (by decide)

/-- The master sends a message of two bytes, and the main loop reads it. -/
def sampleDelivery : List (Act LinkCall Irq) :=
  [.irq (.edge (.of [2, 1])), .irq (.edge (.of [4, 3, 7, 9])), .call .dataRead, .go 40]

theorem inbound_delivery_sample :
    returned ((linkMachine (fun _ _ => True) (DataAtLeast 3)).play sampleDelivery
      (sampleLink, none)).1.ghost.trace = [[7, 9]] ∧
    [[7, 9]] <+: payloads ((linkMachine (fun _ _ => True) (DataAtLeast 3)).play sampleDelivery
      (sampleLink, none)).1.ghost.trace := by
  have hreturned : returned ((linkMachine (fun _ _ => True) (DataAtLeast 3)).play sampleDelivery
      (sampleLink, none)).1.ghost.trace = [[7, 9]] := by decide
  refine ⟨hreturned, ?_⟩
  rw [← hreturned]
  exact (inbound_delivery sampleLink_initial
    (Machine.Reach.play (c := (sampleLink, none)) sampleDelivery .init (by decide)) rfl).1

/-! ## Outbound -/

/-- Calls of `spils_data_send` with a payload that fits and is as long as they say. -/
def SendOk : LinkCall → Sys → Prop
  | .dataSend (some p) dataSize, s =>
    p.length = dataSize ∧ 1 ≤ dataSize ∧ dataSize ≤ s.link.messageSizeMax
  | .dataSend none _, _ => False
  | .poll, _ | .dataRead, _ => True

instance (k : LinkCall) (s : Sys) : Decidable (SendOk k s) :=
  match k with
  | .dataSend (some _) _ => inferInstanceAs (Decidable (_ ∧ _))
  | .dataSend none _ => .isFalse id
  | .poll | .dataRead => .isTrue trivial

/-- The payload of a call of `spils_data_send` that has not returned yet. -/
def sendingNow : Option (LinkCall × Code Unit) → List Bytes
  | some (.dataSend pData dataSize, _) => sendPayload pData dataSize .ok
  | _ => []

theorem SendOk.fits {size dataSize : ℕ} {pData : Option Bytes} {s : Sys} (hs : Shape size s)
    (h : SendOk (.dataSend pData dataSize) s) : Fits size pData dataSize := by
  have hsize := hs.size_eq
  cases pData with
  | none => exact h.elim
  | some p =>
    obtain ⟨h1, h2, h3⟩ := h
    exact ⟨p, rfl, h1, h2, by omega⟩

/-- **Sending in order**: what is armed for `DATA_SENDING` is what `spils_data_send` accepted, and at
most one payload waits, in `p_buffer_out` and marked by `data_out_available`. -/
theorem outbound_delivery {s₀ : Sys} (h₀ : Initial s₀) {c : Cfg Sys LinkCall}
    (hc : (linkMachine SendOk fun _ _ => True).Reach s₀ c) (hq : c.irq = none) :
    (outLog c.st.ghost.trace).sent <+:
      ((outLog c.st.ghost.trace).accepted ++ sendingNow c.main).map messageOf ∧
    (∀ p ∈ (outLog c.st.ghost.trace).accepted, messHeaderSize + p.length < 256) ∧
    (outLog c.st.ghost.trace).dummyOk = true ∧
    ((∀ pData dataSize p, c.main ≠ some (.dataSend pData dataSize, p)) →
      ∃ waiting : List Bytes,
        (outLog c.st.ghost.trace).accepted.map messageOf = (outLog c.st.ghost.trace).sent ++ waiting ∧
        waiting.length ≤ 1 ∧ (c.st.link.dataOutAvailable = true ↔ waiting ≠ []) ∧
        ∀ m ∈ waiting, c.st.outB.content = m) := by
  obtain ⟨conf, hw, slave, hok, rfl⟩ := h₀
  set size := conf.messageSizeMax + 2
  have O := outline_outbound (C := SendOk) (g := True) (fun _ _ => True) size
    fun _ _ _ hs h _ => SendOk.fits hs h
  have hstart : OutAt size (OutOpen size True False []) (start conf hw slave) ∧
      Base size (start conf hw slave) := ⟨outAt_start hok hw slave, base_start hok hw slave⟩
  have hsize := hstart.2.shape.size_le
  obtain ⟨s, m, q⟩ := c
  obtain rfl : q = none := hq
  have hseen : OutSeen size True (sendingNow m) (outView s) := by
    cases m with
    | none => exact (O.idle hstart hc).1.view.seen List.nil_prefix
    | some kp =>
      obtain ⟨k, p⟩ := kp
      have hd := (O.during hstart hc).1.view
      cases k with
      | dataSend pData n => exact hd
      | poll => exact OutOpen.seen hd List.nil_prefix
      | dataRead => exact OutOpen.seen hd List.nil_prefix
  refine ⟨hseen.sent trivial, fun p hp => ?_, (hseen.log trivial).dummies, fun hout => ?_⟩
  · have h := (hseen.log trivial).short p hp
    unfold messHeaderSize
    omega
  have hopen : OutOpen size True False [] (outView s) := by
    cases m with
    | none => exact (O.idle hstart hc).1.view
    | some kp =>
      obtain ⟨k, p⟩ := kp
      have hd := (O.during hstart hc).1.view
      cases k with
      | dataSend pData n => exact absurd rfl (hout pData n p)
      | poll => exact hd
      | dataRead => exact hd
  refine ⟨(outView s).waiting, ?_, ?_, ?_, ?_⟩
  · have h := hopen.ledger trivial
    rw [List.append_nil] at h
    exact h
  · unfold OutView.waiting
    split_ifs <;> simp
  · refine hopen.avail.trans ?_
    unfold OutView.waiting
    split_ifs with hl <;> simp [hl]
  · intro w hw
    unfold OutView.waiting at hw
    split_ifs at hw
    · exact (List.mem_singleton.mp hw).symm
    · cases hw

/-- The main loop sends two bytes, and the master asks for them. -/
def sampleSending : List (Act LinkCall Irq) :=
  [.call (.dataSend (some [7, 9]) 2), .go 40, .irq (.edge (.of [2, 2]))]

theorem outbound_delivery_sample :
    (outLog ((linkMachine SendOk fun _ _ => True).play sampleSending
      (sampleLink, none)).1.ghost.trace).sent = [[4, 3, 7, 9]] ∧
    (outLog ((linkMachine SendOk fun _ _ => True).play sampleSending
      (sampleLink, none)).1.ghost.trace).dummyOk = true := by
  have h := outbound_delivery sampleLink_initial
    (Machine.Reach.play (c := (sampleLink, none)) sampleSending .init (by decide)) rfl
  exact ⟨by decide, h.2.2.1⟩

end NeuronWired
