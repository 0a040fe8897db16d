import NeuronWired.OutEffect

/-!
# Outbound — the main loop's half of the outbound direction

Assertions about the outbound view, their stability under the interrupt, and from them an outline of
`spils_data_send`.  The rest of the main loop is out of view.  While the output mutex is held the
interrupt leaves `p_buffer_out` alone.
-/

namespace NeuronWired

open Interrupt

/-! ## Assertions -/

namespace OutView

/-- The message that waits to be armed. -/
def waiting (v : OutView) : List Bytes := if v.outB.look.Loaded then [v.outB.content] else []

/-- The transfer armed carries a message of the queue. -/
def Real (v : OutView) : Prop := v.state = .dataSending ∧ v.outLen ≠ 2

/-- The transfer armed carries the dummy while the object above waits for a message to be sent. -/
def Mistaken (v : OutView) : Prop := v.state = .dataSending ∧ v.outLen = 2 ∧ v.sending = true

end OutView

section Assertions

variable (size : ℕ) (g k : Prop)

/-- Dummies were armed only when nothing was waiting, and what was accepted fits into a message. -/
structure OutLog.Ok (o : OutLog) : Prop where
  dummies : o.dummyOk = true
  short : ∀ p ∈ o.accepted, p.length + 2 ≤ size

/-- What the outbound half always looks like; `m` says whether the main loop holds the mutex. -/
structure OutCore (m : Bool) (v : OutView) : Prop where
  ne : v.pOut ≠ v.pCache
  locked : v.locked = m
  swap : v.swap = false
  outGood : v.outB.look.Good size
  cacheGood : v.cacheL.Good size
  log : g → v.log.Ok size

/-- The output mutex is free; the payloads `fl` have been accepted and their acceptance has not been
returned yet.  Under `k`, `spils_data_out_sending` is set while a message is on its way. -/
structure OutOpen (fl : List Bytes) (v : OutView) : Prop where
  core : OutCore size g false v
  avail : v.avail = true ↔ v.outB.look.Loaded
  filling : v.filling = none
  big : g ∨ k → v.outB.look.Loaded → 2 < v.outB.content.length
  ledger : g → (v.log.accepted ++ fl).map messageOf = v.log.sent ++ v.waiting
  flag : k → v.sending = false → v.avail = false
  real : k → v.Real → v.avail = false ∧ v.sending = true

/-- Nothing waits, and under `k` the flag has been set for a message to come. -/
structure OutReady (v : OutView) : Prop where
  openAt : OutOpen size g k [] v
  avail : k → v.avail = false
  sending : k → v.sending = true
  real : k → ¬v.Real

/-- The main loop holds the output mutex, and with it the buffer `i`, which is `b`. -/
structure OutHeld (i : BufId) (b : Buffer) (a : Bool) (r : Option BufId) (v : OutView) : Prop where
  core : OutCore size g true v
  pOut : v.pOut = i
  outB : v.outB = b
  avail : v.avail = a
  filling : v.filling = r
  ledger : g → v.log.accepted.map messageOf = v.log.sent
  sending : k → v.sending = true
  real : k → ¬v.Real

/-- What every point of the main loop shares; `fl` are the payloads of the call that runs. -/
structure OutSeen (fl : List Bytes) (v : OutView) : Prop where
  ne : v.pOut ≠ v.pCache
  swap : v.swap = false
  outGood : v.outB.look.Good size
  cacheGood : v.cacheL.Good size
  filling : v.filling ≠ some v.pCache
  unlocked : v.locked = false → v.filling = none
  log : g → v.log.Ok size
  sent : g → v.log.sent <+: (v.log.accepted ++ fl).map messageOf

/-- A state whose outbound view meets `Φ`. -/
structure OutAt (Φ : OutView → Prop) (s : Sys) : Prop where
  shape : Shape size s
  view : Φ (outView s)

/-- The interrupt, as far as the outbound half is concerned; under `k` no transfer ends that is
mistaken for the end of a message. -/
def OutRely (s s' : Sys) : Prop :=
  (Shape size s → Shape size s') ∧
    (OutWf size (outView s) → OutEff size (k → ¬(outView s).Mistaken) (outView s) (outView s'))

end Assertions

variable {size : ℕ} {g k dn : Prop} {fl fl' : List Bytes} {v v' : OutView}

/-! ## What the interrupt does to them -/

section Stability

theorem OutCore.wf {m : Bool} (h : OutCore size g m v) : OutWf size v := ⟨h.ne, fun _ => h.outGood⟩

/-- The cache, the state and the flag do not matter to most of it. -/
theorem OutCore.answered {m : Bool} (h : OutCore size g m v) {l : Look} (hl : l.Good size)
    (st : SpilsState) : OutCore size g m { v.completed with cacheL := l, state := st, outLen := 2 } :=
  ⟨h.ne, h.locked, h.swap, h.outGood, hl, h.log⟩

/-- Only the end of a message clears the flag. -/
theorem completed_sending (hd : ¬v.Mistaken) (hr : ¬v.Real) (hs : v.sending = true) :
    v.completed.sending = true := by
  have hst : v.state ≠ .dataSending := by
    intro hst
    by_cases h2 : v.outLen = 2
    · exact hd ⟨hst, h2, hs⟩
    · exact hr ⟨hst, h2⟩
  unfold OutView.completed
  rw [hs, Bool.true_and]
  exact decide_eq_true hst

/-- The flag is cleared only when nothing waits. -/
theorem OutOpen.completed_flag (h : OutOpen size g k fl v) (hk : k) (hd : ¬v.Mistaken)
    (hf : v.completed.sending = false) : v.avail = false := by
  by_cases hs : v.sending = true
  · by_cases hr : v.Real
    · exact (h.real hk hr).1
    · exact absurd (hf.symm.trans (completed_sending hd hr hs)) (by decide)
  · exact h.flag hk (by simpa using hs)

/-- A transfer with a payload is counted. -/
theorem OutLog.step_message {o : OutLog} {out : Bytes} {n : ℕ} (h : messHeaderSize < out.length) :
    o.step (.armed out n .dataSendStart .ok) = { o with sent := o.sent ++ [out] } := if_pos h

/-- A dummy is not; it is looked at when it comes. -/
theorem OutLog.step_dummy {o : OutLog} {out : Bytes} {n : ℕ} (h : out.length ≤ messHeaderSize) :
    o.step (.armed out n .dataSendStart .ok) =
      { o with dummyOk := o.dummyOk && decide (o.accepted.length ≤ o.sent.length) } :=
  if_neg (Nat.not_lt.mpr h)

theorem OutOpen.eff (hsize : size ≤ 255) (h : OutOpen size g k fl v)
    (he : OutEff size (k → ¬v.Mistaken) v v') : OutOpen size g k fl v' := by
  cases he with
  | same => exact h
  | answered l st hl hst hd =>
    refine ⟨h.core.answered hl st, h.avail, h.filling, h.big, h.ledger, ?_, ?_⟩
    · exact fun hk hf => h.completed_flag hk (hd hk) hf
    · rintro - ⟨hs, -⟩
      rcases hst with rfl | rfl <;> cases hs
  | dummied l out n hl hout hfree he hd =>
    have hwait : v.waiting = [] := if_neg he
    refine ⟨⟨h.core.ne, h.core.locked, h.core.swap, h.core.outGood, hl, ?_⟩, ?_, h.filling, h.big, ?_,
      fun _ _ => rfl, ?_⟩
    · intro hg
      have hlen := congrArg List.length (h.ledger hg)
      rw [hwait, List.append_nil, List.length_map, List.length_append] at hlen
      show OutLog.Ok size (v.log.step (.armed out n .dataSendStart .ok))
      rw [OutLog.step_dummy hout]
      refine ⟨?_, (h.core.log hg).short⟩
      show (v.log.dummyOk && _) = true
      rw [(h.core.log hg).dummies, Bool.true_and, decide_eq_true_iff]
      omega
    · exact ⟨fun hf => Bool.noConfusion hf, fun hf => absurd hf he⟩
    · intro hg
      show ((v.log.step _).accepted ++ fl).map messageOf = (v.log.step _).sent ++ v.waiting
      rw [OutLog.step_dummy hout]
      exact h.ledger hg
    · rintro - ⟨-, hlen⟩
      exact absurd rfl hlen
  | sent b n hfree hl hb hd =>
    have hbig : g ∨ k → 2 < v.outB.content.length := fun hgk => h.big hgk hl
    have hempty : ¬b.look.Loaded := by
      rw [hb]
      exact Look.not_loaded_empty size
    have hwait : v.waiting = [v.outB.content] := if_pos hl
    have havail : v.avail = true := h.avail.mpr hl
    have hgood : b.look.Good size := by
      rw [hb]
      exact Look.good_empty hsize
    refine ⟨⟨h.core.ne.symm, h.core.locked, rfl, hgood, h.core.outGood, ?_⟩, ?_, h.filling,
      fun _ hf => absurd hf hempty, ?_, fun _ _ => rfl, ?_⟩
    · intro hg
      show OutLog.Ok size (v.log.step (.armed v.outB.content n .dataSendStart .ok))
      rw [OutLog.step_message (hbig (.inl hg))]
      obtain ⟨hd, hs⟩ := h.core.log hg
      exact ⟨hd, hs⟩
    · exact ⟨fun hf => Bool.noConfusion hf, fun hf => absurd hf hempty⟩
    · intro hg
      have hnone : (if b.look.Loaded then [b.content] else []) = [] := if_neg hempty
      show ((v.log.step _).accepted ++ fl).map messageOf = (v.log.step _).sent ++ (if b.look.Loaded then _ else _)
      rw [hnone, List.append_nil, OutLog.step_message (hbig (.inl hg)), ← hwait]
      exact h.ledger hg
    · intro hk _
      refine ⟨rfl, ?_⟩
      have hs : v.sending = true := by
        by_contra hf
        have := h.flag hk (by simpa using hf)
        rw [havail] at this
        cases this
      have hr : ¬v.Real := fun hr => by
        have := (h.real hk hr).1
        rw [havail] at this
        cases this
      exact completed_sending (hd hk) hr hs

theorem OutReady.eff (hsize : size ≤ 255) (h : OutReady size g k v)
    (he : OutEff size (k → ¬v.Mistaken) v v') : OutReady size g k v' := by
  refine ⟨h.openAt.eff hsize he, ?_, ?_, ?_⟩
  · intro hk
    cases he with
    | same => exact h.avail hk
    | answered => exact h.avail hk
    | dummied => rfl
    | sent => rfl
  · intro hk
    cases he with
    | same => exact h.sending hk
    | answered l st hl hst hd => exact completed_sending (hd hk) (h.real hk) (h.sending hk)
    | dummied l out n hl hout hfree he hd => exact completed_sending (hd hk) (h.real hk) (h.sending hk)
    | sent b n hfree hl hb hd => exact completed_sending (hd hk) (h.real hk) (h.sending hk)
  · intro hk
    cases he with
    | same => exact h.real hk
    | answered l st hl hst hd =>
      rintro ⟨hs, -⟩
      rcases hst with rfl | rfl <;> cases hs
    | dummied => exact fun hr => hr.2 rfl
    | sent b n hfree hl hb hd =>
      have havail := h.openAt.avail.mpr hl
      rw [h.avail hk] at havail
      cases havail

theorem OutHeld.eff {i : BufId} {b : Buffer} {a : Bool} {r : Option BufId}
    (h : OutHeld size g k i b a r v) (he : OutEff size (k → ¬v.Mistaken) v v') :
    OutHeld size g k i b a r v' := by
  cases he with
  | same => exact h
  | answered l st hl hst hd =>
    refine ⟨h.core.answered hl st, h.pOut, h.outB, h.avail, h.filling, h.ledger, ?_, ?_⟩
    · exact fun hk => completed_sending (hd hk) (h.real hk) (h.sending hk)
    · rintro - ⟨hs, -⟩
      rcases hst with rfl | rfl <;> cases hs
  | dummied l out n hl hout hfree => exact absurd (h.core.locked.symm.trans hfree) (by simp)
  | sent b n hfree => exact absurd (h.core.locked.symm.trans hfree) (by simp)

theorem stable_outAt {Φ : OutView → Prop} (hwf : ∀ v, Φ v → OutWf size v)
    (heff : size ≤ 255 → ∀ v v', Φ v → OutEff size (k → ¬v.Mistaken) v v' → Φ v') :
    Stable (OutRely size k) (OutAt size Φ) := by
  rintro s s' ⟨hsh, hview⟩ h
  exact ⟨hsh h.shape, heff h.shape.size_le _ _ h.view (hview (hwf _ h.view))⟩

theorem stable_outOpen : Stable (OutRely size k) (OutAt size (OutOpen size g k fl)) :=
  stable_outAt (fun _ h => h.core.wf) fun hsize _ _ h he => h.eff hsize he

theorem stable_outReady : Stable (OutRely size k) (OutAt size (OutReady size g k)) :=
  stable_outAt (fun _ h => h.openAt.core.wf) fun hsize _ _ h he => h.eff hsize he

theorem stable_outHeld {i : BufId} {b : Buffer} {a : Bool} {r : Option BufId} :
    Stable (OutRely size k) (OutAt size (OutHeld size g k i b a r)) :=
  stable_outAt (fun _ h => h.core.wf) fun _ _ _ h he => h.eff he

end Stability

/-! ## Steps of the main loop -/

section Steps

variable {Φ Φ' : OutView → Prop} {s s' : Sys} {i : BufId} {b b' : Buffer} {a : Bool} {r : Option BufId}

theorem OutOpen.seen (h : OutOpen size g k fl v) (hfl : fl <+: fl') : OutSeen size g fl' v := by
  refine ⟨h.core.ne, h.core.swap, h.core.outGood, h.core.cacheGood, ?_, fun _ => h.filling, h.core.log,
    fun hg => ?_⟩
  · rw [h.filling]
    intro hf
    cases hf
  · have hpre : v.log.sent <+: (v.log.accepted ++ fl).map messageOf := by
      rw [h.ledger hg]
      exact List.prefix_append _ _
    obtain ⟨rest, rfl⟩ := hfl
    refine hpre.trans ?_
    rw [← List.append_assoc]
    exact (List.prefix_append _ _).map messageOf

theorem OutHeld.seen (h : OutHeld size g k i b a r v) (hr : r = none ∨ r = some i) :
    OutSeen size g fl v := by
  refine ⟨h.core.ne, h.core.swap, h.core.outGood, h.core.cacheGood, ?_,
    fun hf => absurd (h.core.locked.symm.trans hf) (by decide), h.core.log, fun hg => ?_⟩
  · rw [h.filling]
    rintro hf
    rcases hr with hr | hr
    · exact absurd (hr.symm.trans hf) (by simp)
    · have heq : i = v.pCache := Option.some.inj (hr.symm.trans hf)
      exact h.core.ne (h.pOut.trans heq)
  · rw [List.map_append, h.ledger hg]
    exact List.prefix_append _ _

theorem seen_outOpen (hfl : fl <+: fl') (s : Sys) (h : OutAt size (OutOpen size g k fl) s) :
    OutAt size (OutSeen size g fl') s := ⟨h.shape, h.view.seen hfl⟩

theorem seen_outHeld (hr : r = none ∨ r = some i) (s : Sys)
    (h : OutAt size (OutHeld size g k i b a r) s) : OutAt size (OutSeen size g fl) s :=
  ⟨h.shape, h.view.seen hr⟩

theorem OutAt.mono (h : OutAt size Φ s) (hΦ : ∀ v, Φ v → Φ' v) : OutAt size Φ' s :=
  ⟨h.shape, hΦ _ h.view⟩

theorem OutAt.mapLink (h : OutAt size Φ s) {f : Spils → Spils} (hf : (f s.link).core = s.link.core)
    (hΦ : Φ' (outView (s.mapLink f))) : OutAt size Φ' (s.mapLink f) := ⟨h.shape.mapLink f hf, hΦ⟩

/-- A step that touches neither the link nor the buffers. -/
theorem OutAt.congr (h : OutAt size Φ s) (hl : s'.link = s.link) (hp : s'.pool = s.pool)
    (hΦ : Φ' (outView s')) : OutAt size Φ' s' := ⟨h.shape.congr hl hp, hΦ⟩

/-- The buffer that the main loop holds. -/
theorem OutAt.held (h : OutAt size (OutHeld size g k i b a r) s) :
    s.link.pBufferOut = i ∧ s.pool.get i = b ∧ b.Sized size := by
  have hi : s.link.pBufferOut = i := h.view.pOut
  have hb : s.pool.get i = b := by
    rw [← hi]
    exact h.view.outB
  exact ⟨hi, hb, hb ▸ h.shape.sized i⟩

/-- Assignment to the buffer that the main loop holds. -/
theorem OutAt.setHeld (h : OutAt size (OutHeld size g k i b a r) s) {f : Buffer → Buffer}
    (hs : (f b).Sized size) (hg : (f b).look.Good size) :
    OutAt size (OutHeld size g k i (f b) a r) (s.setBuf i (f (s.pool.get i))) := by
  obtain ⟨hi, hb, -⟩ := h.held
  rw [hb]
  refine ⟨h.shape.setBuf i hs, ?_⟩
  obtain ⟨⟨h1, h2, h3, -, h5, h6⟩, h7, -, h9, h10, h11, h12, h13⟩ := h.view
  have hview := outView_setBuf_out (s := s) h1 (f b)
  rw [hi] at hview
  rw [hview]
  exact ⟨⟨h1, h2, h3, hg, h5, h6⟩, h7, rfl, h9, h10, h11, h12, h13⟩

end Steps

/-! ## `spils_data_send` -/

section Send

variable {s : Sys} {i : BufId} {b : Buffer} {pData : Option Bytes} {len dataSize : ℕ}

/-- A payload that fits into a message and is as long as the caller says. -/
def Fits (size : ℕ) (pData : Option Bytes) (dataSize : ℕ) : Prop :=
  ∃ p, pData = some p ∧ p.length = dataSize ∧ 1 ≤ dataSize ∧ dataSize + 2 ≤ size

/-- A recycled buffer, and with a header of two bytes in it. -/
theorem headed (hs : b.Sized size) (h2 : 2 ≤ size) (hsize : size ≤ 255) {hd : Bytes}
    (hlen : hd.length = 2) :
    b.recycle.look.Good size ∧ (b.recycle.append hd 2).Sized size ∧
      (b.recycle.append hd 2).look.Good size ∧ (b.recycle.append hd 2).writePos = 2 ∧
      (b.recycle.append hd 2).readPos = 0 ∧ (b.recycle.append hd 2).content = hd := by
  have hrec : b.recycle.look = .empty size := Buffer.look_recycle hs
  have hgood : b.recycle.look.Good size := by
    rw [hrec]
    exact Look.good_empty hsize
  have hroom : b.recycle.writePos + 2 ≤ size := show 0 + 2 ≤ size by omega
  refine ⟨hgood, hs.recycle.append hd 2, Buffer.good_append hs.recycle hgood hroom,
    (Buffer.mod_append hgood hroom hd).2, Buffer.readPos_updateWritePos _ _, ?_⟩
  rw [Buffer.content_append hs.recycle hgood hroom hlen]
  exact congrArg (fun l : Look => l.content ++ hd) hrec

/-- What `_mess_compose_data` makes of the buffer `b`: the message, unless it is too long. -/
structure Composed (size : ℕ) (g k : Prop) (pData : Option Bytes) (b b' : Buffer) (r : Result) :
    Prop where
  refused : r = .err → b' = b ∧ ¬(g ∨ k)
  made : r ≠ .err → r = .ok ∧ b'.look.Loaded ∧
    (g ∨ k → ∃ p, pData = some p ∧ b'.content = messageOf p)

section Compose

variable {b' : Buffer}

/-- The end of every path of `_mess_compose_data`. -/
theorem wp_composed {r : Result} (hc : Composed size g k pData b b' r)
    (h : OutAt size (OutHeld size g k i b' false (some i)) s) :
    wp (OutRely size k) (OutAt size (OutSeen size g fl)) (pure r)
      (fun r s => ∃ b', Composed size g k pData b b' r ∧
        OutAt size (OutHeld size g k i b' false (some i)) s) s := by
  refine wp_pure (Stable.exists fun b' => .const_and _ stable_outHeld) ?_ ⟨b', hc, h⟩
  rintro t ⟨b', -, ht⟩
  exact seen_outHeld (.inr rfl) t ht

variable {hd : Bytes} (hs : b.Sized size) (hsize : size ≤ 255) (hhd : hd.length = 2)
  (hfit : g ∨ k → Fits size pData len)
include hs hsize hhd hfit

/-- Without a payload the message is its header. -/
theorem composed_header (h2 : 2 ≤ size) (hshort : pData = none ∨ len = 0) :
    Composed size g k pData b (b.recycle.append hd 2) .ok := by
  obtain ⟨-, -, -, hwrite, hread, -⟩ := headed hs h2 hsize hhd
  refine ⟨fun hf => Result.noConfusion hf, fun _ => ⟨rfl, ?_, fun hgk => ?_⟩⟩
  · show (b.recycle.append hd 2).readPos ≠ (b.recycle.append hd 2).writePos
    omega
  · obtain ⟨p, hp, -, hpos, -⟩ := hfit hgk
    rcases hshort with hnone | hzero
    · rw [hp] at hnone
      cases hnone
    · omega

/-- The payload behind the header. -/
theorem composed_payload {data : Bytes} (hp : pData = some data) (hroom : 2 + len ≤ size)
    (hmess : data.length = len → hd ++ data = messageOf data) :
    Composed size g k pData b ((b.recycle.append hd 2).append (data.take len) len) .ok := by
  obtain ⟨-, hheadS, hheadG, hwrite, hread, hcont⟩ := headed hs (by omega) hsize hhd
  set b2 := b.recycle.append hd 2 with hb2
  have hroom' : b2.writePos + len ≤ size := by omega
  refine ⟨fun hf => Result.noConfusion hf, fun _ => ⟨rfl, ?_, fun hgk => ?_⟩⟩
  · have hw : (b2.append (data.take len) len).writePos = b2.writePos + len :=
      (Buffer.mod_append hheadG hroom' _).2
    have hr : (b2.append (data.take len) len).readPos = b2.readPos :=
      Buffer.readPos_updateWritePos _ _
    show (b2.append (data.take len) len).readPos ≠ (b2.append (data.take len) len).writePos
    omega
  · obtain ⟨p, hp', hlen, -, -⟩ := hfit hgk
    obtain rfl := Option.some.inj (hp.symm.trans hp')
    refine ⟨data, hp, ?_⟩
    rw [Buffer.content_append hheadS hheadG hroom' (by rw [List.length_take]; omega), hcont,
      List.take_of_length_le (Nat.le_of_eq hlen), hmess hlen]

end Compose

/-- `_mess_compose_data` for `spils_data_send`: the message is in the buffer unless it is too long. -/
theorem wp_messComposeData (hfit : g ∨ k → Fits size pData len)
    (h : OutAt size (OutHeld size g k i b false (some i)) s) :
    wp (OutRely size k) (OutAt size (OutSeen size g fl)) (messComposeData i pData len)
      (fun r s => ∃ b', Composed size g k pData b b' r ∧
        OutAt size (OutHeld size g k i b' false (some i)) s) s := by
  have hA : ∀ (b : Buffer) t, OutAt size (OutHeld size g k i b false (some i)) t →
      OutAt size (OutSeen size g fl) t := fun b => seen_outHeld (.inr rfl)
  have hsize := h.shape.size_le
  have h2 := h.shape.two_le
  have hsb := h.held.2.2
  unfold messComposeData
  refine wp_read stable_outHeld (hA b) h fun t ht => ?_
  have hmax := ht.shape.size_eq
  by_cases hlong : t.link.messageSizeMax < len
  · rw [if_pos hlong]
    have hno : ¬(g ∨ k) := by
      intro hgk
      obtain ⟨p, -, -, -, hle⟩ := hfit hgk
      omega
    refine wp_write stable_outHeld (hA b) ht fun t ht =>
      wp_composed ⟨fun _ => ⟨rfl, hno⟩, fun hf => absurd rfl hf⟩ (ht.congr rfl rfl ?_)
    rw [outView_log (x := .assertFailed _) trivial]
    exact ht.view
  rw [if_neg hlong]
  set hd : Bytes := [UInt8.ofNat (messHeaderSize + len), MessType.data] with hhd
  have hhd2 : hd.length = 2 := rfl
  obtain ⟨hrecG, hheadS, hheadG, hheadW, -, -⟩ := headed hsb h2 hsize hhd2
  refine wp_write stable_outHeld (hA b) ht fun t ht => ?_
  refine wp_write stable_outHeld (hA _) (ht.setHeld hsb.recycle hrecG) fun t ht => ?_
  refine wp_write stable_outHeld (hA _) (ht.setHeld (f := fun b => { b with data := memcpy b.data b.writePos hd })
    (hsb.recycle.setData _ _) (by rw [Buffer.look_writeFree]; exact hrecG)) fun t ht => ?_
  have ht3 : OutAt size (OutHeld size g k i (b.recycle.append hd 2) false (some i))
      (t.setBuf i ((t.pool.get i).updateWritePos messHeaderSize)) :=
    ht.setHeld (f := fun b => b.updateWritePos messHeaderSize) hheadS hheadG
  cases pData with
  | none => exact wp_composed (composed_header hsb hsize hhd2 hfit h2 (.inl rfl)) ht3
  | some data =>
    dsimp only
    by_cases h0 : len = 0
    · rw [if_pos h0]
      exact wp_composed (composed_header hsb hsize hhd2 hfit h2 (.inr h0)) ht3
    rw [if_neg h0]
    -- the message size leaves room for the payload
    have hroom : (b.recycle.append hd 2).writePos + len ≤ size := by omega
    have hadd := Buffer.add_eq hheadG hroom h0 data
    refine wp_atomic stable_outHeld (hA _) ht3 fun t ht =>
      ⟨.ok, t.setBuf i ((b.recycle.append hd 2).append (data.take len) len), ?_, ?_⟩
    · obtain ⟨-, hb, -⟩ := ht.held
      rw [hb, hadd]
    rw [show assertDygma (decide (Result.ok = Result.ok))
      "SPI slave driver output data exceedes available space" = pure () from if_pos rfl, pure_bind,
      if_neg (by decide)]
    refine wp_composed (composed_payload hsb hsize hhd2 hfit rfl (by omega) fun hlen => ?_) (ht.setHeld
      (f := fun _ => (b.recycle.append hd 2).append (data.take len) len) (hheadS.append _ _)
      (Buffer.good_append hheadS hheadG hroom))
    rw [hhd, ← hlen]
    rfl

/-- The payload that a return from `spils_data_send` accepts. -/
def sendPayload : Option Bytes → ℕ → Result → List Bytes
  | some p, dataSize, .ok => [p.take dataSize]
  | _, _, _ => []

theorem step_sendRet (o : OutLog) (pData : Option Bytes) (dataSize : ℕ) (r : Result) :
    o.step (.sendRet pData dataSize r) =
      { o with accepted := o.accepted ++ sendPayload pData dataSize r } := by
  cases pData <;> cases r <;> simp [OutLog.step, sendPayload]

/-- The end of every path. -/
theorem wp_returnSend {r : Result} (hfl : fl = sendPayload pData dataSize r) (hfl' : fl <+: fl')
    (hshort : g → ∀ p ∈ fl, p.length + 2 ≤ size) (hr : k → r = .ok) (h : OutAt size (OutOpen size g k fl) s) :
    wp (OutRely size k) (OutAt size (OutSeen size g fl')) (returnSend pData dataSize r)
      (fun r s => (k → r = .ok) ∧ OutAt size (OutOpen size g k []) s) s := by
  unfold returnSend
  refine wp_write stable_outOpen (seen_outOpen hfl') h fun t ht => ?_
  refine wp_pure (.const_and _ stable_outOpen) (fun t ht => seen_outOpen List.nil_prefix t ht.2)
    ⟨hr, ht.congr rfl rfl ?_⟩
  obtain ⟨⟨h1, h2, h3, h4, h5, h6⟩, h7, h8, h9, h10, h11, h12⟩ := ht.view
  have hview : outView (t.log (.sendRet pData dataSize r)) =
      { outView t with log := (outView t).log.step (.sendRet pData dataSize r) } := by
    unfold outView
    rw [← outLog_append]
    rfl
  rw [hview, step_sendRet, ← hfl]
  refine ⟨⟨h1, h2, h3, h4, h5, fun hg => ⟨(h6 hg).dummies, fun p hp => ?_⟩⟩, h7, h8, h9, fun hg => ?_,
    h11, h12⟩
  · rcases List.mem_append.mp hp with hp | hp
    · exact (h6 hg).short p hp
    · exact hshort hg p hp
  · show (((outView t).log.accepted ++ fl) ++ []).map messageOf = _
    rw [List.append_nil]
    exact h10 hg

/-- Taking the mutex with nothing waiting. -/
theorem OutReady.lock (h : OutReady size g k v) (ha : v.avail = false) :
    ¬v.outB.look.Loaded ∧ OutHeld size g k v.pOut v.outB false none { v with locked := true } := by
  obtain ⟨⟨⟨h1, -, h3, h4, h5, h6⟩, h7, h8, h9, h10, h11, h12⟩, h13, h14, h15⟩ := h
  have hl : ¬v.outB.look.Loaded := fun hl => by
    have := h7.mpr hl
    rw [ha] at this
    cases this
  refine ⟨hl, ⟨h1, rfl, h3, h4, h5, h6⟩, rfl, rfl, ha, h8, fun hg => ?_, h14, h15⟩
  have hledger := h10 hg
  have hwait : v.waiting = [] := if_neg hl
  rw [hwait, List.append_nil, List.append_nil] at hledger
  exact hledger

/-- Giving the mutex back. -/
theorem OutHeld.unlock {a : Bool} (h : OutHeld size g k i b a none v) (ha : a = true ↔ b.look.Loaded)
    (hbig : g ∨ k → b.look.Loaded → 2 < b.content.length)
    (hfl : g → fl.map messageOf = if b.look.Loaded then [b.content] else []) :
    OutOpen size g k fl { v with locked := false } := by
  obtain ⟨⟨h1, -, h3, h4, h5, h6⟩, -, rfl, rfl, h9, h10, h11, h12⟩ := h
  refine ⟨⟨h1, rfl, h3, h4, h5, h6⟩, ha, h9, hbig, fun hg => ?_, fun hk hf => ?_, fun hk hr => ?_⟩
  · show (v.log.accepted ++ fl).map messageOf = v.log.sent ++ v.waiting
    rw [List.map_append, h10 hg, hfl hg]
    rfl
  · exact absurd (hf.symm.trans (h11 hk)) (by decide)
  · exact absurd hr (h12 hk)

/-- Assignment to the ghost record of the buffer being filled. -/
theorem OutAt.fill {a : Bool} {r : Option BufId} (h : OutAt size (OutHeld size g k i b a r) s)
    (r' : Option BufId) :
    OutAt size (OutHeld size g k i b a r') (s.mapGhost fun g => { g with filling := r' }) := by
  obtain ⟨⟨h1, h2, h3, h4, h5, h6⟩, h7, h8, h9, -, h11, h12, h13⟩ := h.view
  exact h.congr rfl rfl ⟨⟨h1, h2, h3, h4, h5, h6⟩, h7, h8, h9, rfl, h11, h12, h13⟩

/-- Assignment to `spils_data_out_available`. -/
theorem OutAt.setAvailable {a : Bool} {r : Option BufId} (h : OutAt size (OutHeld size g k i b a r) s)
    (a' : Bool) :
    OutAt size (OutHeld size g k i b a' r) (s.mapLink fun l => { l with dataOutAvailable := a' }) := by
  obtain ⟨⟨h1, h2, h3, h4, h5, h6⟩, h7, h8, -, h10, h11, h12, h13⟩ := h.view
  exact h.mapLink rfl ⟨⟨h1, h2, h3, h4, h5, h6⟩, h7, h8, rfl, h10, h11, h12, h13⟩

/-- Nothing becomes available by itself. -/
theorem OutReady.eff_avail (hsize : size ≤ 255) (h : OutReady size g k v ∧ v.avail = false)
    (he : OutEff size (k → ¬v.Mistaken) v v') : OutReady size g k v' ∧ v'.avail = false := by
  refine ⟨h.1.eff hsize he, ?_⟩
  cases he with
  | same => exact h.2
  | answered => exact h.2
  | dummied => rfl
  | sent => rfl

/-- `spils_data_send` while a message waits. -/
theorem wp_sendBusy (hk : ¬k) (h : OutAt size (OutReady size g k) s) :
    wp (OutRely size k) (OutAt size (OutSeen size g fl)) (returnSend pData dataSize .busy)
      (fun r s => (k → r = .ok) ∧ OutAt size (OutOpen size g k []) s) s := by
  have hnil : [] = sendPayload pData dataSize .busy := by cases pData <;> rfl
  exact wp_returnSend hnil List.nil_prefix (fun _ p hp => by cases hp) (fun hf => absurd hf hk)
    (h.mono fun _ hv => hv.openAt)

/-- What `spils_data_send` still does once the message is composed. -/
theorem wp_sendComposed {r : Result} {b' : Buffer} (hfit : g ∨ k → Fits size pData dataSize)
    (hempty : ¬b.look.Loaded) (hc : Composed size g k pData b b' r)
    (h : OutAt size (OutHeld size g k i b' false none) s) :
    wp (OutRely size k) (OutAt size (OutSeen size g (sendPayload pData dataSize .ok)))
      (if r = .err then do
        mutexOutUnlock
        returnSend pData dataSize r
      else do
        writeLink fun l => { l with dataOutAvailable := true }
        mutexOutUnlock
        returnSend pData dataSize r)
      (fun r s => (k → r = .ok) ∧ OutAt size (OutOpen size g k []) s) s := by
  have hheld : ∀ a t, OutAt size (OutHeld size g k i b' a none) t →
      OutAt size (OutSeen size g (sendPayload pData dataSize .ok)) t := fun a => seen_outHeld (.inl rfl)
  by_cases hr : r = .err
  · rw [if_pos hr]
    obtain ⟨hsame, hno⟩ := hc.refused hr
    rw [← hsame] at hempty
    refine wp_write stable_outHeld (hheld _) h fun t ht => ?_
    have hnil : [] = sendPayload pData dataSize r := by rw [hr]; cases pData <;> rfl
    refine wp_returnSend hnil List.nil_prefix (fun _ p hp => by cases hp)
      (fun hk => absurd (.inr hk) hno) (ht.mapLink rfl ?_)
    exact ht.view.unlock ⟨fun hf => Bool.noConfusion hf, fun hf => absurd hf hempty⟩
      (fun hgk => absurd hgk hno) fun hg => absurd (.inl hg) hno
  · rw [if_neg hr]
    obtain ⟨rfl, hloaded, hmess⟩ := hc.made hr
    refine wp_write stable_outHeld (hheld _) h fun t ht => ?_
    refine wp_write stable_outHeld (hheld _) (ht.setAvailable true) fun t ht => ?_
    refine wp_returnSend rfl (List.prefix_refl _) (fun hg p hp => ?_) (fun _ => rfl)
      (ht.mapLink rfl ?_)
    · obtain ⟨q, rfl, hlen, -, hle⟩ := hfit (.inl hg)
      rw [show p = q.take dataSize from List.mem_singleton.mp hp, List.length_take]
      omega
    refine ht.view.unlock ⟨fun _ => hloaded, fun _ => rfl⟩ (fun hgk _ => ?_) fun hg => ?_
    · obtain ⟨p, hp, hcont⟩ := hmess hgk
      obtain ⟨p', hp', hlen, hpos, -⟩ := hfit hgk
      obtain rfl := Option.some.inj (hp.symm.trans hp')
      rw [hcont]
      unfold messageOf
      simp only [List.length_cons]
      omega
    · obtain ⟨p, rfl, hcont⟩ := hmess (.inl hg)
      obtain ⟨p', hp', hlen, -⟩ := hfit (.inl hg)
      obtain rfl := Option.some.inj hp'
      rw [if_pos hloaded, hcont]
      show [messageOf (p.take dataSize)] = _
      rw [List.take_of_length_le (Nat.le_of_eq hlen)]

/-- `spils_data_send` with nothing waiting under `k` accepts its payload. -/
theorem wp_spilsDataSend (hfit : g ∨ k → Fits size pData dataSize)
    (h : OutAt size (OutReady size g k) s) :
    wp (OutRely size k) (OutAt size (OutSeen size g (sendPayload pData dataSize .ok)))
      (spilsDataSend pData dataSize)
      (fun r s => (k → r = .ok) ∧ OutAt size (OutOpen size g k []) s) s := by
  have hready : ∀ t, OutAt size (OutReady size g k) t →
      OutAt size (OutSeen size g (sendPayload pData dataSize .ok)) t :=
    fun t ht => seen_outOpen List.nil_prefix t (ht.mono fun _ hv => hv.openAt)
  have h8 : g ∨ k → u8 dataSize = dataSize := fun hgk => by
    obtain ⟨p, -, -, -, hle⟩ := hfit hgk
    have := h.shape.size_le
    exact u8_of_lt (by omega)
  unfold spilsDataSend
  refine wp_read stable_outReady hready h fun t ht => ?_
  by_cases hav : t.link.dataOutAvailable = true
  · rw [if_pos hav]
    refine wp_sendBusy (fun hk => ?_) ht
    have := ht.view.avail hk
    rw [show (outView t).avail = true from hav] at this
    cases this
  rw [if_neg hav]
  have hav : (outView t).avail = false := by
    show t.link.dataOutAvailable = false
    simpa using hav
  -- the mutex is free, so the trylock takes it
  refine wp_atomic (P := OutAt size fun v => OutReady size g k v ∧ v.avail = false)
    (stable_outAt (fun _ h => h.1.openAt.core.wf) fun hsize _ _ h he => OutReady.eff_avail hsize h he)
    (fun t ht => hready t (ht.mono fun _ hv => hv.1)) ⟨ht.shape, ht.view, hav⟩ fun t ht =>
      ⟨true, t.lockOut, if_neg ?_, ?_⟩
  · rw [show t.link.mutexOut = false from ht.view.1.openAt.core.locked]
    decide
  rw [if_neg (by decide)]
  obtain ⟨hempty, hlock⟩ := ht.view.1.lock ht.view.2
  have hl : OutAt size (OutHeld size g k (outView t).pOut (outView t).outB false none) t.lockOut :=
    ht.mapLink rfl hlock
  clear hlock
  generalize (outView t).pOut = i at hl
  generalize (outView t).outB = b at hl hempty
  refine wp_read_of i stable_outHeld (seen_outHeld (.inl rfl)) hl (fun t ht => ht.held.1) fun t ht => ?_
  refine wp_write stable_outHeld (seen_outHeld (.inl rfl)) ht fun t ht => ?_
  refine wp_bind (wp_mono (wp_messComposeData (fun hgk => ?_) (ht.fill (some i))) ?_)
  · rw [h8 hgk]
    exact hfit hgk
  rintro r t ⟨b', hc, ht⟩
  exact wp_write stable_outHeld (seen_outHeld (.inr rfl)) ht fun t ht =>
    wp_sendComposed hfit hempty hc (ht.fill none)

end Send

/-! ## The rest of the main loop is out of view -/

section Elsewhere

variable (size) in
theorem conFrame_outAt (Φ : OutView → Prop) : ConFrame (OutAt size Φ) where
  link s f hf h := by
    refine h.mapLink (Spils.field_eq hf Spils.core fun _ => rfl) ?_
    have hv : outView (s.mapLink f) = outView s :=
      calc outView (s.mapLink f) = outView (s.mapLink fun _ => (f s.link).sansCon) := rfl
        _ = outView (s.mapLink fun _ => s.link.sansCon) := by rw [hf]
        _ = outView s := rfl
    rw [hv]
    exact h.view
  event s e he h := by
    have hs : OutAt size Φ (s.mapSlave (spilsEventHandler e)) := by
      refine h.congr rfl rfl ?_
      rcases he with rfl | rfl <;> exact h.view
    refine hs.congr rfl rfl ?_
    rw [outView_log (x := .event e) trivial]
    exact hs.view

variable (size) in
theorem inFrame_outAt (Φ : OutView → Prop) : InFrame (OutAt size Φ) where
  isIn s h := ⟨h.shape.inBuf, h.shape.inCache⟩
  link s f hf hp hc h := by
    obtain ⟨⟨h1, h2, h3, -, -, h6, h7⟩, hview⟩ := h
    have hmax := Spils.field_eq hf Spils.messageSizeMax fun _ => rfl
    have hout := Spils.field_eq hf Spils.pBufferOut fun _ => rfl
    have hcache := Spils.field_eq hf Spils.pBufferOutCache fun _ => rfl
    refine ⟨⟨hmax ▸ h1, h2, h3, hp, hc, hout ▸ h6, hcache ▸ h7⟩, ?_⟩
    have hv : outView (s.mapLink f) = outView s :=
      calc outView (s.mapLink f) = outView (s.mapLink fun _ => (f s.link).sansIn) := rfl
        _ = outView (s.mapLink fun _ => s.link.sansIn) := by rw [hf]
        _ = outView s := rfl
    rw [hv]
    exact hview
  buf s i b hi hb h := by
    refine ⟨h.shape.setBuf i (hb _ (h.shape.sized i)), ?_⟩
    rw [outView_setBuf_in h.shape hi]
    exact h.view
  swapIn s sw h := h.congr rfl rfl h.view
  reading s r h := h.congr rfl rfl h.view
  event s h := by
    have hs : OutAt size Φ (s.mapSlave (spilsEventHandler .dataInReady)) := h.congr rfl rfl h.view
    refine hs.congr rfl rfl ?_
    rw [outView_log (x := .event .dataInReady) trivial]
    exact hs.view
  log s x hx h := by
    refine h.congr rfl rfl ?_
    rw [outView_log (by cases x <;> trivial)]
    exact h.view

end Elsewhere

/-! ## The outline -/

/-- The assertion inside a call: between two calls of `spils_data_send` nothing is on its way. -/
def OutDuring (size : ℕ) (g : Prop) : LinkCall → OutView → Prop
  | .dataSend pData dataSize => OutSeen size g (sendPayload pData dataSize .ok)
  | .poll | .dataRead => OutOpen size g False []

/-- One complete interrupt, as the outbound half sees it. -/
theorem outRely_irq {s : Sys} (hB : Base size s) (i : Irq)
    (hk : k → ∀ e, i = .edge e → s.received e ≠ [] → ¬(outView s).Mistaken) :
    OutRely size k s ((irqProg i).run s).2 := by
  refine ⟨fun _ => (hB.run_irq i).shape, fun hw => ?_⟩
  cases i with
  | edge e => exact (outEff_handled hB hw (hB.run_edge e)).imp fun hv hk' => hk hk' e rfl hv
  | tick ms => exact .same

/-- **The outbound outline** of the link. -/
theorem outline_outbound {C : LinkCall → Sys → Prop} (I : Irq → Sys → Prop) (size : ℕ)
    (hfit : ∀ pData n s, Shape size s → C (.dataSend pData n) s → g → Fits size pData n) :
    (linkMachine C I).Outline
      (fun s => OutAt size (OutOpen size g False []) s ∧ Base size s)
      fun k s => OutAt size (OutDuring size g k) s ∧ Base size s := by
  refine Machine.Outline.within (R := OutRely size False) (stable_base _ rfl size)
    (fun k => (frame_base_only size).linkProg k) ?_ stable_outOpen fun k s h hok => ?_
  · rintro s s' hB ⟨i, -, rfl⟩
    exact outRely_irq hB i fun hf => hf.elim
  have hst : Stable (OutRely size False) (OutAt size (OutOpen size g False [])) := stable_outOpen
  cases k with
  | poll =>
    exact wp_frame hst (.bind (conFrame_outAt size _).conMachine fun _ =>
      (inFrame_outAt size _).lineInBusyProcess) h
  | dataRead => exact wp_frame hst (.bind (inFrame_outAt size _).spilsDataRead fun _ => keeps_pure _) h
  | dataSend pData n =>
    have hready : OutAt size (OutReady size g False) s :=
      h.mono fun _ hv => ⟨hv, fun hf => hf.elim, fun hf => hf.elim, fun hf => hf.elim⟩
    have hsend := wp_spilsDataSend (fun hgk => hfit pData n s h.shape hok (hgk.resolve_right id)) hready
    exact wp_bind (wp_mono hsend fun _ t ht =>
      wp_pure hst (seen_outOpen List.nil_prefix) ht.2)

/-- The outbound half before the first message is armed. -/
theorem outOpen_prepared {conf : SpilsConf} (hc : conf.Ok) (hw : Board) (slave : SpiSlave) :
    OutOpen (conf.messageSizeMax + 2) g k [] (outView (prepared conf hw slave)) := by
  have hsize := (shape_prepared hc hw slave).size_le
  have hempty := Look.not_loaded_empty (conf.messageSizeMax + 2)
  have hinit := Buffer.look_init (conf.messageSizeMax + 2)
  have hgood : (Buffer.init (conf.messageSizeMax + 2)).look.Good (conf.messageSizeMax + 2) := by
    rw [hinit]
    exact Look.good_empty hsize
  have hun : ¬(Buffer.init (conf.messageSizeMax + 2)).look.Loaded := by
    rw [hinit]
    exact hempty
  have hview : outView (prepared conf hw slave) =
      { pOut := .b3, pCache := .b2
        outB := .init (conf.messageSizeMax + 2), cacheL := (Buffer.init (conf.messageSizeMax + 2)).look
        avail := false, locked := false, swap := false, filling := none
        state := .idle, outLen := 0, sending := slave.spilsDataOutSending, log := ⟨[], [], true⟩ } := by
    rw [prepared_eq hc]
    rfl
  rw [hview]
  refine ⟨⟨fun hf => BufId.noConfusion hf, rfl, rfl, hgood, hgood,
      fun _ => ⟨rfl, fun p hp => by cases hp⟩⟩, ⟨fun hf => Bool.noConfusion hf, fun hf => absurd hf hun⟩,
    rfl, fun _ hf => absurd hf hun, fun _ => ?_, fun _ _ => rfl, ?_⟩
  · have hwait : (if (Buffer.init (conf.messageSizeMax + 2)).look.Loaded then
        [(Buffer.init (conf.messageSizeMax + 2)).content] else []) = [] := if_neg hun
    exact hwait.symm
  · rintro - ⟨hs, -⟩
    cases hs

theorem outAt_start {conf : SpilsConf} (hc : conf.Ok) (hw : Board) (slave : SpiSlave) :
    OutAt (conf.messageSizeMax + 2) (OutOpen (conf.messageSizeMax + 2) g k []) (start conf hw slave) := by
  obtain ⟨h, heq, ha⟩ := start_eq conf hw slave
  have hp := shape_prepared hc hw slave
  have hopen : OutOpen (conf.messageSizeMax + 2) g k [] (outView (prepared conf hw slave)) :=
    outOpen_prepared hc hw slave
  have hidle : (outView (prepared conf hw slave)).state ≠ .dataSending := by
    rw [prepared_eq hc]
    exact SpilsState.noConfusion
  have hafter : AfterOut (prepared conf hw slave) (prepared conf hw slave) := by
    refine ⟨(prepared conf hw slave).outCacheB.look, ?_⟩
    unfold OutView.completed
    rw [decide_eq_true hidle, Bool.and_true]
    rfl
  have hright : k → ¬(outView (prepared conf hw slave)).Mistaken := fun _ hf => hidle hf.1
  have heff := outEff_answered hafter hopen.core.wf hp MessType.resultReady (.inl rfl) false ha hright
  refine ⟨(base_start hc hw slave).shape, ?_⟩
  rw [heq]
  exact hopen.eff hp.size_le heff

end NeuronWired
