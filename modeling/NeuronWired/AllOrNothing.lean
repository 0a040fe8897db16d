import NeuronWired.Outbound

/-!
# AllOrNothing — what `spils_data_send` leaves behind

The size of the data arrives in 16 bits, is cut to 8 bits in the call of `_mess_compose_data`, and only what
is left is compared with the limit.  Every refusal comes before the buffer is touched, so nothing is left
behind by a refused call; an accepted call has composed the whole of its data only if the cut lost nothing.
-/

namespace NeuronWired

open Interrupt

/-! ## `_mess_compose_data` -/

section Compose

variable {size : ℕ} {s : Sys} {i : BufId} {p : Bytes} {len : ℕ}

/-- Data beyond the limit are refused before the buffer is recycled. -/
theorem run_messComposeData_refused (pData : Option Bytes) (h : s.link.messageSizeMax < len) :
    (messComposeData i pData len).run s =
      (.err, s.log (.assertFailed "SPI slave driver output data exceedes maximum message size")) := by
  unfold messComposeData
  rw [Prog.run_bind_of (run_readLink _ _), if_pos h, Prog.run_bind_of (run_assertDygma _ _ _), if_neg (by decide)]
  rfl

/-- Data within the limit are composed, `len` bytes of them. -/
theorem run_messComposeData_made (hs : Shape size s) (hle : len ≤ s.link.messageSizeMax) (hp : len ≤ p.length) :
    ∃ t, (messComposeData i (some p) len).run s = (.ok, t) ∧ t.link = s.link ∧
      (t.pool.get i).content = UInt8.ofNat (messHeaderSize + len) :: MessType.data :: p.take len := by
  have hsize := hs.size_le
  have hmax := hs.size_eq
  set hd : Bytes := [UInt8.ofNat (messHeaderSize + len), MessType.data] with hhd
  obtain ⟨-, hheadS, hheadG, hwrite, -, hcont⟩ := headed (hs.sized i) hs.two_le hsize
    (show hd.length = 2 from rfl)
  set b2 := (s.pool.get i).recycle.append hd 2 with hb2
  unfold messComposeData
  rw [Prog.run_bind_of (run_readLink _ _), if_neg (by omega), Prog.run_bind_of (run_writeBuf _ _ _), writeHeader,
    Prog.run_bind_of (run_writeBuf _ _ _), Prog.run_bind_of (run_writeBuf _ _ _)]
  generalize hst : Sys.setBuf _ i _ = t
  have hlink : t.link = s.link := by rw [← hst]; rfl
  have hbuf : t.pool.get i = b2 := by
    rw [← hst]
    simp only [Sys.pool_setBuf, Pool.get_set_self]
    rfl
  dsimp only
  by_cases h0 : len = 0
  · subst h0
    rw [if_pos rfl]
    refine ⟨t, rfl, hlink, ?_⟩
    rw [hbuf]
    exact hcont
  rw [if_neg h0]
  -- the limit leaves room for the data behind the header
  have hroom : b2.writePos + len ≤ size := by omega
  have hadd : b2.add p len = (.ok, b2.append (p.take len) len) := Buffer.add_eq hheadG hroom h0 p
  have hcont' : (b2.append (p.take len) len).content = hd ++ p.take len := by
    rw [Buffer.content_append hheadS hheadG hroom (by rw [List.length_take]; omega), hcont]
  have hrun : (Prog.atomic fun s : Sys =>
      (((s.pool.get i).add p len).1, s.setBuf i ((s.pool.get i).add p len).2)).run t =
        (.ok, t.setBuf i (b2.append (p.take len) len)) := by
    rw [Prog.run_atomic, hbuf, hadd]
  rw [Prog.run_bind_of hrun, Prog.run_bind_of (run_assertDygma _ _ _), if_neg (by decide), if_pos (by decide)]
  refine ⟨_, rfl, hlink, ?_⟩
  rw [Sys.pool_setBuf, Pool.get_set_self]
  exact hcont'

end Compose

/-! ## `spils_data_send` -/

section Send

variable {size : ℕ} {s : Sys} {p : Bytes} {n : ℕ}

theorem run_spilsDataSend_waiting (pData : Option Bytes) (n : ℕ) (h : s.link.dataOutAvailable = true) :
    (spilsDataSend pData n).run s = (.busy, s.log (.sendRet pData n .busy)) := by
  unfold spilsDataSend
  rw [Prog.run_bind_of (run_readLink _ _), if_pos h]
  rfl

/-- Nothing waits and the mutex is free, so everything depends on `_mess_compose_data`. -/
theorem run_spilsDataSend_free (pData : Option Bytes) (n : ℕ) (hav : s.link.dataOutAvailable = false)
    (hfree : s.link.mutexOut = false) :
    (spilsDataSend pData n).run s = (do
      let result ← messComposeData s.link.pBufferOut pData (u8 n)
      writeGhost fun g => { g with filling := none }
      if result = .err then
        mutexOutUnlock
        returnSend pData n result
      else
        writeLink fun l => { l with dataOutAvailable := true }
        mutexOutUnlock
        returnSend pData n result : Code Result).run
        (s.lockOut.mapGhost fun g => { g with filling := some s.link.pBufferOut }) := by
  have hlock : mutexOutTrylock.run s = (true, s.lockOut) := by
    show (if s.link.mutexOut = true then _ else _) = _
    rw [if_neg (by rw [hfree]; decide)]
    rfl
  unfold spilsDataSend
  rw [Prog.run_bind_of (run_readLink _ _), if_neg (by rw [hav]; decide), Prog.run_bind_of hlock,
    if_neg (by decide), Prog.run_bind_of (run_readLink _ _), Prog.run_bind_of (run_writeGhost _ _)]
  rfl

/-- A size beyond the limit is refused, and the mutex is given back. -/
theorem run_spilsDataSend_refused (pData : Option Bytes) (hav : s.link.dataOutAvailable = false)
    (hfree : s.link.mutexOut = false) (hlong : s.link.messageSizeMax < u8 n) :
    ∃ t, (spilsDataSend pData n).run s = (.err, t) ∧ t.link = s.link ∧ t.pool = s.pool := by
  have hrun := run_messComposeData_refused (i := s.link.pBufferOut)
    (s := s.lockOut.mapGhost fun g => { g with filling := some s.link.pBufferOut }) pData hlong
  rw [run_spilsDataSend_free pData n hav hfree, Prog.run_bind_of hrun, Prog.run_bind_of (run_writeGhost _ _),
    if_pos rfl]
  exact ⟨_, rfl, Spils.unlockOut_eq hfree, rfl⟩

/-- Any other size is accepted, with what is left of it in 8 bits. -/
theorem run_spilsDataSend_made (hs : Shape size s) (hav : s.link.dataOutAvailable = false)
    (hfree : s.link.mutexOut = false) (hle : u8 n ≤ s.link.messageSizeMax) (hp : n ≤ p.length) :
    ∃ t, (spilsDataSend (some p) n).run s = (.ok, t) ∧
      t.link = { s.link with dataOutAvailable := true } ∧
      t.outB.content = UInt8.ofNat (messHeaderSize + u8 n) :: MessType.data :: p.take (u8 n) := by
  have hshape : Shape size (s.lockOut.mapGhost fun g => { g with filling := some s.link.pBufferOut }) :=
    (hs.mapLink (fun l => { l with mutexOut := true }) rfl).congr rfl rfl
  have hcut : u8 n ≤ p.length := Nat.le_trans (Nat.mod_le n 256) hp
  obtain ⟨t, hrun, hlink, hcont⟩ := run_messComposeData_made (i := s.link.pBufferOut) hshape hle hcut
  rw [run_spilsDataSend_free (some p) n hav hfree, Prog.run_bind_of hrun, Prog.run_bind_of (run_writeGhost _ _),
    if_neg (by decide)]
  refine ⟨_, rfl, ?_, ?_⟩
  · show { t.link with dataOutAvailable := true, mutexOut := false } = _
    rw [hlink]
    show { s.link with dataOutAvailable := true, mutexOut := false } = _
    rw [← hfree]
  · show (t.pool.get t.link.pBufferOut).content = _
    rw [hlink]
    exact hcont

end Send

/-! ## All or nothing -/

/-- The message in `p_buffer_out` is made of all `n` bytes at `p`, and its `head.len` counts them. -/
def Sys.Carries (t : Sys) (p : Bytes) (n : ℕ) : Prop :=
  ∃ len : UInt8, len.toNat = messHeaderSize + n ∧ t.outB.content = len :: MessType.data :: p.take n

/-- What a return from `spils_data_send` promises: `RESULT_OK` that the whole message waits and the mutexes are
as before, anything else that the link and its buffers are as before. -/
def Promised (s : Sys) (p : Bytes) (n : ℕ) (r : Result × Sys) : Prop :=
  if r.1 = .ok then r.2.link = { s.link with dataOutAvailable := true } ∧ r.2.Carries p n
  else r.2.link = s.link ∧ r.2.pool = s.pool

/-- `spils_data_send` is all or nothing in this state, for the first `n` bytes at `p`. -/
def Sys.AllOrNothing (s : Sys) (p : Bytes) (n : ℕ) : Prop :=
  Promised s p n ((spilsDataSend (some p) n).run s)

/-- Nothing of the size is lost in 8 bits where it matters: the call is refused before, the size fits into 8 bits,
or what is left of it is refused. -/
def Sys.Uncut (s : Sys) (n : ℕ) : Prop :=
  s.link.dataOutAvailable = true ∨ n ≤ 255 ∨ s.link.messageSizeMax < n % 256

section Exact

variable {size : ℕ} {s : Sys} {p : Bytes} {n : ℕ}

theorem Sys.Carries.fits {t : Sys} (h : t.Carries p n) : n ≤ 253 := by
  obtain ⟨len, hlen, -⟩ := h
  have := len.toNat_lt
  unfold messHeaderSize at hlen
  omega

/-- The exact condition, from a state with its mutex free. -/
theorem allOrNothing_iff (hs : Shape size s) (hfree : s.link.mutexOut = false) (hp : n ≤ p.length) :
    s.AllOrNothing p n ↔ s.Uncut n := by
  unfold Sys.AllOrNothing Sys.Uncut
  by_cases hav : s.link.dataOutAvailable = true
  · rw [run_spilsDataSend_waiting _ _ hav]
    exact ⟨fun _ => Or.inl hav, fun _ => ⟨rfl, rfl⟩⟩
  have hav : s.link.dataOutAvailable = false := by simpa using hav
  by_cases hlong : s.link.messageSizeMax < u8 n
  · obtain ⟨t, hrun, hlink, hpool⟩ := run_spilsDataSend_refused (n := n) (some p) hav hfree hlong
    rw [hrun]
    exact ⟨fun _ => Or.inr (Or.inr hlong), fun _ => ⟨hlink, hpool⟩⟩
  · obtain ⟨t, hrun, hlink, hcont⟩ := run_spilsDataSend_made hs hav hfree (Nat.le_of_not_lt hlong) hp
    rw [hrun]
    have hsize := hs.size_le
    have hmax := hs.size_eq
    constructor
    · intro hsent
      have := (show t.link = _ ∧ t.Carries p n from hsent).2.fits
      exact Or.inr (Or.inl (by omega))
    · intro huncut
      have hn : n ≤ 255 := huncut.resolve_left (by rw [hav]; decide) |>.resolve_right hlong
      have h8 : u8 n = n := u8_of_lt (by omega)
      rw [h8] at hcont hlong
      refine ⟨hlink, _, ?_, hcont⟩
      rw [UInt8.toNat_ofNat']
      unfold messHeaderSize
      omega

end Exact

/-- **A send is all or nothing** in every state the main loop can call it in, for every size, if and only if the
size is not cut where it matters. -/
theorem data_send_all_or_nothing_iff {s₀ : Sys} (h₀ : Initial s₀) {s : Sys}
    (hc : (linkMachine (fun _ _ => True) fun _ _ => True).Reach s₀ ⟨s, none, none⟩) {p : Bytes} {n : ℕ}
    (hp : n ≤ p.length) : s.AllOrNothing p n ↔ s.Uncut n := by
  obtain ⟨conf, hw, slave, hok, rfl⟩ := h₀
  obtain ⟨hout, -⟩ := (outline_outbound (g := False) (fun _ _ => True) (conf.messageSizeMax + 2)
    fun _ _ _ _ _ hf => hf.elim).idle ⟨outAt_start hok hw slave, base_start hok hw slave⟩ hc
  exact allOrNothing_iff hout.shape hout.view.core.locked hp

theorem data_send_all_or_nothing_four : sampleLink.AllOrNothing [1, 2, 3, 4] 4 ↔ sampleLink.Uncut 4 :=
  data_send_all_or_nothing_iff sampleLink_initial .init (by decide)

/-- 260 bytes are accepted as four: `RESULT_OK` for a message whose `head.len` is six. -/
theorem data_send_all_or_nothing_cut :
    ∃ s : Sys, (linkMachine (fun _ _ => True) fun _ _ => True).Reach sampleLink ⟨s, none, none⟩ ∧
      ((spilsDataSend (some (List.replicate 260 7)) 260).run s).1 = .ok ∧
      ((spilsDataSend (some (List.replicate 260 7)) 260).run s).2.outB.content = [6, 3, 7, 7, 7, 7] ∧
      ¬s.AllOrNothing (List.replicate 260 7) 260 := by
  have hok : ((spilsDataSend (some (List.replicate 260 7)) 260).run sampleLink).1 = .ok := by decide +kernel
  refine ⟨sampleLink, .init, hok, by decide +kernel, fun h => ?_⟩
  unfold Sys.AllOrNothing Promised at h
  rw [if_pos hok] at h
  exact absurd h.2.fits (by decide)

end NeuronWired
