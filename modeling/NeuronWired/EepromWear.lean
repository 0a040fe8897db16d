import NeuronWired.EepromDurability
import NeuronWired.EepromBounds

/-!
# EepromWear — when a save that changes nothing asks for an update

`update` does not clear `_dirty`, so a `commit` after it asks for another update although nothing has
changed; only a shadow that was never dirty is left alone.
-/

namespace NeuronWired

namespace Storage

/-- Reads, commits and writes that change no byte of the shadow. -/
def Quiet (s : Storage) (c : EepromCall) : Prop :=
  c.WellFormed ∧ (s.call c).shadow = s.shadow ∧
    match c with
    | .read _ | .write _ _ | .get _ _ | .put _ _ | .commit => True
    | _ => False

/-- `_size` is at most 8192, and there is an array exactly if it is not zero. -/
structure Sized (s : Storage) : Prop where
  le : s.eeprom.size ≤ 8192
  pos : s.eeprom.data ≠ none → s.eeprom.size ≠ 0

section Steps

variable {s s' : Storage} {c : EepromCall}

theorem Sized.congr (h : Sized s) (hs : s'.eeprom.size = s.eeprom.size)
    (hd : s'.eeprom.data ≠ none → s.eeprom.data ≠ none) : Sized s' :=
  ⟨by rw [hs]; exact h.le, fun hne => by rw [hs]; exact h.pos (hd hne)⟩

theorem Sized.of_edit (h : Sized s) (he : Edit s s') : Sized s' := by
  refine h.congr he.size fun hne hnone => hne ?_
  have hdata := he.data
  rw [hnone] at hdata
  exact Option.map_eq_none_iff.mp hdata

theorem Sized.update (h : Sized s) : Sized s.update := by
  rw [update_eq]
  exact h.congr rfl id

theorem Sized.call (h : Sized s) (c : EepromCall) : Sized (s.call c) := by
  cases c with
  | read address => exact h.of_edit (edit_read s address)
  | get address len => exact h.of_edit (edit_get s address len)
  | write address value => exact h.of_edit (edit_write s address value)
  | put address t => exact h.of_edit (edit_put s address t)
  | commit =>
    obtain ⟨hdata, hsize⟩ := s.eeprom_commit
    exact h.congr hsize (hdata ▸ id)
  | getDataPtr => exact h.congr rfl id
  | store off value => exact h.congr rfl fun hne hnone => hne (congrArg (Option.map _) hnone)
  | storeIndex address value => exact h.congr rfl fun hne hnone => hne (congrArg (Option.map _) hnone)
  | update => exact h.update
  | beforeEachCycle now expired =>
    show Sized (s.beforeEachCycle now expired)
    obtain ⟨u, heq | heq⟩ := beforeEachCycle_cases s now expired
    · rw [heq]
      exact h.congr rfl id
    · rw [heq]
      exact h.update.congr rfl id
  | finish =>
    show Sized s.finish.2
    unfold finish
    split_ifs with hzero
    · exact h
    · exact ⟨Nat.zero_le _, fun hne => absurd rfl hne⟩
  | begin size =>
    obtain ⟨hpos, hle⟩ := requestedSize_pos size
    show Sized (s.begin size)
    rw [begin_eq]
    unfold roundedSize
    exact ⟨by show _ / 256 * 256 ≤ _; omega, fun _ => by show _ / 256 * 256 ≠ _; omega⟩

/-- The bytes at an address after a copy to it. -/
theorem bytesAt_copyIn {d src : Bytes} {off : ℕ} (hd : s.eeprom.data = some d)
    (hle : off + src.length ≤ d.length) : (s.copyIn off src).bytesAt off src.length = src := by
  have hshadow : (s.copyIn off src).shadow = memcpy d off src := by
    show (s.eeprom.data.map fun d => memcpy d off src).getD [] = _
    rw [hd]
    rfl
  have hfront : (d.take off).length = off := by
    rw [List.length_take]
    omega
  unfold bytesAt
  apply List.ext_getElem
  · rw [List.length_map, List.length_range]
  · intro i hi hi'
    rw [List.getElem_map, List.getElem_range, hshadow, memcpy_of_le hle, List.getD_eq_getElem?_getD,
      List.append_assoc, List.getElem?_append_right (by omega), hfront, Nat.add_sub_cancel_left,
      List.getElem?_append_left hi', List.getElem?_eq_getElem hi']
    rfl

/-- Bytes that can be stored without a change of the shadow were there. -/
theorem bytesAt_of_shadow {d src : Bytes} {off : ℕ} (hd : s.eeprom.data = some d)
    (hle : off + src.length ≤ d.length) (hsame : (s.copyIn off src).shadow = s.shadow) :
    s.bytesAt off src.length = src := by
  have hbytes := bytesAt_copyIn hd hle
  unfold bytesAt at hbytes ⊢
  rw [hsame] at hbytes
  exact hbytes

/-- A byte that differs would have been stored. -/
theorem eeprom_write_of_shadow {d : Bytes} {address : ℤ} {value : UInt8} (hd : s.eeprom.data = some d)
    (hlen : s.eeprom.size ≤ d.length) (hsame : (s.write address value).shadow = s.shadow) :
    (s.write address value).eeprom = s.eeprom := by
  have hnull : ¬ s.eeprom.data = none := by
    rw [hd]
    simp
  unfold write at hsame ⊢
  split_ifs with hout hequal
  · rfl
  · rfl
  · exfalso
    rw [if_neg hout, if_neg hnull, if_neg hequal] at hsame
    have hread : s.bytesAt address.toNat [value].length = [value] :=
      bytesAt_of_shadow hd (by rw [List.length_singleton]; omega) hsame
    exact hequal (List.cons.inj hread).1

/-- The same for the bytes of a value. -/
theorem eeprom_put_of_shadow {d : Bytes} {address : ℤ} {t : Bytes} (hd : s.eeprom.data = some d)
    (hlen : s.eeprom.size ≤ d.length) (hwf : (EepromCall.put address t).WellFormed)
    (hsame : (s.put address t).shadow = s.shadow) : (s.put address t).eeprom = s.eeprom := by
  obtain ⟨ha, hlpos, hl⟩ := hwf
  unfold put at hsame ⊢
  split_ifs with hout hequal
  · rfl
  · rfl
  · exfalso
    rw [if_neg hout, if_neg hequal] at hsame
    have hle := le_size_of_u32 (s := s) (by omega) ha hl (by omega)
    exact hequal (bytesAt_of_shadow hd (Nat.le_trans hle hlen) hsame)

/-- `commit` on a shadow that is there asks for an update if it is dirty. -/
theorem eeprom_commit_cases {d : Bytes} (hd : s.eeprom.data = some d) (hpos : s.eeprom.size ≠ 0) :
    s.commit.2.eeprom = s.eeprom ∨
      s.eeprom.dirty = true ∧ s.commit.2.eeprom = { s.eeprom with needUpdate := true } := by
  have hnull : ¬ s.eeprom.data = none := by
    rw [hd]
    simp
  unfold commit
  rw [if_neg hpos]
  cases hdirty : s.eeprom.dirty with
  | false =>
    left
    rw [if_pos rfl]
  | true =>
    right
    rw [if_neg (Ne.symm Bool.false_ne_true), if_neg hnull]
    exact ⟨rfl, rfl⟩

/-- The flags after a quiet call on a whole shadow: `commit` asks for an update if the shadow is dirty, the
other calls do nothing. -/
theorem quiet_flags {d : Bytes} (hd : s.eeprom.data = some d) (hlen : s.eeprom.size ≤ d.length)
    (hpos : s.eeprom.size ≠ 0) (hq : s.Quiet c) :
    (s.call c).eeprom = s.eeprom ∨
      (c = .commit ∧ s.eeprom.dirty = true ∧ (s.call c).eeprom = { s.eeprom with needUpdate := true }) := by
  obtain ⟨hwf, hsame, hkind⟩ := hq
  cases c with
  | read address =>
    left
    show (s.read address).2.eeprom = _
    unfold read
    split_ifs <;> rfl
  | get address len =>
    left
    show (s.get address len).2.eeprom = _
    unfold get
    split_ifs <;> rfl
  | write address value => exact .inl (eeprom_write_of_shadow hd hlen hsame)
  | put address t => exact .inl (eeprom_put_of_shadow hd hlen hwf hsame)
  | commit =>
    rcases eeprom_commit_cases hd hpos with h | ⟨hdirty, h⟩
    · exact .inl h
    · exact .inr ⟨rfl, hdirty, h⟩
  | _ => exact hkind.elim

/-- After a quiet run an update is pending if one was, or if the shadow is dirty and there was a
`commit`. -/
theorem quiet_run {d : Bytes} {later : List EepromCall} (hd : s.eeprom.data = some d)
    (hlen : s.eeprom.size ≤ d.length) (hpos : s.eeprom.size ≠ 0)
    (hq : Run.Along Storage.call Quiet s later) :
    (Run.after Storage.call s later).eeprom.needUpdate = true ↔
      s.eeprom.needUpdate = true ∨ (s.eeprom.dirty = true ∧ .commit ∈ later) := by
  induction later generalizing s with
  | nil => simp
  | cons c later ih =>
    rw [Run.after_cons]
    have hflags := quiet_flags hd hlen hpos hq.1
    have hrest := hq.2
    rcases hflags with hsame | ⟨rfl, hdirty, hset⟩
    · rw [ih (by rw [hsame]; exact hd) (by rw [hsame]; exact hlen) (by rw [hsame]; exact hpos) hrest, hsame,
        List.mem_cons]
      constructor
      · rintro (hn | ⟨hdirty, hmem⟩)
        · exact .inl hn
        · exact .inr ⟨hdirty, .inr hmem⟩
      · rintro (hn | ⟨hdirty, rfl | hmem⟩)
        · exact .inl hn
        · -- a commit of a dirty shadow that changed no flag: the update was pending already
          left
          have hcommit : s.commit.2.eeprom = s.eeprom := hsame
          have hnull : ¬ s.eeprom.data = none := by
            rw [hd]
            simp
          unfold commit at hcommit
          rw [if_neg hpos, if_neg (by rw [hdirty]; decide), if_neg hnull] at hcommit
          exact (congrArg EEPROMClass.needUpdate hcommit).symm
        · exact .inr ⟨hdirty, hmem⟩
    · rw [ih (by rw [hset]; exact hd) (by rw [hset]; exact hlen) (by rw [hset]; exact hpos) hrest, hset]
      exact iff_of_true (.inl rfl) (.inr ⟨hdirty, List.mem_cons_self⟩)

end Steps

/-- **When saves that change nothing leave the flash alone.** After an `update` in any run from
`begin(8192)` on, quiet calls leave no update pending exactly if the shadow was not dirty at the update or
there is no `commit` among them; and with no update pending `beforeEachCycle` does nothing. -/
theorem quiet_update_iff (sector : ℕ) (flash : Nor.Mem) (calls later : List EepromCall) {s : Storage}
    (hs : s = Run.after Storage.call (afterBegin sector flash) calls) (hwhole : s.Fits .update)
    (hquiet : Run.Along Storage.call Quiet s.update later) :
    ((Run.after Storage.call s.update later).eeprom.needUpdate = false ↔
      (s.eeprom.dirty = false ∨ .commit ∉ later)) ∧
    ((Run.after Storage.call s.update later).eeprom.needUpdate = false →
      (Run.after Storage.call s.update later).upgrade.needUpdate = false →
      ∀ now hasTimeExpired, (Run.after Storage.call s.update later).beforeEachCycle now hasTimeExpired =
        Run.after Storage.call s.update later) := by
  have hsized : Sized s := by
    rw [hs]
    refine Run.invariant ?_ (fun t c h => h.call c) calls
    rw [afterBegin_eq]
    exact ⟨Nat.le_refl _, fun _ => (by decide : (8192 : ℕ) ≠ 0)⟩
  obtain ⟨d, hd, hlen⟩ := hwhole
  have hne : s.eeprom.data ≠ none := by
    rw [hd]
    simp
  have hupdate : s.update.eeprom = { s.eeprom with needUpdate := false } := by rw [update_eq]
  have hdata : s.update.eeprom.data = some d := by
    rw [hupdate]
    exact hd
  have hiff := quiet_run hdata
    (by rw [hupdate]; exact Nat.le_trans hsized.le hlen) (by rw [hupdate]; exact hsized.pos hne) hquiet
  rw [hupdate] at hiff
  refine ⟨?_, fun hneed hidle now hasTimeExpired => ?_⟩
  · rw [← Bool.not_eq_true, hiff]
    simp only [Bool.false_eq_true, false_or, not_and_or, Bool.not_eq_true]
  · unfold beforeEachCycle
    rw [if_pos hidle, if_neg (by rw [hneed]; decide)]

theorem quiet_commit (s : Storage) : s.Quiet .commit := by
  refine ⟨trivial, ?_, trivial⟩
  show s.commit.2.eeprom.data.getD [] = _
  rw [s.eeprom_commit.1]
  rfl

theorem quiet_read (s : Storage) {address : ℤ} (h : address < 2147483648) : s.Quiet (.read address) := by
  refine ⟨h, ?_, trivial⟩
  show (s.read address).2.shadow = _
  unfold read
  split_ifs <;> rfl

theorem quiet_write (s : Storage) {address : ℤ} {value : UInt8}
    (h : (EepromCall.write address value).WellFormed) (hsame : s.shadow.getD address.toNat 0 = value) :
    s.Quiet (.write address value) := by
  refine ⟨h, ?_, trivial⟩
  show (s.write address value).shadow = _
  unfold write
  rw [if_pos hsame]
  split_ifs <;> rfl

theorem quiet_put (s : Storage) {address : ℤ} {t : Bytes} (h : (EepromCall.put address t).WellFormed)
    (hsame : s.bytesAt address.toNat t.length = t) : s.Quiet (.put address t) := by
  refine ⟨h, ?_, trivial⟩
  show (s.put address t).shadow = _
  unfold put
  rw [if_pos hsame]
  split_ifs <;> rfl

/-- A byte is changed and committed. -/
def sampleChange : List EepromCall := [.write 5 1, .commit]

/-- The state in front of the update. -/
def changed : Storage := Run.after Storage.call (afterBegin 0 fun _ => 0xFF) sampleChange

theorem changed_fits : changed.Fits .update := by
  decide +kernel

/-- What is there is read and written again. -/
def sampleSame : List EepromCall := [.read 5, .write 5 1, .put 4 [0xFF, 1, 0xFF]]

theorem quiet_update_iff_same :
    (Run.after Storage.call changed.update sampleSame).eeprom.needUpdate = false ∧
      ∀ now hasTimeExpired,
        (Run.after Storage.call changed.update sampleSame).beforeEachCycle now hasTimeExpired =
          Run.after Storage.call changed.update sampleSame := by
  have hquiet : Run.Along Storage.call Quiet changed.update sampleSame :=
    ⟨quiet_read _ (by decide), quiet_write _ (by decide) (by decide +kernel),
      quiet_put _ (by decide) (by decide +kernel), trivial⟩
  obtain ⟨hiff, hidle⟩ := quiet_update_iff 0 (fun _ => 0xFF) sampleChange sampleSame (s := changed) rfl
    changed_fits hquiet
  have hneed := hiff.mpr (.inr (by simp [sampleSame]))
  exact ⟨hneed, hidle hneed (by decide +kernel)⟩

/-- A `commit` after the update asks for another one, with nothing changed. -/
theorem quiet_update_rewrites : changed.eeprom.needUpdate = true ∧
    Run.Along Storage.call Quiet changed.update [.commit] ∧
      (Run.after Storage.call changed.update [.commit]).eeprom.needUpdate = true := by
  exact ⟨by decide +kernel, ⟨quiet_commit _, trivial⟩, by decide +kernel⟩

end Storage

end NeuronWired
