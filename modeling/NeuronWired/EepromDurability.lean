import NeuronWired.EepromUpdate
import Mathlib.Data.List.Induction

/-!
# EepromDurability — what is committed reaches the flash

From `begin(8192)` on the shadow has 8192 bytes; `_dirty` is set from the first change on, so that every
later `commit` asks for an update, and a shadow that is not dirty is the flash image.
-/

namespace NeuronWired

namespace Storage

/-- The calls of a run after `begin(8192)`: no other `begin`, no `end`, no `update` but the ones `beforeEachCycle`
makes; a store goes through a pointer that was handed out. -/
def Deferred (s : Storage) : EepromCall → Prop
  | .begin _ | .finish | .update => False
  | .store _ _ => s.handedOut = true
  | _ => True

/-- What holds at every point of such a run. -/
structure Live (sector : ℕ) (s : Storage) : Prop where
  data : ∃ d, s.eeprom.data = some d ∧ d.length = 8192
  size : s.eeprom.size = 8192
  sector_eq : s.eeprom.sector = sector
  pointer : s.handedOut = true → s.eeprom.dirty = true
  clean : s.eeprom.dirty = false → s.eeprom.needUpdate = false ∧ Nor.Stores s.flash sector s.shadow

section Edit

variable {s s' : Storage} {sector : ℕ}

theorem Live.length_shadow (h : Live sector s) : s.shadow.length = 8192 := by
  obtain ⟨d, hd, hlen⟩ := h.data
  unfold shadow
  rw [hd]
  exact hlen

/-- Every call except `commit` and `beforeEachCycle` edits the shadow. -/
theorem Live.edit (h : Live sector s) {c : EepromCall} (hc : s.Deferred c) (hcommit : c ≠ .commit)
    (hcycle : ∀ now expired, c ≠ .beforeEachCycle now expired) : Edit s (s.call c) := by
  cases c with
  | begin => exact hc.elim
  | finish => exact hc.elim
  | update => exact hc.elim
  | commit => exact absurd rfl hcommit
  | beforeEachCycle now expired => exact absurd rfl (hcycle now expired)
  | read address => exact edit_read s address
  | get address len => exact edit_get s address len
  | write address value => exact edit_write s address value
  | put address t => exact edit_put s address t
  | getDataPtr => exact ⟨rfl, rfl, rfl, rfl, rfl, rfl, .inl rfl⟩
  | store off value => exact ⟨rfl, rfl, rfl, rfl, rfl, length_copyIn s off [value], .inl (h.pointer hc)⟩
  | storeIndex address value => exact ⟨rfl, rfl, rfl, rfl, rfl, length_copyIn s address [value], .inl rfl⟩

theorem Live.of_edit (h : Live sector s) (he : Edit s s') : Live sector s' := by
  obtain ⟨hflash, -, hneed, hsize, hsector, hdata, hdirty⟩ := he
  obtain ⟨d, hd, hlen⟩ := h.data
  refine ⟨?_, hsize.trans h.size, hsector.trans h.sector_eq, fun hp => ?_, fun hc => ?_⟩
  · rw [hd] at hdata
    obtain ⟨d', hd', hlen'⟩ := Option.map_eq_some_iff.mp hdata
    exact ⟨d', hd', hlen'.trans hlen⟩
  · rcases hdirty with hset | ⟨hsame, -, hout⟩
    · exact hset
    · rw [hsame]
      exact h.pointer (hout ▸ hp)
  · rcases hdirty with hset | ⟨hsame, hdata', -⟩
    · rw [hset] at hc
      cases hc
    · obtain ⟨hn, hstores⟩ := h.clean (hsame ▸ hc)
      refine ⟨hneed.trans hn, ?_⟩
      unfold shadow
      rw [hflash, hdata']
      exact hstores

/-- `commit` succeeds, and asks for an update if the shadow is dirty. -/
theorem Live.commit (h : Live sector s) : s.commit =
    (true, if s.eeprom.dirty = true then s.mapEeprom fun e => { e with needUpdate := true } else s) := by
  obtain ⟨d, hd, -⟩ := h.data
  have hsize : ¬ s.eeprom.size = 0 := by
    rw [h.size]
    decide
  have hnull : ¬ s.eeprom.data = none := by
    rw [hd]
    simp
  unfold Storage.commit
  rw [if_neg hsize]
  cases hdirty : s.eeprom.dirty with
  | false => rw [if_pos rfl, if_neg Bool.false_ne_true]
  | true => rw [if_neg (Ne.symm Bool.false_ne_true), if_neg hnull, if_pos rfl]

theorem Live.of_commit (h : Live sector s) : Live sector s.commit.2 := by
  rw [h.commit]
  by_cases hdirty : s.eeprom.dirty = true
  · rw [if_pos hdirty]
    refine ⟨h.data, h.size, h.sector_eq, h.pointer, fun hc => ?_⟩
    exact absurd (hdirty.symm.trans hc) (by decide)
  · rw [if_neg hdirty]
    exact h

/-- An update leaves the shadow in the flash. -/
theorem Live.of_update (h : Live sector s) :
    Live sector s.update ∧ Nor.Stores s.update.flash sector s.update.shadow := by
  have hstores : Nor.Stores s.update.flash sector s.update.shadow := by
    have hshadow : s.update.shadow = s.shadow := by rw [update_eq]; rfl
    rw [hshadow, ← h.sector_eq]
    exact stores_update h.length_shadow
  refine ⟨⟨?_, ?_, ?_, ?_, fun _ => ⟨?_, hstores⟩⟩, hstores⟩ <;> rw [update_eq]
  · exact h.data
  · exact h.size
  · exact h.sector_eq
  · exact h.pointer

/-- `beforeEachCycle` only changes `need_update_` and `start_time_`, or it updates the flash. -/
theorem beforeEachCycle_cases (s : Storage) (now : ℕ) (expired : ℕ → ℕ → Bool) :
    ∃ u, s.beforeEachCycle now expired = { s with upgrade := u } ∨
      s.beforeEachCycle now expired = { s.update with upgrade := u } := by
  unfold beforeEachCycle
  split_ifs
  · exact ⟨_, .inl rfl⟩
  · exact ⟨s.upgrade, .inl rfl⟩
  · exact ⟨_, .inr rfl⟩
  · exact ⟨s.upgrade, .inl rfl⟩

theorem Live.congr (h : Live sector s) (he : s'.eeprom = s.eeprom) (hf : s'.flash = s.flash)
    (ho : s'.handedOut = s.handedOut) : Live sector s' := by
  obtain ⟨h1, h2, h3, h4, h5⟩ := h
  unfold shadow at h5
  refine ⟨by rw [he]; exact h1, by rw [he]; exact h2, by rw [he]; exact h3, by rw [he, ho]; exact h4, ?_⟩
  unfold shadow
  rw [he, hf]
  exact h5

theorem Live.call (h : Live sector s) {c : EepromCall} (hc : s.Deferred c) : Live sector (s.call c) := by
  by_cases hcommit : c = .commit
  · rw [hcommit]
    exact h.of_commit
  by_cases hcycle : ∃ now expired, c = .beforeEachCycle now expired
  · obtain ⟨now, expired, rfl⟩ := hcycle
    obtain ⟨u, heq | heq⟩ := beforeEachCycle_cases s now expired
    · show Live sector (s.beforeEachCycle now expired)
      exact h.congr (by rw [heq]) (by rw [heq]) (by rw [heq])
    · show Live sector (s.beforeEachCycle now expired)
      exact h.of_update.1.congr (by rw [heq]) (by rw [heq]) (by rw [heq])
  · exact h.of_edit (h.edit hc hcommit fun now expired heq => hcycle ⟨now, expired, heq⟩)

end Edit

/-! ## The moment the flash image was taken -/

/-- The state after `begin(8192)`. -/
def afterBegin (sector : ℕ) (flash : Nor.Mem) : Storage := (newStorage sector flash).begin 8192

theorem noArray (sector : ℕ) (flash : Nor.Mem) :
    ∀ d, (newStorage sector flash).eeprom.data = some d → d.length = 8192 := by
  intro d hd
  cases hd

theorem afterBegin_eq (sector : ℕ) (flash : Nor.Mem) : afterBegin sector flash =
    { newStorage sector flash with
      eeprom := { (newStorage sector flash).eeprom with
        data := some ((newStorage sector flash).sectorBytes 8192), size := 8192, dirty := false }
      touched := [⟨some 8192, 0, 8192⟩] } := begin_whole (noArray sector flash)

theorem live_afterBegin (sector : ℕ) (flash : Nor.Mem) : Live sector (afterBegin sector flash) := by
  have hlen := (newStorage sector flash).length_sectorBytes 8192
  have hget : ∀ a < 8192, flash (sector + a) = ((newStorage sector flash).sectorBytes 8192).getD a 0 :=
    fun a ha => (getD_sectorBytes (s := newStorage sector flash) ha).symm
  rw [afterBegin_eq]
  generalize (newStorage sector flash).sectorBytes 8192 = image at hlen hget ⊢
  refine ⟨⟨image, rfl, hlen⟩, rfl, rfl, nofun, fun _ => ⟨rfl, fun a ha => hget a ?_⟩⟩
  rw [← hlen]
  exact ha

/-- The call is a `commit` that returns true. -/
def CommitReturnsTrue (s : Storage) (c : EepromCall) : Prop := c = .commit ∧ s.commit.1 = true

/-- The flash holds what the shadow held at a moment of the run after which no `commit` returned true. -/
def FlashIsCommitted (s₀ : Storage) (calls : List EepromCall) : Prop :=
  ∃ before rest, calls = before ++ rest ∧
    Run.Along Storage.call (fun s c => ¬ s.CommitReturnsTrue c) (Run.after Storage.call s₀ before) rest ∧
    (Run.after Storage.call s₀ before).shadow.length = 8192 ∧
    Nor.Stores (Run.after Storage.call s₀ calls).flash (Run.after Storage.call s₀ calls).eeprom.sector
      (Run.after Storage.call s₀ before).shadow

section Moment

variable {s₀ : Storage} {sector : ℕ} {calls : List EepromCall}

/-- The flash image is the shadow of now. -/
theorem flashIsCommitted_now (h : Live sector (Run.after Storage.call s₀ calls))
    (hstores : Nor.Stores (Run.after Storage.call s₀ calls).flash sector
      (Run.after Storage.call s₀ calls).shadow) : FlashIsCommitted s₀ calls := by
  refine ⟨calls, [], (List.append_nil _).symm, trivial, h.length_shadow, ?_⟩
  rw [h.sector_eq]
  exact hstores

/-- Another call that is no successful `commit` and leaves the flash alone. -/
theorem FlashIsCommitted.snoc (h : FlashIsCommitted s₀ calls) {c : EepromCall}
    (hc : ¬ (Run.after Storage.call s₀ calls).CommitReturnsTrue c)
    (hflash : ((Run.after Storage.call s₀ calls).call c).flash = (Run.after Storage.call s₀ calls).flash)
    (hsector : ((Run.after Storage.call s₀ calls).call c).eeprom.sector =
      (Run.after Storage.call s₀ calls).eeprom.sector) : FlashIsCommitted s₀ (calls ++ [c]) := by
  obtain ⟨before, rest, rfl, halong, hlen, hstores⟩ := h
  rw [Run.after_append] at hc hflash hsector hstores
  refine ⟨before, rest ++ [c], by rw [List.append_assoc], ?_, hlen, ?_⟩
  · exact Run.along_append.mpr ⟨halong, hc, trivial⟩
  · rw [Run.after_append, Run.after_append, Run.after_cons, Run.after_nil, hflash, hsector]
    exact hstores

/-- One more call of a run, for every kind of call. -/
theorem committed_step (h : Live sector (Run.after Storage.call s₀ calls))
    (hcommitted : (Run.after Storage.call s₀ calls).eeprom.needUpdate = false → FlashIsCommitted s₀ calls)
    {c : EepromCall} (hc : (Run.after Storage.call s₀ calls).Deferred c)
    (hneed : (Run.after Storage.call s₀ (calls ++ [c])).eeprom.needUpdate = false) :
    FlashIsCommitted s₀ (calls ++ [c]) := by
  have hlast : Run.after Storage.call s₀ (calls ++ [c]) = (Run.after Storage.call s₀ calls).call c := by
    rw [Run.after_append]
    rfl
  have hlive : Live sector (Run.after Storage.call s₀ (calls ++ [c])) := hlast ▸ h.call hc
  rw [hlast] at hneed
  by_cases hcommit : c = .commit
  · -- a successful commit that asks for nothing: the shadow is clean
    subst hcommit
    have hnext : (Run.after Storage.call s₀ calls).call .commit = (Run.after Storage.call s₀ calls).commit.2 := rfl
    rw [hnext, h.commit] at hneed
    have hdirty : ¬ (Run.after Storage.call s₀ calls).eeprom.dirty = true := by
      intro hd
      rw [if_pos hd] at hneed
      cases hneed
    have hclean := (h.clean (by simpa using hdirty)).2
    refine flashIsCommitted_now hlive ?_
    rw [hlast, hnext, h.commit, if_neg hdirty]
    exact hclean
  have hnot : ¬ (Run.after Storage.call s₀ calls).CommitReturnsTrue c := fun hret => hcommit hret.1
  by_cases hcycle : ∃ now expired, c = .beforeEachCycle now expired
  · obtain ⟨now, expired, rfl⟩ := hcycle
    have hcall : (Run.after Storage.call s₀ calls).call (.beforeEachCycle now expired) =
      (Run.after Storage.call s₀ calls).beforeEachCycle now expired := rfl
    obtain ⟨u, heq | heq⟩ := beforeEachCycle_cases (Run.after Storage.call s₀ calls) now expired
    · rw [hcall, heq] at hneed
      exact (hcommitted hneed).snoc hnot (by rw [hcall, heq]) (by rw [hcall, heq])
    · refine flashIsCommitted_now hlive ?_
      rw [hlast, hcall, heq]
      exact h.of_update.2
  · have hedit := h.edit hc hcommit fun now expired heq => hcycle ⟨now, expired, heq⟩
    exact (hcommitted (hedit.needUpdate ▸ hneed)).snoc hnot hedit.flash hedit.sector

/-- The run lemma: `Live` everywhere, and a flash image that is as recent as the last commit. -/
theorem committed_run (h₀ : Live sector s₀) (hclean : s₀.eeprom.dirty = false)
    (calls : List EepromCall) (hcalls : Run.Along Storage.call Deferred s₀ calls) :
    Live sector (Run.after Storage.call s₀ calls) ∧
      ((Run.after Storage.call s₀ calls).eeprom.needUpdate = false → FlashIsCommitted s₀ calls) := by
  induction calls using List.reverseRecOn with
  | nil =>
    exact ⟨h₀, fun _ => flashIsCommitted_now h₀ (h₀.clean hclean).2⟩
  | append_singleton calls c ih =>
    obtain ⟨hbefore, hc, -⟩ := Run.along_append.mp hcalls
    obtain ⟨hlive, hcommitted⟩ := ih hbefore
    refine ⟨?_, committed_step hlive hcommitted hc⟩
    rw [Run.after_append]
    exact hlive.call hc

/-- A byte that was committed and not changed since is in the flash. -/
theorem FlashIsCommitted.byte (h : FlashIsCommitted s₀ calls)
    {before rest : List EepromCall} (hcalls : calls = before ++ .commit :: rest)
    (htrue : (Run.after Storage.call s₀ before).commit.1 = true) {a : ℕ} (ha : a < 8192) {v : UInt8}
    (hkept : ∀ p q, rest = p ++ q →
      (Run.after Storage.call s₀ (before ++ .commit :: p)).shadow.getD a 0 = v) :
    (Run.after Storage.call s₀ calls).flash ((Run.after Storage.call s₀ calls).eeprom.sector + a) = v := by
  obtain ⟨moment, later, heq, halong, hlen, hstores⟩ := h
  have hsplit : moment ++ later = before ++ .commit :: rest := heq.symm.trans hcalls
  have hvalue := hstores a (hlen ▸ ha)
  rcases List.append_eq_append_iff.mp hsplit with ⟨mid, hmid, hlater⟩ | ⟨mid, hmid, hrest⟩
  · -- the image would be older than the commit
    rw [hlater, Run.along_append, ← Run.after_append, ← hmid] at halong
    exact absurd ⟨rfl, htrue⟩ halong.2.1
  · cases mid with
    | nil =>
      rw [List.append_nil] at hmid
      rw [List.nil_append] at hrest
      rw [hmid, ← hrest] at halong
      exact absurd ⟨rfl, htrue⟩ halong.1
    | cons c p =>
      obtain ⟨rfl, hp⟩ := List.cons.inj hrest
      rw [hvalue, hmid]
      exact hkept p later hp

end Moment

/-- A byte is written, committed and written back in the second cycle after that. -/
def sampleSave : List EepromCall :=
  [.write 5 1, .commit, .beforeEachCycle 0 (fun _ _ => false), .beforeEachCycle 600 fun _ _ => true]

end Storage

end NeuronWired
