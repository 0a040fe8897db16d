import NeuronWired.EepromDurability
import NeuronWired.Flash.Power

/-!
# EepromCrash — a power cut (`EEPROM.cpp`, `EEPROMUpgrade.cpp`)

`update` erases the image in two blocks before it programs it page by page, and nothing tells a later `begin`
how far it came.  A cut leaves the image of before, the new one, or a moment in between.
-/

namespace NeuronWired

namespace Storage

/-- The flash operations of `update`: two blocks in `erase`, and 32 pages. -/
def updateOps (s : Storage) : List Nor.Op :=
  Nor.rewriteOps s.eeprom.sector 2 (8192 / 2) (8192 / 256) 256 fun i => s.bytesAt (i * 256) 256

/-- What the flash may hold when the power has failed: between two calls, what it held; while
`beforeEachCycle` updates it, what a cut leaves of the operations. -/
inductive LosesPower (s : Storage) : Nor.Mem → Prop
  | between : LosesPower s s.flash
  | during {m : Nor.Mem} (hdue : s.upgrade.needUpdate = true) (h : Nor.CutDuring s.updateOps s.flash m) :
      LosesPower s m

/-- What a cut makes of the image `old` that is being replaced by `new`. -/
inductive AfterCut (old new image : ℕ → UInt8) : Prop
  | kept (h : ∀ a < 8192, image a = old a)
  | written (h : ∀ a < 8192, image a = new a)
  | erasing (j : ℕ) (hj : j < 2)
      (h : ∀ a < 8192, a / 4096 ≠ j → image a = if a / 4096 < j then 0xFF else old a)
  | programming (i : ℕ) (hi : i < 32)
      (h : ∀ a < 8192, a / 256 ≠ i → image a = if a / 256 < i then new a else 0xFF)

/-- An update is only due when one has been asked for. -/
def Asked (s : Storage) : Prop := s.upgrade.needUpdate = true → s.eeprom.needUpdate = true

section Cut

variable {s : Storage} {sector : ℕ} {m : Nor.Mem}

/-- They are what `update` does to the flash. -/
theorem run_updateOps (s : Storage) : Nor.run s.flash s.updateOps = s.update.flash := by
  unfold updateOps
  rw [Nor.run_rewriteOps, update_eq]
  rfl

theorem asked_call (h : Live sector s) (ha : Asked s) {c : EepromCall} (hc : s.Deferred c) : Asked (s.call c) := by
  by_cases hcommit : c = .commit
  · rw [hcommit]
    show Asked s.commit.2
    rw [h.commit]
    intro hu
    by_cases hdirty : s.eeprom.dirty = true
    · rw [if_pos hdirty]
      rfl
    · rw [if_neg hdirty] at hu ⊢
      exact ha hu
  by_cases hcycle : ∃ now expired, c = .beforeEachCycle now expired
  · obtain ⟨now, expired, rfl⟩ := hcycle
    show Asked (s.beforeEachCycle now expired)
    unfold beforeEachCycle
    split_ifs with hnone hask hdue
    · exact fun _ => hask
    · exact ha
    · exact fun hu => Bool.noConfusion hu
    · exact ha
  · have he := h.edit hc hcommit fun now expired heq => hcycle ⟨now, expired, heq⟩
    intro hu
    rw [he.needUpdate]
    rw [he.upgrade] at hu
    exact ha hu

theorem asked_run (h₀ : Live sector s) (ha : Asked s) (calls : List EepromCall)
    (hcalls : Run.Along Storage.call Deferred s calls) : Asked (Run.after Storage.call s calls) := by
  induction calls generalizing s with
  | nil => exact ha
  | cons c calls ih => exact ih (h₀.call hcalls.1) (asked_call h₀ ha hcalls.1) hcalls.2

/-- Behind and in front of the image, with the first `k` pages written. -/
theorem pages_outside {data : Bytes} {k b : ℕ} (hk : k ≤ 32) (hb : b < sector ∨ sector + 8192 ≤ b) :
    Nor.programPages (Nor.pageOf data 256) 256 sector k (Nor.erase m sector (2 * 4096)) b = m b := by
  rw [Nor.programPages_outside (Nor.length_pageOf data 256) k (by omega)]
  exact if_neg (by omega)

/-- Inside the image. -/
theorem pages_inside {data : Bytes} {k a : ℕ} (ha : a < 8192) (hk : k ≤ 32) :
    Nor.programPages (Nor.pageOf data 256) 256 sector k (Nor.erase m sector (2 * 4096)) (sector + a) =
      if a / 256 < k then data.getD a 0 else 0xFF := by
  have hend : sector + k * 256 ≤ sector + 2 * 4096 := by omega
  have herased : ∀ b, sector ≤ b → b < sector + k * 256 → Nor.erase m sector (2 * 4096) b = 0xFF :=
    fun b hb hb' => Nor.erase_inside ⟨hb, Nat.lt_of_lt_of_le hb' hend⟩
  by_cases hpage : a / 256 < k
  · have hjoin : a / 256 * 256 + a % 256 = a := by omega
    have hrange : sector ≤ sector + a ∧ sector + a < sector + k * 256 := by omega
    rw [if_pos hpage, Nor.programPages_erased (Nor.length_pageOf data 256) (by omega) k herased hrange,
      Nat.add_sub_cancel_left, Nor.getD_pageOf data _ (Nat.mod_lt a (by omega)), hjoin]
  · rw [if_neg hpage, Nor.programPages_outside (Nor.length_pageOf data 256) k (by omega)]
    exact Nor.erase_inside ⟨Nat.le_add_right _ _, Nat.add_lt_add_left ha sector⟩

/-- What the next `begin` reads after a cut. -/
theorem afterCut (h : Live sector s) (hm : s.LosesPower m) :
    (∀ b, b < sector ∨ sector + 8192 ≤ b → m b = s.flash b) ∧
      AfterCut (fun a => s.flash (sector + a)) (fun a => s.shadow.getD a 0) fun a => m (sector + a) := by
  cases hm with
  | between => exact ⟨fun _ _ => rfl, .kept fun _ _ => rfl⟩
  | during hdue hcut =>
    have hlen := Nor.length_pageOf s.shadow 256
    have hcases : Nor.CutDuring (Nor.rewriteOps sector 2 4096 32 256 (Nor.pageOf s.shadow 256)) s.flash m := by
      rw [← h.sector_eq]
      exact hcut
    rcases hcases.cases hlen with hdone | ⟨j, hj, hblock⟩ | ⟨i, hi, hprogram⟩
    · -- nothing is missing of `update`
      have hflash : m = s.update.flash := by
        rw [← run_updateOps, hdone, ← h.sector_eq]
        rfl
      have hstores := stores_update h.length_shadow
      rw [← hflash, h.sector_eq] at hstores
      refine ⟨fun b hb => ?_, .written fun a ha => hstores a (by rw [h.length_shadow]; exact ha)⟩
      rw [hflash, update_eq, h.sector_eq]
      exact pages_outside (by decide) hb
    · refine ⟨fun b hb => ?_, .erasing j hj fun a ha hne => ?_⟩
      · rw [hblock b (by omega)]
        exact if_neg (by omega)
      · rw [hblock (sector + a) (by omega)]
        exact if_congr (by omega) rfl rfl
    · refine ⟨fun b hb => ?_, .programming i hi fun a ha hne => ?_⟩
      · rw [hprogram b (by omega), pages_outside (by omega) hb]
      · rw [hprogram (sector + a) (by omega), pages_inside ha (by omega)]

end Cut

/-- **A power cut**: at whatever point of a run without further calls of `begin`, `end` or `update` the power
fails, the next `begin` reads the image that was in the flash, or the shadow that is being written, or an image of
which one block or one page is lost, with the blocks in front erased and the others as they were, or the pages in
front written and the others erased; nothing outside the image changes, and nothing inside it unless a `commit`
has asked for an update. -/
theorem power_cut (sector : ℕ) (flash : Nor.Mem) (calls : List EepromCall)
    (hcalls : Run.Along Storage.call Deferred (afterBegin sector flash) calls) {s : Storage}
    (hs : s = Run.after Storage.call (afterBegin sector flash) calls) {m : Nor.Mem} (hm : s.LosesPower m) :
    (s.eeprom.needUpdate = false → m = s.flash ∧ FlashIsCommitted (afterBegin sector flash) calls) ∧
      (∀ b, b < sector ∨ sector + 8192 ≤ b → m b = s.flash b) ∧
      AfterCut (fun a => s.flash (sector + a)) (fun a => s.shadow.getD a 0)
        fun a : ℕ => ((afterBegin sector m).read a).1 := by
  have hclean : (afterBegin sector flash).eeprom.dirty = false := by rw [afterBegin_eq]
  have hnew : Asked (afterBegin sector flash) := by
    rw [afterBegin_eq]
    exact fun hu => Bool.noConfusion hu
  obtain ⟨hlive, hcommitted⟩ := committed_run (live_afterBegin sector flash) hclean calls hcalls
  have hasked := asked_run (live_afterBegin sector flash) hnew calls hcalls
  rw [← hs] at hlive hcommitted hasked
  obtain ⟨hout, himage⟩ := afterCut hlive hm
  refine ⟨fun hneed => ⟨?_, hcommitted hneed⟩, hout, ?_⟩
  · cases hm with
    | between => rfl
    | during hdue _ => exact Bool.noConfusion ((hasked hdue).symm.trans hneed)
  · have hread : ∀ a : ℕ, a < 8192 → ((afterBegin sector m).read a).1 = m (sector + a) :=
      fun a ha => read_begin (noArray sector m) ha
    cases himage with
    | kept h => exact .kept fun a ha => (hread a ha).trans (h a ha)
    | written h => exact .written fun a ha => (hread a ha).trans (h a ha)
    | erasing j hj h => exact .erasing j hj fun a ha hne => (hread a ha).trans (h a ha hne)
    | programming i hi h => exact .programming i hi fun a ha hne => (hread a ha).trans (h a ha hne)

/-- A byte is written and committed, and the update is due. -/
def sampleDue : List EepromCall := [.write 5 1, .commit, .beforeEachCycle 0 fun _ _ => false]

/-- The power fails when both blocks are erased: the committed byte is lost, and what was there before. -/
theorem power_cut_due : ∃ s m, s = Run.after Storage.call (afterBegin 0 fun _ => 7) sampleDue ∧
    s.LosesPower m ∧ s.shadow.getD 5 0 = 1 ∧ ((afterBegin 0 m).read 5).1 = 0xFF ∧
    AfterCut (fun a => s.flash (0 + a)) (fun a => s.shadow.getD a 0) fun a : ℕ => ((afterBegin 0 m).read a).1 := by
  generalize hs : Run.after Storage.call (afterBegin 0 fun _ => 7) sampleDue = s
  have hdue : s.upgrade.needUpdate = true := by
    rw [← hs]
    decide +kernel
  have hlost : s.LosesPower (Nor.run s.flash (s.updateOps.take 2)) :=
    .during hdue (.inr ⟨2, _, rfl, fun _ _ => rfl⟩)
  refine ⟨s, _, rfl, hlost, ?_, ?_, (power_cut 0 (fun _ => 7) sampleDue ⟨trivial, trivial, trivial, trivial⟩ hs.symm
    hlost).2.2⟩
  · rw [← hs]
    decide +kernel
  · rw [← hs]
    decide +kernel

end Storage

end NeuronWired
