import NeuronWired.Run.Basic
import Mathlib.Data.List.Count
import Mathlib.Data.Vector.Basic
import Mathlib.Data.Nat.Notation

/-!
# ConsumerControl — the four slots of the media keys (`ConsumerControl.h`, `ConsumerControl.cpp`)

`press` takes the first slot that is free and `release` frees every slot of the usage.  A usage pressed
twice takes two slots, so the slots hold the keys that are down only while a key that goes down finds one.
-/

namespace NeuronWired

/-! ## The report -/

/-- `keys` of `HID_ConsumerControlReport_Data_t`. -/
abbrev ConsumerKeys := Vector UInt16 4

/-- `ConsumerControl_`, without the last report, which is for `sendReport` alone. -/
structure ConsumerControl where
  keys : ConsumerKeys
  deriving DecidableEq, Repr

namespace ConsumerControl

/-- `press`: the first slot with `0x00` in it. -/
def press (c : ConsumerControl) (m : UInt16) : ConsumerControl :=
  match (List.finRange 4).find? fun i => c.keys.get i = 0 with
  | some i => { keys := c.keys.set i m }
  | none => c

/-- `release`: every slot that holds the usage. -/
def release (c : ConsumerControl) (m : UInt16) : ConsumerControl :=
  { keys := c.keys.map fun key => if key = m then 0 else key }

/-- `releaseAll`. -/
def releaseAll (_ : ConsumerControl) : ConsumerControl := { keys := Vector.replicate 4 0 }

end ConsumerControl

/-- A call, with the usage. -/
inductive ConsumerCall where
  | press (m : UInt16)
  | release (m : UInt16)
  | releaseAll
  deriving DecidableEq, Repr

/-- The report, and beside it the presses since the last release of their usage. -/
structure MediaKeys where
  control : ConsumerControl
  pressed : List UInt16
  deriving DecidableEq, Repr

namespace MediaKeys

/-- The object `ConsumerControl` before its first use. -/
def start : MediaKeys := ⟨⟨Vector.replicate 4 0⟩, []⟩

/-- A call. -/
def call (s : MediaKeys) : ConsumerCall → MediaKeys
  | .press m => ⟨s.control.press m, m :: s.pressed⟩
  | .release m => ⟨s.control.release m, s.pressed.filter (· ≠ m)⟩
  | .releaseAll => ⟨s.control.releaseAll, []⟩

end MediaKeys

/-- The usages in the report. -/
def ConsumerControl.used (c : ConsumerControl) : List UInt16 := c.keys.toList.filter (· ≠ 0)

namespace MediaKeys

/-- The non-zero slots hold the usages that are held. -/
def SlotsHold (s : MediaKeys) : Prop := ∀ m, m ∈ s.control.used ↔ m ∈ s.pressed

/-- A usage is not zero. -/
def Usage : ConsumerCall → Prop
  | .press m | .release m => m ≠ 0
  | .releaseAll => True

/-- A usage that is pressed is held already, or finds a slot with zero in it. -/
def FindsSlot (s : MediaKeys) : ConsumerCall → Prop
  | .press m => m ∈ s.pressed ∨ 0 ∈ s.control.keys.toList
  | _ => True

instance (c : ConsumerCall) : Decidable (Usage c) := by
  cases c <;> unfold Usage <;> infer_instance

/-- No more than four distinct usages are held. -/
def FourHeld (s : MediaKeys) : Prop := s.pressed.dedup.length ≤ 4

/-- No more than four presses count. -/
def FourPressed (s : MediaKeys) : Prop := s.pressed.length ≤ 4

instance (s : MediaKeys) : Decidable s.FourHeld := by unfold FourHeld; infer_instance

end MediaKeys

/-! ## The slots -/

namespace ConsumerControl

variable {c : ConsumerControl} {m : UInt16}

/-- A full report stays as it is. -/
theorem press_full (h : 0 ∉ c.keys.toList) : c.press m = c := by
  have hnone : (List.finRange 4).find? (fun i => c.keys.get i = 0) = none := by
    rw [List.find?_eq_none]
    intro i _ hi
    exact h (of_decide_eq_true hi ▸ Vector.mem_toList_iff.mpr (Vector.getElem_mem i.isLt))
  unfold press
  rw [hnone]

/-- The first free slot, when there is one. -/
theorem exists_find (h : 0 ∈ c.keys.toList) :
    ∃ i, (List.finRange 4).find? (fun i => c.keys.get i = 0) = some i ∧ c.keys.get i = 0 := by
  obtain ⟨n, hn, hget⟩ := List.getElem_of_mem h
  have hsome : ((List.finRange 4).find? fun i => c.keys.get i = 0).isSome := by
    refine List.find?_isSome.mpr ⟨⟨n, by simpa using hn⟩, List.mem_finRange _, decide_eq_true ?_⟩
    rwa [Vector.getElem_toList] at hget
  obtain ⟨i, hi⟩ := Option.isSome_iff_exists.mp hsome
  exact ⟨i, hi, of_decide_eq_true (List.find?_some (p := fun i => decide (c.keys.get i = 0)) hi)⟩

/-- A slot that is free is taken. -/
theorem used_press (h : 0 ∈ c.keys.toList) (hm : m ≠ 0) : (c.press m).used.Perm (m :: c.used) := by
  obtain ⟨i, hi, hzero⟩ := exists_find h
  have hlen : i.val < c.keys.toList.length := by rw [Vector.length_toList]; exact i.isLt
  have hkeys : c.keys.toList = c.keys.toList.take i ++ 0 :: c.keys.toList.drop (i + 1) := by
    have hget : c.keys.toList[i.val] = 0 := by rwa [Vector.getElem_toList]
    rw [← hget, List.getElem_cons_drop, List.take_append_drop]
  have hset : (c.press m).keys.toList = c.keys.toList.take i ++ m :: c.keys.toList.drop (i + 1) := by
    unfold press
    rw [hi]
    show (c.keys.set i m).toList = _
    rw [Vector.toList_set, List.set_eq_take_append_cons_drop, if_pos hlen]
  have hused : c.used = (c.keys.toList.take i).filter (· ≠ 0) ++ (c.keys.toList.drop (i + 1)).filter (· ≠ 0) := by
    unfold used
    conv_lhs => rw [hkeys]
    rw [List.filter_append, List.filter_cons_of_neg (by simp)]
  have htaken : (c.press m).used =
      (c.keys.toList.take i).filter (· ≠ 0) ++ m :: (c.keys.toList.drop (i + 1)).filter (· ≠ 0) := by
    unfold used
    rw [hset, List.filter_append, List.filter_cons_of_pos (by simpa using hm)]
  rw [htaken, hused]
  exact List.perm_middle

/-- Zeros in the place of a usage, and then the zeros left out. -/
theorem filter_map_cleared (m : UInt16) (l : List UInt16) :
    (l.map fun key => if key = m then 0 else key).filter (· ≠ 0) = (l.filter (· ≠ 0)).filter (· ≠ m) := by
  induction l with
  | nil => rfl
  | cons key l ih =>
    rw [List.map_cons]
    by_cases hkey : key = m
    · rw [if_pos hkey, List.filter_cons_of_neg (by simp), ih]
      by_cases hzero : key = 0
      · rw [List.filter_cons_of_neg (by simpa using hzero)]
      · rw [List.filter_cons_of_pos (by simpa using hzero), List.filter_cons_of_neg (by simpa using hkey)]
    · rw [if_neg hkey]
      by_cases hzero : key = 0
      · rw [List.filter_cons_of_neg (by simpa using hzero), List.filter_cons_of_neg (by simpa using hzero), ih]
      · rw [List.filter_cons_of_pos (by simpa using hzero), List.filter_cons_of_pos (by simpa using hzero),
          List.filter_cons_of_pos (by simpa using hkey), ih]

theorem used_release (c : ConsumerControl) (m : UInt16) : (c.release m).used = c.used.filter (· ≠ m) := by
  unfold used release
  rw [Vector.toList_map, filter_map_cleared]

theorem used_releaseAll (c : ConsumerControl) : c.releaseAll.used = [] := rfl

theorem length_used_full (h : 0 ∉ c.keys.toList) : c.used.length = 4 := by
  have hall : c.used = c.keys.toList :=
    List.filter_eq_self.mpr fun key hkey => decide_eq_true fun hzero => h (hzero ▸ hkey)
  rw [hall, Vector.length_toList]

end ConsumerControl

/-! ## One call -/

namespace MediaKeys

variable {s : MediaKeys} {c : ConsumerCall}

/-- A call leaves the held usages in the slots exactly when a usage that goes down finds a slot. -/
theorem slotsHold_call (h : s.SlotsHold) (husage : Usage c) : (s.call c).SlotsHold ↔ s.FindsSlot c := by
  cases c with
  | press m =>
    by_cases hfree : 0 ∈ s.control.keys.toList
    · refine iff_of_true (fun k => ?_) (Or.inr hfree)
      show k ∈ (s.control.press m).used ↔ k ∈ m :: s.pressed
      rw [(ConsumerControl.used_press hfree husage).mem_iff, List.mem_cons, List.mem_cons, h k]
    · have hfull : (s.call (.press m)).control = s.control := ConsumerControl.press_full hfree
      constructor
      · intro hnext
        have hm : m ∈ (s.call (.press m)).control.used := (hnext m).mpr List.mem_cons_self
        rw [hfull] at hm
        exact Or.inl ((h m).mp hm)
      · intro hslot k
        have hm : m ∈ s.pressed := hslot.resolve_right hfree
        rw [hfull, h k]
        show _ ↔ k ∈ m :: s.pressed
        rw [List.mem_cons]
        exact ⟨Or.inr, fun hk => hk.elim (fun heq => heq ▸ hm) id⟩
  | release m =>
    refine iff_of_true (fun k => ?_) trivial
    show k ∈ (s.control.release m).used ↔ k ∈ s.pressed.filter (· ≠ m)
    rw [ConsumerControl.used_release, List.mem_filter, List.mem_filter, h k]
  | releaseAll =>
    refine iff_of_true (fun k => ?_) trivial
    show k ∈ s.control.releaseAll.used ↔ k ∈ []
    rw [ConsumerControl.used_releaseAll]

theorem slotsHold_start : start.SlotsHold := fun _ => Iff.rfl

/-- Every slot that is taken stands for a press that counts. -/
def Counted (s : MediaKeys) : Prop := s.control.used.Subperm s.pressed

theorem counted_start : start.Counted := List.Subperm.refl _

theorem counted_call (h : s.Counted) (husage : Usage c) : (s.call c).Counted := by
  cases c with
  | press m =>
    show (s.control.press m).used.Subperm (m :: s.pressed)
    by_cases hfree : 0 ∈ s.control.keys.toList
    · exact (ConsumerControl.used_press hfree husage).subperm.trans (List.subperm_cons m |>.mpr h)
    · rw [ConsumerControl.press_full hfree]
      exact h.trans (List.sublist_cons_self m s.pressed).subperm
  | release m =>
    show (s.control.release m).used.Subperm (s.pressed.filter (· ≠ m))
    rw [ConsumerControl.used_release]
    exact h.filter _
  | releaseAll => exact List.nil_subperm

/-- While four presses count at most, the one that makes the fourth finds a slot. -/
theorem findsSlot_of_fourPressed (h : s.Counted) (hfour : (s.call c).FourPressed) :
    s.FindsSlot c := by
  cases c with
  | press m =>
    refine Or.inr (by_contra fun hfull => ?_)
    have hlen := h.length_le
    rw [ConsumerControl.length_used_full hfull] at hlen
    have hnext : s.pressed.length + 1 ≤ 4 := hfour
    omega
  | release m => trivial
  | releaseAll => trivial

/-! ## Runs -/

/-- **The slots and the held usages.**  They agree after every call of exactly the runs in which a usage that
goes down finds a slot; these are all the runs in which four presses count at most, a usage that is pressed
again counting again. -/
theorem slots_hold_iff {l : List ConsumerCall} (hl : ∀ c ∈ l, Usage c) :
    (Run.Along call (fun s c => (s.call c).SlotsHold) start l ↔ Run.Along call FindsSlot start l) ∧
      (Run.Along call (fun s c => (s.call c).FourPressed) start l →
        Run.Along call (fun s c => (s.call c).SlotsHold) start l) := by
  have husage : Run.Along call (fun _ c => Usage c) start l := Run.along_of_mem hl
  have hiff : Run.Along call (fun s c => (s.call c).SlotsHold) start l ↔ Run.Along call FindsSlot start l :=
    husage.iff slotsHold_start (fun s c h hu hslot => (slotsHold_call h hu).mpr hslot)
      fun s c h hu => slotsHold_call h hu
  refine ⟨hiff, fun hfour => hiff.mpr ((husage.and hfour).mono_invariant counted_start ?_ ?_)⟩
  · exact fun s c h hok => counted_call h hok.1
  · exact fun s c h hok => findsSlot_of_fourPressed h hok.2

/-- Two keys for the volume, pressed one after the other, and one of them released. -/
theorem slots_hold_iff_volume :
    (Run.Along call (fun s c => (s.call c).SlotsHold) start [.press 0xE9, .press 0xEA, .release 0xE9] ↔
        Run.Along call FindsSlot start [.press 0xE9, .press 0xEA, .release 0xE9]) ∧
      (Run.Along call (fun s c => (s.call c).FourPressed) start [.press 0xE9, .press 0xEA, .release 0xE9] →
        Run.Along call (fun s c => (s.call c).SlotsHold) start [.press 0xE9, .press 0xEA, .release 0xE9]) :=
  slots_hold_iff (by decide)

/-- One usage on four keys fills the slots, and a second usage finds none: two are held. -/
theorem repeated_press_fills :
    ∃ l, (∀ c ∈ l, Usage c) ∧ Run.Along call (fun s c => (s.call c).FourHeld) start l ∧
      ¬ Run.Along call (fun s c => (s.call c).SlotsHold) start l := by
  refine ⟨[.press 0xE9, .press 0xE9, .press 0xE9, .press 0xE9, .press 0xEA], by decide, by decide, ?_⟩
  rintro ⟨-, -, -, -, hlast, -⟩
  exact absurd ((hlast 0xEA).mpr (by decide)) (by decide)

end MediaKeys

end NeuronWired
