import NeuronWired.Keyboard
import Mathlib.Data.List.Chain

/-!
# KeyboardOrder — the order of the reports of one `sendReport`

Released keys first, then the modifiers, then pressed keys: the host can process the changes of one report
in no other order.
-/

namespace NeuronWired

/-! ## What is claimed -/

namespace KeyboardReport

/-- The bit of a key. -/
def keyBit (r : KeyboardReport) (i : Fin keyBytes) (j : ℕ) : Bool :=
  (r.keys.get i).toBitVec.getLsbD j

/-- Only the modifier byte is another. -/
def ModifiersChange (r r' : KeyboardReport) : Prop := r.modifiers ≠ r'.modifiers ∧ r.keys = r'.keys

/-- Only the key bitmap is another. -/
def KeysChange (r r' : KeyboardReport) : Prop := r.modifiers = r'.modifiers ∧ r.keys ≠ r'.keys

/-- No key bit is set. -/
def NoneSet (r r' : KeyboardReport) : Prop := ∀ i j, r'.keyBit i j = true → r.keyBit i j = true

/-- No key bit is cleared. -/
def NoneCleared (r r' : KeyboardReport) : Prop := ∀ i j, r.keyBit i j = true → r'.keyBit i j = true

end KeyboardReport

/-- How often neighbours in a list differ. -/
def changes {α : Type} [DecidableEq α] : List α → ℕ
  | a :: b :: l => (if a = b then 0 else 1) + changes (b :: l)
  | _ => 0

open KeyboardReport

/-- The reports `sent` lead from `old` to `new` in a safe order. -/
structure SafePath (old new : KeyboardReport) (sent : List KeyboardReport) : Prop where
  length_le : sent.length ≤ 3
  single : (old :: sent).IsChain fun r r' => ModifiersChange r r' ∨ KeysChange r r'
  last : (old :: sent).getLast (List.cons_ne_nil _ _) = new
  around : old.modifiers ≠ new.modifiers → ∃ before after, old :: sent = before ++ after ∧
    (∀ r ∈ before, r.modifiers = old.modifiers) ∧ (∀ r ∈ after, r.modifiers = new.modifiers) ∧
    before ≠ [] ∧ after ≠ [] ∧ before.IsChain NoneSet ∧ after.IsChain NoneCleared
  keyOnce : ∀ i j, changes ((old :: sent).map fun r => r.keyBit i j) ≤ 1
  modifiersOnce : changes ((old :: sent).map KeyboardReport.modifiers) ≤ 1
  silent : sent = [] ↔ old = new

/-! ## The loop -/

section Loop

variable {report last : Vector UInt8 keyBytes}

theorem UInt8.ext_bits {a b : UInt8} (h : ∀ j < 8, a.toBitVec.getLsbD j = b.toBitVec.getLsbD j) :
    a = b := UInt8.toBitVec_inj.mp (BitVec.eq_of_getLsbD_eq fun j hj => h j hj)

theorem and_not_and_not (a b : UInt8) : a &&& ~~~(a &&& ~~~b) = a &&& b := by
  refine UInt8.ext_bits fun j hj => ?_
  simp only [UInt8.toBitVec_and, UInt8.toBitVec_not, BitVec.getLsbD_and, BitVec.getLsbD_not, hj,
    decide_true, Bool.true_and]
  cases a.toBitVec.getLsbD j <;> cases b.toBitVec.getLsbD j <;> rfl

/-- Nothing is released from a byte exactly when all its keys stay pressed. -/
theorem and_not_eq_zero (a b : UInt8) : a &&& ~~~b = 0 ↔ a &&& b = a := by
  have hbits : ∀ j < 8, (a &&& ~~~b).toBitVec.getLsbD j =
      (a.toBitVec.getLsbD j && !b.toBitVec.getLsbD j) := by
    intro j hj
    simp only [UInt8.toBitVec_and, UInt8.toBitVec_not, BitVec.getLsbD_and, BitVec.getLsbD_not, hj,
      decide_true, Bool.true_and]
  constructor
  · intro h
    refine UInt8.ext_bits fun j hj => ?_
    have hbit := hbits j hj
    rw [h] at hbit
    simp only [UInt8.toBitVec_and, BitVec.getLsbD_and]
    cases ha : a.toBitVec.getLsbD j <;> cases hb : b.toBitVec.getLsbD j <;> simp_all
  · intro h
    refine UInt8.ext_bits fun j hj => ?_
    rw [hbits j hj]
    have hbit := congrArg (fun x : UInt8 => x.toBitVec.getLsbD j) h
    simp only [UInt8.toBitVec_and, BitVec.getLsbD_and] at hbit
    cases ha : a.toBitVec.getLsbD j <;> cases hb : b.toBitVec.getLsbD j <;> simp_all

theorem getElem_releasedByte (s : Vector UInt8 keyBytes × Bool) (i j : Fin keyBytes) :
    (Keyboard.releasedByte report s i).1.get j =
      if i = j then s.1.get j &&& report.get j else s.1.get j := by
  unfold Keyboard.releasedByte
  by_cases hz : s.1[i] &&& ~~~report[i] = 0
  · have hkept := (and_not_eq_zero _ _).mp hz
    simp only [hz, ne_eq, not_true_eq_false, if_false]
    by_cases hij : i = j
    · subst hij
      rw [if_pos rfl]
      exact hkept.symm
    · rw [if_neg hij]
  · simp only [hz, ne_eq, not_false_eq_true, if_true]
    by_cases hij : i = j
    · subst hij
      rw [if_pos rfl]
      exact (Vector.getElem_set_self _).trans (and_not_and_not _ _)
    · rw [if_neg hij]
      exact Vector.getElem_set_ne _ _ fun h => hij (Fin.ext h)

theorem released_releasedByte (s : Vector UInt8 keyBytes × Bool) (i : Fin keyBytes) :
    (Keyboard.releasedByte report s i).2 = true ↔
      s.2 = true ∨ s.1.get i &&& report.get i ≠ s.1.get i := by
  have hz := and_not_eq_zero s.1[i] report[i]
  show (Keyboard.releasedByte report s i).2 = true ↔ s.2 = true ∨ s.1[i] &&& report[i] ≠ s.1[i]
  unfold Keyboard.releasedByte
  by_cases hkept : s.1[i] &&& report[i] = s.1[i]
  · simp only [hz.mpr hkept, hkept, ne_eq, not_true_eq_false, if_false, or_false]
  · simp only [mt hz.mp hkept, hkept, ne_eq, not_false_eq_true, if_true, or_true]

/-- After any bytes: they hold the keys that stay pressed, and the flag says whether one did not. -/
theorem foldl_releasedByte (l : List (Fin keyBytes)) (s : Vector UInt8 keyBytes × Bool) :
    (∀ j ∈ l, (l.foldl (Keyboard.releasedByte report) s).1.get j = s.1.get j &&& report.get j) ∧
    (∀ j, j ∉ l → (l.foldl (Keyboard.releasedByte report) s).1.get j = s.1.get j) ∧
    ((l.foldl (Keyboard.releasedByte report) s).2 = true ↔
      s.2 = true ∨ ∃ j ∈ l, s.1.get j &&& report.get j ≠ s.1.get j) := by
  induction l generalizing s with
  | nil => simp
  | cons i l ih =>
    obtain ⟨hin, hout, hflag⟩ := ih (Keyboard.releasedByte report s i)
    have hbyte := @getElem_releasedByte report s i
    have hidem : ∀ a b : UInt8, a &&& b &&& b = a &&& b := fun a b => by
      rw [UInt8.and_assoc, UInt8.and_self]
    rw [List.foldl_cons]
    refine ⟨fun j hj => ?_, fun j hj => ?_, ?_⟩
    · by_cases hl : j ∈ l
      · rw [hin j hl, hbyte]
        by_cases hij : i = j
        · rw [if_pos hij, hidem]
        · rw [if_neg hij]
      · rw [hout j hl, hbyte, if_pos ((List.mem_cons.mp hj).resolve_right hl).symm]
    · rw [hout j fun hl => hj (List.mem_cons_of_mem _ hl), hbyte, if_neg]
      rintro rfl
      exact hj List.mem_cons_self
    · rw [hflag, released_releasedByte]
      by_cases hi : s.1.get i &&& report.get i = s.1.get i
      · -- nothing changed in this byte
        have hsame : ∀ j : Fin keyBytes, (Keyboard.releasedByte report s i).1.get j = s.1.get j := by
          intro j
          rw [hbyte]
          by_cases hij : i = j
          · subst hij
            rw [if_pos rfl, hi]
          · rw [if_neg hij]
        simp only [hsame, List.exists_mem_cons_iff, hi, ne_eq, not_true_eq_false, or_false, false_or]
      · constructor
        · intro _
          exact .inr ⟨i, List.mem_cons_self, hi⟩
        · intro _
          exact .inl (.inr hi)

theorem getElem_removeReleased (j : Fin keyBytes) :
    (Keyboard.removeReleased report last).1.get j = last.get j &&& report.get j := by
  unfold Keyboard.removeReleased
  rw [(foldl_releasedByte _ _).1 j (List.mem_finRange j)]

/-- The flag says whether the loop has changed anything. -/
theorem released_removeReleased :
    (Keyboard.removeReleased report last).2 = true ↔ (Keyboard.removeReleased report last).1 ≠ last := by
  have hflag := (@foldl_releasedByte report (List.finRange keyBytes) (last, false)).2.2
  have hsame : (Keyboard.removeReleased report last).1 = last ↔
      ∀ j : Fin keyBytes, last.get j &&& report.get j = last.get j := by
    constructor
    · intro heq j
      rw [← getElem_removeReleased, heq]
    · intro heq
      refine Vector.ext fun j hj => ?_
      exact (getElem_removeReleased ⟨j, hj⟩).trans (heq ⟨j, hj⟩)
  rw [ne_eq, hsame, not_forall]
  refine hflag.trans ?_
  simp

end Loop

/-! ## One call -/

section SendReport

open Keyboard

variable (kb : Keyboard)

/-- The last report without the keys that are released. -/
def withoutReleased : KeyboardReport :=
  { kb.lastReport with keys := (removeReleased kb.report.keys kb.lastReport.keys).1 }

/-- The same with the modifiers of the new report. -/
def withModifiers : KeyboardReport := { withoutReleased kb with modifiers := kb.report.modifiers }

theorem keyBit_withoutReleased (i : Fin keyBytes) (j : ℕ) :
    (withoutReleased kb).keyBit i j = (kb.lastReport.keyBit i j && kb.report.keyBit i j) := by
  show ((removeReleased kb.report.keys kb.lastReport.keys).1.get i).toBitVec.getLsbD j = _
  rw [getElem_removeReleased, UInt8.toBitVec_and, BitVec.getLsbD_and]
  rfl

/-- What is transmitted: at most three reports. -/
theorem sendReport_eq : kb.sendReport = ({ kb with lastReport := kb.report },
    if kb.lastReport.modifiers = kb.report.modifiers then
      if kb.lastReport.keys = kb.report.keys then [] else [kb.report]
    else
      (if (withoutReleased kb).keys = kb.lastReport.keys then [] else [withoutReleased kb]) ++
        withModifiers kb :: if (withoutReleased kb).keys = kb.report.keys then [] else [kb.report]) := by
  obtain ⟨⟨m, keys⟩, ⟨m', keys'⟩⟩ := kb
  have hchanged : m' ^^^ m = 0 ↔ m' = m := UInt8.xor_eq_zero_iff
  have hflag := @released_removeReleased keys keys'
  unfold sendReport withModifiers withoutReleased
  simp only [ne_eq, ite_not, hchanged] at hflag ⊢
  by_cases hmod : m' = m
  · by_cases hkeys : keys' = keys
    · simp only [hmod, hkeys, if_true]
    · simp only [hmod, hkeys, if_true, if_false, List.nil_append]
  · generalize (removeReleased keys keys') = r at hflag ⊢
    have hfirst : ∀ a : KeyboardReport, (if r.2 = true then [a] else []) =
        if r.1 = keys' then [] else [a] := by
      intro a
      by_cases hrel : r.1 = keys'
      · rw [if_pos hrel, if_neg fun h => hflag.mp h hrel]
      · rw [if_neg hrel, if_pos (hflag.mpr hrel)]
    simp only [hmod, if_false, hfirst]
    by_cases hkeys : r.1 = keys
    · subst hkeys
      simp only [if_true]
    · simp only [hkeys, if_false, List.append_assoc, List.cons_append, List.nil_append]

end SendReport

/-! ## The order -/

theorem changes_pair_le {α : Type} [DecidableEq α] (a b : α) : changes [a, b] ≤ 1 := by
  unfold changes changes
  split_ifs <;> omega

theorem changes_cons_self {α : Type} [DecidableEq α] (a : α) (l : List α) :
    changes (a :: a :: l) = changes (a :: l) := by
  rw [changes, if_pos rfl, Nat.zero_add]

/-- A bit that is taken out, left alone and put in, in this order, changes at most once. -/
theorem changes_bits (a b : Bool) : changes [a, a && b, a && b, b] ≤ 1 := by
  cases a <;> cases b <;> decide

/-- A value that is kept, replaced and kept changes at most once. -/
theorem changes_replaced {α : Type} [DecidableEq α] (a b : α) : changes [a, a, b, b] ≤ 1 := by
  rw [changes_cons_self]
  unfold changes
  rw [changes_cons_self]
  unfold changes
  split_ifs <;> simp

theorem KeyboardReport.eq_of {r r' : KeyboardReport} (hm : r.modifiers = r'.modifiers)
    (hk : r.keys = r'.keys) : r = r' := by
  obtain ⟨m, keys⟩ := r
  obtain ⟨m', keys'⟩ := r'
  obtain rfl : m = m' := hm
  obtain rfl : keys = keys' := hk
  rfl

/-- With other modifiers: from `o` by way of `w` and `v` to `n`, where a step that changes nothing is left
out. -/
theorem safePath_of {o w v n : KeyboardReport} (hw : w.modifiers = o.modifiers)
    (hv : v.modifiers = n.modifiers) (hvk : v.keys = w.keys) (hmod : o.modifiers ≠ n.modifiers)
    (hbit : ∀ i j, w.keyBit i j = (o.keyBit i j && n.keyBit i j)) :
    SafePath o n ((if w.keys = o.keys then [] else [w]) ++ v ::
      if w.keys = n.keys then [] else [n]) := by
  have hvbit : ∀ i j, v.keyBit i j = w.keyBit i j := by
    intro i j
    unfold keyBit
    rw [hvk]
  have hset : NoneSet o w := fun i j h => (Bool.and_eq_true_iff.mp ((hbit i j).symm.trans h)).1
  have hclear : NoneCleared v n := fun i j h =>
    (Bool.and_eq_true_iff.mp ((hbit i j).symm.trans ((hvbit i j).symm.trans h))).2
  have hmiddle : ModifiersChange w v := ⟨by rw [hw, hv]; exact hmod, hvk.symm⟩
  have hfour : ∀ i j, changes ([o, w, v, n].map fun r => r.keyBit i j) ≤ 1 := by
    intro i j
    simp only [List.map_cons, List.map_nil, hvbit, hbit]
    exact changes_bits _ _
  have hmods : changes ([o, w, v, n].map KeyboardReport.modifiers) ≤ 1 := by
    simp only [List.map_cons, List.map_nil, hw, hv]
    exact changes_replaced _ _
  have hno : ∀ {l : List KeyboardReport} {r : KeyboardReport} {t : List KeyboardReport},
      l ++ r :: t = [] ↔ o = n := by
    intro l r t
    exact ⟨fun h => absurd h (by simp), fun h => absurd (congrArg KeyboardReport.modifiers h) hmod⟩
  by_cases hrel : w.keys = o.keys
  · -- no key is released
    obtain rfl : w = o := KeyboardReport.eq_of hw hrel
    rw [if_pos rfl]
    by_cases hadd : w.keys = n.keys
    · obtain rfl : v = n := KeyboardReport.eq_of hv (hvk.trans hadd)
      rw [if_pos hadd]
      exact
        { length_le := by simp
          single := .cons_cons (.inl hmiddle) (.singleton _)
          last := rfl
          around := fun _ => ⟨[w], [v], rfl, by simp, by simp, by simp, by simp, .singleton _, .singleton _⟩
          keyOnce := fun i j => changes_pair_le _ _
          modifiersOnce := changes_pair_le _ _
          silent := hno }
    · have hlast : KeysChange v n := ⟨hv, by rw [hvk]; exact hadd⟩
      rw [if_neg hadd]
      exact
        { length_le := by simp
          single := .cons_cons (.inl hmiddle) (.cons_cons (.inr hlast) (.singleton _))
          last := rfl
          around := fun _ => ⟨[w], [v, n], rfl, by simp, by simp [hv], by simp, by simp, .singleton _,
            .cons_cons hclear (.singleton _)⟩
          keyOnce := fun i j => by simpa [changes_cons_self] using hfour i j
          modifiersOnce := by simpa [changes_cons_self] using hmods
          silent := hno }
  · have hfirst : KeysChange o w := ⟨hw.symm, fun h => hrel h.symm⟩
    rw [if_neg hrel]
    by_cases hadd : w.keys = n.keys
    · obtain rfl : v = n := KeyboardReport.eq_of hv (hvk.trans hadd)
      rw [if_pos hadd]
      exact
        { length_le := by simp
          single := .cons_cons (.inr hfirst) (.cons_cons (.inl hmiddle) (.singleton _))
          last := rfl
          around := fun _ => ⟨[o, w], [v], rfl, by simp [hw], by simp, by simp, by simp,
            .cons_cons hset (.singleton _), .singleton _⟩
          keyOnce := fun i j => by simpa [changes] using hfour i j
          modifiersOnce := by simpa [changes] using hmods
          silent := hno }
    · have hlast : KeysChange v n := ⟨hv, by rw [hvk]; exact hadd⟩
      rw [if_neg hadd]
      exact
        { length_le := by simp
          single := .cons_cons (.inr hfirst) (.cons_cons (.inl hmiddle)
            (.cons_cons (.inr hlast) (.singleton _)))
          last := rfl
          around := fun _ => ⟨[o, w], [v, n], rfl, by simp [hw], by simp [hv], by simp, by simp,
            .cons_cons hset (.singleton _), .cons_cons hclear (.singleton _)⟩
          keyOnce := hfour
          modifiersOnce := hmods
          silent := hno }

/-- **The order of the reports**: what one call transmits leads from the last report to the new one, keys
that are released first, then the modifiers, then the keys that are pressed; the new report is the last one
afterwards. -/
theorem sendReport_order (kb : Keyboard) :
    SafePath kb.lastReport kb.report kb.sendReport.2 ∧ kb.sendReport.1.lastReport = kb.report ∧
      kb.sendReport.1.report = kb.report := by
  rw [sendReport_eq]
  refine ⟨?_, rfl, rfl⟩
  show SafePath _ _ (if _ then _ else _)
  by_cases hmod : kb.lastReport.modifiers = kb.report.modifiers
  · rw [if_pos hmod]
    have hsame : ∀ P : Prop, kb.lastReport.modifiers ≠ kb.report.modifiers → P :=
      fun _ h => absurd hmod h
    by_cases hkeys : kb.lastReport.keys = kb.report.keys
    · have heq := KeyboardReport.eq_of hmod hkeys
      rw [if_pos hkeys]
      exact
        { length_le := Nat.zero_le _
          single := .singleton _
          last := heq
          around := hsame _
          keyOnce := fun _ _ => Nat.zero_le _
          modifiersOnce := Nat.zero_le _
          silent := ⟨fun _ => heq, fun _ => rfl⟩ }
    · rw [if_neg hkeys]
      exact
        { length_le := by simp
          single := .cons_cons (.inr ⟨hmod, hkeys⟩) (.singleton _)
          last := rfl
          around := hsame _
          keyOnce := fun _ _ => changes_pair_le _ _
          modifiersOnce := changes_pair_le _ _
          silent := ⟨fun h => absurd h (by simp), fun h => absurd (congrArg KeyboardReport.keys h) hkeys⟩ }
  · rw [if_neg hmod]
    exact safePath_of (n := kb.report) (w := withoutReleased kb) (v := withModifiers kb) rfl rfl rfl hmod
      (keyBit_withoutReleased kb)

end NeuronWired
