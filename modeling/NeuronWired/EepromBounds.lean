import NeuronWired.EepromUpdate

/-!
# EepromBounds — which calls stay inside the shadow

`begin` allocates the size it is given and copies the size rounded up; it keeps an array of another length
when the new size needs no rounding; and `update` reads 8192 bytes from whatever `_data` is.  A run touches
nothing outside its array exactly when each `begin` and each `update` of it `Fits`.
-/

namespace NeuronWired

namespace Storage

/-- The accesses of a call. -/
def accesses (s : Storage) (c : EepromCall) : List Access := (s.call c).touched.drop s.touched.length

/-- The calls of `EEPROMClass`, with `update` only while an update is pending. -/
def OfEeprom (s : Storage) (c : EepromCall) : Prop :=
  c.WellFormed ∧
    match c with
    | .getDataPtr | .store _ _ | .storeIndex _ _ | .beforeEachCycle _ _ => False
    | .update => s.eeprom.needUpdate = true
    | _ => True

/-- `begin` is given a size that needs no rounding and that an array already there has; `update` finds an
array of 8192 bytes. -/
def Fits (s : Storage) : EepromCall → Prop
  | .begin size => requestedSize size = roundedSize (requestedSize size) ∧
      ∀ d, s.eeprom.data = some d → requestedSize size ≤ d.length
  | .update => ∃ d, s.eeprom.data = some d ∧ 8192 ≤ d.length
  | _ => True

instance (s : Storage) (c : EepromCall) : Decidable (s.OfEeprom c) := by
  unfold OfEeprom
  cases c <;> infer_instance

instance (s : Storage) : (c : EepromCall) → Decidable (s.Fits c)
  | .begin size => inferInstanceAs (Decidable (_ ∧ ∀ d ∈ s.eeprom.data, requestedSize size ≤ d.length))
  | .update => inferInstanceAs (Decidable (∃ d ∈ s.eeprom.data, 8192 ≤ d.length))
  | .finish | .read _ | .write _ _ | .get _ _ | .put _ _ | .commit | .getDataPtr | .store _ _ |
    .storeIndex _ _ | .beforeEachCycle _ _ => .isTrue trivial

/-- `_size` bytes are allocated. -/
structure Contained (s : Storage) : Prop where
  array : ∀ d, s.eeprom.data = some d → s.eeprom.size ≤ d.length
  null : s.eeprom.data = none → s.eeprom.size = 0

section Steps

variable {s : Storage} {c : EepromCall}

/-- An access below `_size` is inside. -/
theorem Contained.inside (h : Contained s) {off len : ℕ} (hlen : 0 < len) (hle : off + len ≤ s.eeprom.size) :
    (Access.mk (s.eeprom.data.map List.length) off len).Inside := by
  cases hd : s.eeprom.data with
  | none =>
    have hzero := h.null hd
    omega
  | some d => exact ⟨d.length, rfl, Nat.le_trans hle (h.array d hd)⟩

theorem touched_commit (s : Storage) : s.commit.2.touched = s.touched := by
  unfold commit
  split_ifs <;> rfl

theorem touched_finish (s : Storage) : s.finish.2.touched = s.touched := by
  unfold finish
  split_ifs
  · rfl
  · exact s.touched_commit

/-- Bounds of a C sum that does not wrap. -/
theorem le_size_of_u32 {address : ℤ} {len : ℕ} (ha : 0 ≤ address) (ha' : address < 2147483648)
    (hl : len < 2147483648) (h : u32 (address + len) ≤ s.eeprom.size) :
    address.toNat + len ≤ s.eeprom.size := by
  unfold u32 at h
  omega

/-- The accesses made from `s` to `t` go to the array of `s`, below `_size`. -/
def Below (s t : Storage) : Prop :=
  ∃ l, t.touched = s.touched ++ l ∧ ∀ x ∈ l, ∃ off len,
    x = ⟨s.eeprom.data.map List.length, off, len⟩ ∧ 0 < len ∧ off + len ≤ s.eeprom.size

theorem below_refl {t : Storage} (h : t.touched = s.touched) : Below s t :=
  ⟨[], by rw [h, List.append_nil], fun x hx => by cases hx⟩

theorem below_touch {off len : ℕ} (hlen : 0 < len) (hle : off + len ≤ s.eeprom.size) :
    Below s (s.touch off len) := by
  refine ⟨_, rfl, fun x hx => ?_⟩
  obtain rfl := List.mem_singleton.mp hx
  exact ⟨off, len, rfl, hlen, hle⟩

/-- A comparison, and a copy to the same place. -/
theorem below_copy {off : ℕ} {src : Bytes} {t : Storage} (hlen : 0 < src.length)
    (hle : off + src.length ≤ s.eeprom.size)
    (ht : t.touched = ((s.touch off src.length).copyIn off src).touched) : Below s t := by
  let x : Access := ⟨s.eeprom.data.map List.length, off, src.length⟩
  refine ⟨[x, x], ?_, fun y hy => ?_⟩
  · rw [ht]
    exact List.append_assoc _ _ _
  · have hyx : y = x := by simpa using hy
    exact ⟨off, src.length, hyx, hlen, hle⟩

/-- Every call other than `begin` and `update` stays below `_size`. -/
theorem below_call (hc : s.OfEeprom c) (hbegin : ∀ size, c ≠ .begin size) (hupdate : c ≠ .update) :
    Below s (s.call c) := by
  obtain ⟨hwf, hkind⟩ := hc
  cases c with
  | begin size => exact absurd rfl (hbegin size)
  | update => exact absurd rfl hupdate
  | finish => exact below_refl s.touched_finish
  | commit => exact below_refl s.touched_commit
  | getDataPtr => exact hkind.elim
  | store => exact hkind.elim
  | storeIndex => exact hkind.elim
  | beforeEachCycle => exact hkind.elim
  | read address =>
    show Below s (s.read address).2
    unfold read
    split_ifs with hout
    · exact below_refl rfl
    · exact below_refl rfl
    · exact below_touch (by decide) (by omega)
  | write address value =>
    show Below s (s.write address value)
    unfold write
    split_ifs with hout
    · exact below_refl rfl
    · exact below_refl rfl
    · exact below_touch (by decide) (by omega)
    · have hlen : [value].length = 1 := List.length_singleton
      exact below_copy (Nat.lt_of_lt_of_eq Nat.one_pos hlen.symm) (by rw [hlen]; omega) rfl
  | get address len =>
    obtain ⟨ha, hpos, hl⟩ := hwf
    show Below s (s.get address len).2
    unfold get
    split_ifs with hout
    · exact below_refl rfl
    · exact below_touch hpos (le_size_of_u32 (by omega) ha hl (by omega))
  | put address t =>
    obtain ⟨ha, hpos, hl⟩ := hwf
    show Below s (s.put address t)
    unfold put
    split_ifs with hout
    · exact below_refl rfl
    · exact below_touch hpos (le_size_of_u32 (by omega) ha hl (by omega))
    · exact below_copy hpos (le_size_of_u32 (by omega) ha hl (by omega)) rfl

/-! ## Each call -/

theorem accesses_of_eq {l : List Access} (h : (s.call c).touched = s.touched ++ l) : s.accesses c = l := by
  unfold accesses
  rw [h, List.drop_left]

theorem touched_begin (s : Storage) (size : ℕ) : (s.call (.begin size)).touched =
    s.touched ++ [⟨some (arrayFor s.eeprom.data (requestedSize size)).length, 0,
      roundedSize (requestedSize size)⟩] := by
  show (s.begin size).touched = _
  rw [begin_eq]

theorem touched_update (s : Storage) : (s.call .update).touched =
    s.touched ++ pageAccesses (s.eeprom.data.map List.length) 32 := by
  show s.update.touched = _
  rw [update_eq]

/-- What a call touches comes behind what was touched before. -/
theorem touched_call (hc : s.OfEeprom c) : (s.call c).touched = s.touched ++ s.accesses c := by
  have hex : ∃ l, (s.call c).touched = s.touched ++ l := by
    by_cases hbegin : ∃ size, c = .begin size
    · obtain ⟨size, rfl⟩ := hbegin
      exact ⟨_, s.touched_begin size⟩
    by_cases hupdate : c = .update
    · subst hupdate
      exact ⟨_, s.touched_update⟩
    obtain ⟨l, hl, -⟩ := below_call hc (fun size heq => hbegin ⟨size, heq⟩) hupdate
    exact ⟨l, hl⟩
  obtain ⟨l, hl⟩ := hex
  rw [accesses_of_eq hl]
  exact hl

theorem requestedSize_pos (size : ℕ) : 0 < requestedSize size ∧ requestedSize size ≤ 8192 := by
  unfold requestedSize
  split_ifs <;> omega

theorem le_roundedSize (n : ℕ) : n ≤ roundedSize n := by
  unfold roundedSize
  omega

/-- The copy of `begin` stays inside exactly if `begin` fits. -/
theorem begin_inside (s : Storage) (size : ℕ) :
    (Access.mk (some (arrayFor s.eeprom.data (requestedSize size)).length) 0
      (roundedSize (requestedSize size))).Inside ↔ s.Fits (.begin size) := by
  have hle := le_roundedSize (requestedSize size)
  generalize hn : requestedSize size = n at hle
  have hfits : s.Fits (.begin size) ↔ n = roundedSize n ∧ ∀ d, s.eeprom.data = some d → n ≤ d.length := by
    rw [← hn]
    exact Iff.rfl
  have hinside : (Access.mk (some (arrayFor s.eeprom.data n).length) 0 (roundedSize n)).Inside ↔
      roundedSize n ≤ (arrayFor s.eeprom.data n).length := by
    constructor
    · rintro ⟨size, hsize, hin⟩
      obtain rfl := Option.some.inj hsize
      simpa using hin
    · intro h
      exact ⟨_, rfl, by simpa using h⟩
  rw [hinside, hfits]
  cases hdata : s.eeprom.data with
  | none =>
    have harray : arrayFor none n = List.replicate n 0 := rfl
    rw [harray, List.length_replicate]
    refine ⟨fun h => ⟨by omega, fun d hd => by cases hd⟩, fun h => Nat.le_of_eq h.1.symm⟩
  | some d =>
    rw [arrayFor_some]
    split_ifs with hround
    · rw [List.length_replicate]
      exact ⟨fun h => ⟨by omega, fun _ _ => absurd (by omega) hround⟩, fun h => absurd h.1 hround⟩
    · have heq : n = roundedSize n := not_not.mp hround
      rw [← heq]
      refine ⟨fun h => ⟨rfl, fun d' hd' => ?_⟩, fun h => h.2 d rfl⟩
      obtain rfl := Option.some.inj hd'
      exact h

/-- The pages of `update` are inside exactly if there is an array of 8192 bytes. -/
theorem update_inside (s : Storage) :
    (∀ x ∈ pageAccesses (s.eeprom.data.map List.length) 32, x.Inside) ↔ s.Fits .update := by
  have hmem : ∀ x, x ∈ pageAccesses (s.eeprom.data.map List.length) 32 ↔
      ∃ i < 32, (⟨s.eeprom.data.map List.length, i * 256, 256⟩ : Access) = x := by
    intro x
    unfold pageAccesses
    simp only [List.mem_map, List.mem_range]
  constructor
  · intro h
    obtain ⟨size, hsize, hin⟩ := h _ ((hmem _).mpr ⟨31, by decide, rfl⟩)
    obtain ⟨d, hd, hlen⟩ := Option.map_eq_some_iff.mp hsize
    refine ⟨d, hd, ?_⟩
    rw [hlen]
    exact hin
  · rintro ⟨d, hd, hlen⟩ x hx
    obtain ⟨i, hi, rfl⟩ := (hmem x).mp hx
    rw [hd]
    exact ⟨d.length, rfl, by show i * 256 + 256 ≤ d.length; omega⟩

/-- A call touches nothing outside its array exactly if it fits. -/
theorem inside_iff (h : Contained s) (hc : s.OfEeprom c) : (∀ x ∈ s.accesses c, x.Inside) ↔ s.Fits c := by
  by_cases hbegin : ∃ size, c = .begin size
  · obtain ⟨size, rfl⟩ := hbegin
    rw [accesses_of_eq (s.touched_begin size), ← begin_inside]
    simp only [List.mem_singleton, forall_eq]
  by_cases hupdate : c = .update
  · subst hupdate
    rw [accesses_of_eq s.touched_update]
    exact s.update_inside
  obtain ⟨l, hl, hbelow⟩ := below_call hc (fun size heq => hbegin ⟨size, heq⟩) hupdate
  have hfits : s.Fits c := by
    cases c with
    | begin size => exact absurd ⟨size, rfl⟩ hbegin
    | update => exact absurd rfl hupdate
    | _ => trivial
  rw [accesses_of_eq hl]
  refine iff_of_true (fun x hx => ?_) hfits
  obtain ⟨off, len, rfl, hpos, hle⟩ := hbelow x hx
  exact h.inside hpos hle

theorem Contained.of_edit {t : Storage} (h : Contained s) (he : Edit s t) : Contained t := by
  obtain ⟨-, -, -, hsize, -, hdata, -⟩ := he
  refine ⟨fun d hd => ?_, fun hnull => ?_⟩
  · rw [hd] at hdata
    obtain ⟨d', hd', hlen⟩ := Option.map_eq_some_iff.mp hdata.symm
    rw [hsize, ← hlen]
    exact h.array d' hd'
  · rw [hnull] at hdata
    rw [hsize]
    exact h.null (Option.map_eq_none_iff.mp hdata.symm)

theorem Contained.congr {t : Storage} (h : Contained s) (hd : t.eeprom.data = s.eeprom.data)
    (hs : t.eeprom.size = s.eeprom.size) : Contained t := by
  obtain ⟨h1, h2⟩ := h
  rw [← hd, ← hs] at h1 h2
  exact ⟨h1, h2⟩

theorem eeprom_commit (s : Storage) : s.commit.2.eeprom.data = s.eeprom.data ∧
    s.commit.2.eeprom.size = s.eeprom.size := by
  unfold commit
  split_ifs <;> exact ⟨rfl, rfl⟩

/-- A call that fits keeps `_size` bytes allocated. -/
theorem Contained.call (h : Contained s) (hc : s.OfEeprom c) (hf : s.Fits c) : Contained (s.call c) := by
  obtain ⟨-, hkind⟩ := hc
  cases c with
  | getDataPtr => exact hkind.elim
  | store => exact hkind.elim
  | storeIndex => exact hkind.elim
  | beforeEachCycle => exact hkind.elim
  | read address => exact h.of_edit (edit_read s address)
  | get address len => exact h.of_edit (edit_get s address len)
  | write address value => exact h.of_edit (edit_write s address value)
  | put address t => exact h.of_edit (edit_put s address t)
  | commit => exact h.congr s.eeprom_commit.1 s.eeprom_commit.2
  | update =>
    show Contained s.update
    rw [update_eq]
    exact h.congr rfl rfl
  | finish =>
    show Contained s.finish.2
    unfold finish
    split_ifs with hzero
    · exact h
    · exact ⟨nofun, fun _ => rfl⟩
  | begin size =>
    show Contained (s.begin size)
    have hin := (begin_inside s size).mpr hf
    obtain ⟨len, hlen, hle⟩ := hin
    obtain rfl := Option.some.inj hlen
    rw [begin_eq]
    refine ⟨fun d hd => ?_, nofun⟩
    obtain rfl := Option.some.inj hd
    rw [length_memcpy]
    simpa using hle

/-- The accesses of a run are those of its calls. -/
theorem touched_run {calls : List EepromCall} (hcalls : Run.Along Storage.call OfEeprom s calls) :
    (∀ x ∈ (Run.after Storage.call s calls).touched, x.Inside) ↔
      (∀ x ∈ s.touched, x.Inside) ∧
        Run.Along Storage.call (fun t c => ∀ x ∈ t.accesses c, x.Inside) s calls := by
  induction calls generalizing s with
  | nil => simp
  | cons c calls ih =>
    rw [Run.after_cons, ih hcalls.2, touched_call hcalls.1, Run.along_cons, ← and_assoc]
    simp only [List.mem_append, or_imp, forall_and]

end Steps

/-- **A run of `EEPROMClass` touches nothing outside its shadow exactly when every `begin` and every
`update` of it fits.** -/
theorem eeprom_bounds (sector : ℕ) (flash : Nor.Mem) (calls : List EepromCall)
    (hcalls : Run.Along Storage.call OfEeprom (newStorage sector flash) calls) :
    (∀ x ∈ (Run.after Storage.call (newStorage sector flash) calls).touched, x.Inside) ↔
      Run.Along Storage.call Fits (newStorage sector flash) calls := by
  have hnew : Contained (newStorage sector flash) := ⟨nofun, fun _ => rfl⟩
  have hnone : ∀ x ∈ (newStorage sector flash).touched, x.Inside := fun x hx => by cases hx
  rw [touched_run hcalls, and_iff_right hnone]
  exact hcalls.iff hnew (fun s c h hc hf => h.call hc hf) fun s c h hc => inside_iff h hc

/-- The calls of a start that needs no rounding. -/
def sampleBegin : List EepromCall := [.begin 8192, .put 8190 [1, 2], .commit, .update, .read 8191]

/-- An array that `begin` makes too short; one that it keeps although it is too short; one that is too
short for `update`; and an update that is still pending when the array has been freed. -/
def sampleOutside : List (List EepromCall) :=
  [[.begin 100], [.begin 256, .begin 8192], [.begin 256, .write 0 1, .commit, .update],
   [.begin 8192, .write 0 1, .finish, .update]]

theorem eeprom_bounds_begin :
    (Run.after Storage.call (newStorage 0 fun _ => 0xFF) sampleBegin).touched ≠ [] ∧
    ∀ x ∈ (Run.after Storage.call (newStorage 0 fun _ => 0xFF) sampleBegin).touched, x.Inside :=
  ⟨by decide +kernel,
    (eeprom_bounds 0 (fun _ => 0xFF) sampleBegin (by decide +kernel)).mpr (by decide +kernel)⟩

theorem eeprom_bounds_outside : sampleOutside.length = 4 ∧ ∀ calls ∈ sampleOutside,
    Run.Along Storage.call OfEeprom (newStorage 0 fun _ => 0xFF) calls ∧
      ∃ x ∈ (Run.after Storage.call (newStorage 0 fun _ => 0xFF) calls).touched, ¬ x.Inside := by
  decide +kernel

end Storage

end NeuronWired
