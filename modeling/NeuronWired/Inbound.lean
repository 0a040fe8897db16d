import NeuronWired.InEffect

/-!
# Inbound — the main loop's half of the inbound direction

Assertions about the inbound view, their stability under the interrupt, and from them outlines of
`spils_poll`, `spils_data_read` and `spils_data_send`.  While `line_in_busy` is set the interrupt leaves
the view alone; while the input mutex is held it leaves `p_buffer_in` alone.
-/

namespace NeuronWired

open Interrupt

/-! ## Assertions -/

section Assertions

variable (size : ℕ) (g : Prop)

/-- Pointers apart, and a cache that holds a message only under `line_in_busy`; the messages `mid` are
between the cache and the caller. -/
structure InCore (m : Bool) (mid : List Bytes) (v : InView) : Prop where
  ne : v.pIn ≠ v.pCache
  locked : v.locked = m
  swap : v.swap = false
  cacheMod : v.cacheL.Mod size
  idle : v.busy = false → ¬v.cacheL.Loaded
  ordered : g → v.cacheL.Ordered
  ledger : g → v.acked = v.returned ++ mid ++ entry v.cacheL.content
  safe : g → v.safe = true

/-- The input mutex is free; the messages `fl` are on their way to the caller.  Unless `o` fails, what is
in `p_buffer_in` has been notified. -/
structure InOpen (o : Prop) (fl : List Bytes) (v : InView) : Prop where
  core : InCore size g false (fl ++ entry v.inL.content) v
  inMod : v.inL.Mod size
  inOrdered : g → v.inL.Ordered
  avail : v.avail = true ↔ v.inL.Loaded
  reading : v.reading = none
  noted : o → v.inL.Loaded → v.flag = true

/-- The main loop holds the input mutex, and with it the buffer `i` with `l` in it. -/
structure InHeld (o : Prop) (mid : List Bytes) (i : BufId) (l : Look) (a : Bool) (r : Option BufId)
    (v : InView) : Prop where
  core : InCore size g true mid v
  pIn : v.pIn = i
  inL : v.inL = l
  avail : v.avail = a
  reading : v.reading = r
  noted : o → l.Loaded → v.flag = true

/-- What has been acknowledged and not returned is in the two buffers, but for up to `n` messages on
their way to the caller.  During a swap both pointers may name one buffer. -/
def InView.Holds (n : ℕ) (v : InView) : Prop := ∃ fl held : List Bytes, fl.length ≤ n ∧
  v.acked = v.returned ++ fl ++ held ∧ (∀ p ∈ held, p = v.inL.content ∨ p = v.cacheL.content) ∧
  (v.swap = false → held = entry v.inL.content ++ entry v.cacheL.content)

/-- What every point of the main loop shares. -/
structure Seen (n : ℕ) (v : InView) : Prop where
  ne : v.swap = false → v.pIn ≠ v.pCache
  reading : v.reading ≠ some v.pCache
  unlocked : v.locked = false → v.reading = none ∧ v.swap = false
  cacheMod : v.cacheL.Mod size
  looks : g → ∀ i : BufId, i.isIn = true → (v.look i).Mod size ∧ (v.look i).readPos ≤ (v.look i).writePos
  safe : g → v.safe = true
  holds : g → v.Holds n
  wf : InWf size v

/-- A state whose inbound view meets `Φ`. -/
structure InAt (Φ : InView → Prop) (s : Sys) : Prop where
  shape : Shape size s
  rx : RxOk size s
  view : Φ (inView s)

/-- The interrupt, as far as the inbound half is concerned; `mv` says when it may swap. -/
def InRely (mv : InView → Prop) (s s' : Sys) : Prop :=
  (Shape size s → Shape size s') ∧
    (RxOk size s → InWf size (inView s) →
      InEff size g (mv (inView s)) (inView s) (inView s') ∧ RxOk size s')

end Assertions

variable {size : ℕ} {g o mv : Prop} {fl mid : List Bytes} {v v' : InView}

theorem entry_length_le (p : Bytes) : (entry p).length ≤ 1 := by
  unfold entry; split_ifs <;> simp

/-! ## What the interrupt does to them -/

section Stability

/-- `line_in_busy` keeps the interrupt out. -/
theorem InEff.eq_of_busy (h : InEff size g mv v v') (hb : v.busy = true) : v' = v := by
  cases h with
  | same => rfl
  | recycled flag hb' => exact absurd (hb.symm.trans hb') (by decide)
  | kept l p hb' => exact absurd (hb.symm.trans hb') (by decide)
  | swapped l p hb' => exact absurd (hb.symm.trans hb') (by decide)

/-- Nothing acknowledged is in a cache that holds nothing. -/
theorem InCore.entry_cache {m : Bool} (h : InCore size g m mid v) (hg : g) (hb : v.busy = false) :
    entry v.cacheL.content = [] := by
  rw [(h.ordered hg).content_eq_nil (h.idle hb), entry_nil]

/-- Effects on the cache alone. -/
theorem InCore.put_cache {m : Bool} (h : InCore size g m mid v) {l : Look} (hm : l.Mod size)
    (hl : v.busy = false → ¬l.Loaded) (ho : g → l.Ordered)
    (hc : g → entry l.content = entry v.cacheL.content) : InCore size g m mid (v.put v.pCache l) := by
  have hput : (v.put v.pCache l).cacheL = l := v.cacheL_put l
  obtain ⟨h1, h2, h3, -, -, -, h7, h8⟩ := h
  refine ⟨h1, h2, h3, ?_, ?_, ?_, ?_, h8⟩
  · rw [hput]; exact hm
  · rw [hput]; exact hl
  · rw [hput]; exact ho
  · intro hg
    rw [hput, hc hg]
    exact h7 hg

theorem InCore.recycled {m : Bool} (hsize : size ≤ 255) (h : InCore size g m mid v)
    (hb : v.busy = false) (flag : Bool) :
    InCore size g m mid { v.put v.pCache (.empty size) with flag := flag } := by
  obtain ⟨h1, h2, h3, h4, h5, h6, h7, h8⟩ := h.put_cache (Look.mod_empty hsize)
    (fun _ => Look.not_loaded_empty size) (fun _ => Look.ordered_empty size)
    (fun hg => by rw [h.entry_cache hg hb]; rfl)
  exact ⟨h1, h2, h3, h4, h5, h6, h7, h8⟩

theorem InCore.kept {m : Bool} (h : InCore size g m mid v) (hb : v.busy = false) {l : Look} {p : Bytes}
    (hm : l.Mod size) (hg : g → l.Ordered ∧ l.content = p) :
    InCore size g m mid { v.put v.pCache l with busy := true, acked := v.acked ++ entry p } := by
  have hput : ({ v.put v.pCache l with busy := true, acked := v.acked ++ entry p } : InView).cacheL = l :=
    v.cacheL_put l
  refine ⟨h.ne, h.locked, h.swap, ?_, fun hf => absurd hf (by simp), ?_, ?_, h.safe⟩
  · rw [hput]; exact hm
  · intro hg'
    rw [hput]
    exact (hg hg').1
  · intro hg'
    rw [hput, (hg hg').2]
    show v.acked ++ entry p = v.returned ++ mid ++ entry p
    rw [h.ledger hg', h.entry_cache hg' hb, List.append_nil]

/-- The other buffer is not touched with the cache. -/
theorem InCore.inL_put_cache {m : Bool} (h : InCore size g m mid v) (l : Look) :
    (v.put v.pCache l).look v.pIn = v.inL := v.look_put_of_ne l h.ne

theorem InOpen.eff (hsize : size ≤ 255) (h : InOpen size g o fl v) (he : InEff size g mv v v') :
    InOpen size g o fl v' := by
  cases he with
  | same => exact h
  | recycled flag hb hf =>
    have hin : ({ v.put v.pCache (.empty size) with flag := flag } : InView).inL = v.inL :=
      h.core.inL_put_cache _
    refine ⟨?_, ?_, ?_, ?_, h.reading, ?_⟩
    · rw [hin]; exact h.core.recycled hsize hb flag
    · rw [hin]; exact h.inMod
    · rw [hin]; exact h.inOrdered
    · rw [hin]; exact h.avail
    · intro ho hl
      rw [hin] at hl
      exact hf (h.noted ho hl)
  | kept l p hb hfull hm hg =>
    have hin : ({ v.put v.pCache l with busy := true, acked := v.acked ++ entry p } : InView).inL =
      v.inL := h.core.inL_put_cache _
    refine ⟨?_, ?_, ?_, ?_, h.reading, ?_⟩
    · rw [hin]; exact h.core.kept hb hm hg
    · rw [hin]; exact h.inMod
    · rw [hin]; exact h.inOrdered
    · rw [hin]; exact h.avail
    · rw [hin]; exact h.noted
  | swapped l p hb hfree hroom hl hm hg hmv =>
    set w : InView := { (v.put v.pCache l).put v.pIn (.empty size) with
      pIn := v.pCache, pCache := v.pIn, avail := true, flag := true, swap := false
      acked := v.acked ++ entry p } with hw
    have hin : w.inL = l := by
      show ((v.put v.pCache l).put v.pIn (.empty size)).look v.pCache = l
      rw [InView.look_put_of_ne _ _ h.core.ne.symm, InView.look_put]
    have hcache : w.cacheL = .empty size := (v.put v.pCache l).look_put v.pIn (.empty size)
    refine ⟨⟨h.core.ne.symm, h.core.locked, rfl, ?_, ?_, ?_, ?_, h.core.safe⟩, ?_, ?_, ?_, h.reading,
      fun _ _ => rfl⟩
    · rw [hcache]; exact Look.mod_empty hsize
    · intro _
      rw [hcache]
      exact Look.not_loaded_empty size
    · intro _
      rw [hcache]
      exact Look.ordered_empty size
    · intro hg'
      have hnil : v.inL.content = [] := (h.inOrdered hg').content_eq_nil hroom
      rw [hin, hcache, (hg hg').2]
      show v.acked ++ entry p = v.returned ++ (fl ++ entry p) ++ entry []
      rw [h.core.ledger hg', h.core.entry_cache hg' hb, hnil, entry_nil]
      simp only [List.append_nil, List.append_assoc]
    · rw [hin]; exact hm
    · intro hg'
      rw [hin]
      exact (hg hg').1
    · rw [hin]
      exact ⟨fun _ => hl, fun _ => rfl⟩

theorem InHeld.eff {i : BufId} {l : Look} {a : Bool} {r : Option BufId} (hsize : size ≤ 255)
    (h : InHeld size g o mid i l a r v) (he : InEff size g mv v v') :
    InHeld size g o mid i l a r v' := by
  cases he with
  | same => exact h
  | recycled flag hb hf =>
    refine ⟨h.core.recycled hsize hb flag, h.pIn, ?_, h.avail, h.reading, fun ho hl => hf (h.noted ho hl)⟩
    exact (h.core.inL_put_cache _).trans h.inL
  | kept l' p hb hfull hm hg =>
    refine ⟨h.core.kept hb hm hg, h.pIn, ?_, h.avail, h.reading, h.noted⟩
    exact (h.core.inL_put_cache _).trans h.inL
  | swapped l p hb hfree => exact absurd (h.core.locked.symm.trans hfree) (by decide)

theorem InOpen.wf (h : InOpen size g o fl v) : InWf size v :=
  ⟨h.core.cacheMod, fun hb => ⟨h.core.ne, h.core.idle hb⟩, fun _ _ => h.inMod⟩

theorem InHeld.wf {i : BufId} {l : Look} {a : Bool} {r : Option BufId}
    (h : InHeld size g o mid i l a r v) : InWf size v :=
  ⟨h.core.cacheMod, fun hb => ⟨h.core.ne, h.core.idle hb⟩,
    fun _ hf => absurd (h.core.locked.symm.trans hf) (by decide)⟩

theorem InWf.of_busy (hm : v.cacheL.Mod size) (hb : v.busy = true) : InWf size v :=
  ⟨hm, fun hf => absurd (hb.symm.trans hf) (by decide),
    fun hf _ => absurd (hb.symm.trans hf) (by decide)⟩

variable {mv : InView → Prop}

theorem stable_inAt {Φ : InView → Prop} (hwf : ∀ v, Φ v → InWf size v)
    (heff : size ≤ 255 → ∀ v v', Φ v → InEff size g (mv v) v v' → Φ v') :
    Stable (InRely size g mv) (InAt size Φ) := by
  intro s s' hR h
  obtain ⟨hsh, hview⟩ := hR
  obtain ⟨he, hrx⟩ := hview h.rx (hwf _ h.view)
  exact ⟨hsh h.shape, hrx, heff h.shape.size_le _ _ h.view he⟩

theorem stable_open : Stable (InRely size g mv) (InAt size (InOpen size g o fl)) :=
  stable_inAt (fun _ h => h.wf) fun hsize _ _ h he => h.eff hsize he

theorem stable_held {i : BufId} {l : Look} {a : Bool} {r : Option BufId} :
    Stable (InRely size g mv) (InAt size (InHeld size g o mid i l a r)) :=
  stable_inAt (fun _ h => h.wf) fun hsize _ _ h he => h.eff hsize he

/-- Under `line_in_busy` every view is stable. -/
theorem stable_busy {w : InView} (hm : w.cacheL.Mod size) (hb : w.busy = true) :
    Stable (InRely size g mv) (InAt size fun v => v = w) := by
  refine stable_inAt (fun v hv => hv ▸ InWf.of_busy hm hb) fun _ v v' hv he => ?_
  subst hv
  exact he.eq_of_busy hb

end Stability

/-! ## What every point shares -/

section Seen

variable {n : ℕ} {s : Sys}

theorem mem_entry {p q : Bytes} (h : p ∈ entry q) : p = q := by
  unfold entry at h
  split_ifs at h
  · cases h
  · exact List.mem_singleton.mp h

theorem InView.Holds.of_entries (hfl : fl.length ≤ n)
    (h : v.acked = v.returned ++ fl ++ (entry v.inL.content ++ entry v.cacheL.content)) :
    v.Holds n := by
  refine ⟨fl, _, hfl, h, fun p hp => ?_, fun _ => rfl⟩
  rcases List.mem_append.mp hp with hp | hp
  · exact .inl (mem_entry hp)
  · exact .inr (mem_entry hp)

theorem InOpen.seen (hp : v.pIn.isIn = true) (hc : v.pCache.isIn = true) (h : InOpen size g o fl v)
    (hfl : fl.length ≤ n) : Seen size g n v := by
  refine ⟨fun _ => h.core.ne, ?_, fun _ => ⟨h.reading, h.core.swap⟩, h.core.cacheMod, ?_, h.core.safe, ?_,
    h.wf⟩
  · rw [h.reading]
    intro hf
    cases hf
  · intro hg i hi
    rcases BufId.isIn_cases hi hp hc h.core.ne with rfl | rfl
    · exact ⟨h.inMod, (h.inOrdered hg).le⟩
    · exact ⟨h.core.cacheMod, (h.core.ordered hg).le⟩
  · intro hg
    refine .of_entries hfl ?_
    rw [h.core.ledger hg]
    simp only [List.append_assoc]

theorem InHeld.seen {i : BufId} {l : Look} {a : Bool} {r : Option BufId} (hp : v.pIn.isIn = true)
    (hc : v.pCache.isIn = true) (h : InHeld size g o mid i l a r v) (hr : r = none ∨ r = some i)
    (hl : g → l.Mod size ∧ l.readPos ≤ l.writePos)
    (hmid : g → ∃ fl : List Bytes, fl.length ≤ n ∧ mid = fl ++ entry l.content) :
    Seen size g n v := by
  refine ⟨fun _ => h.core.ne, ?_, fun hf => absurd (h.core.locked.symm.trans hf) (by decide),
    h.core.cacheMod, ?_, h.core.safe, ?_, h.wf⟩
  · rw [h.reading]
    rintro hf
    rcases hr with hr | hr
    · exact absurd (hr.symm.trans hf) (by simp)
    · have heq : i = v.pCache := Option.some.inj (hr.symm.trans hf)
      exact h.core.ne (h.pIn.trans heq)
  · intro hg j hj
    rcases BufId.isIn_cases hj hp hc h.core.ne with rfl | rfl
    · have hin : v.look v.pIn = l := h.inL
      rw [hin]
      exact hl hg
    · exact ⟨h.core.cacheMod, (h.core.ordered hg).le⟩
  · intro hg
    obtain ⟨fl, hfl, hm⟩ := hmid hg
    refine .of_entries hfl ?_
    rw [h.core.ledger hg, hm, h.inL]
    simp only [List.append_assoc]

theorem seen_open (hfl : fl.length ≤ n) (s : Sys) (h : InAt size (InOpen size g o fl) s) :
    InAt size (Seen size g n) s :=
  ⟨h.shape, h.rx, h.view.seen h.shape.inBuf h.shape.inCache hfl⟩

theorem seen_held {i : BufId} {l : Look} {a : Bool} {r : Option BufId} (hr : r = none ∨ r = some i)
    (hl : g → l.Mod size ∧ l.readPos ≤ l.writePos)
    (hmid : g → ∃ fl : List Bytes, fl.length ≤ n ∧ mid = fl ++ entry l.content) (s : Sys)
    (h : InAt size (InHeld size g o mid i l a r) s) : InAt size (Seen size g n) s :=
  ⟨h.shape, h.rx, h.view.seen h.shape.inBuf h.shape.inCache hr hl hmid⟩

theorem seen_busy {w : InView} (hw : Seen size g n w) (s : Sys) (h : InAt size (fun v => v = w) s) :
    InAt size (Seen size g n) s := ⟨h.shape, h.rx, by rw [h.view]; exact hw⟩

/-- The two pointers may change places while `swap` is set, as long as one of them names the buffer
that holds the message. -/
theorem InOpen.seen_swapping (h : InOpen size g o [] v) (hb : v.busy = true) (hs : Seen size g n v)
    (he : ¬v.inL.Loaded) (i : BufId) {j : BufId} (hj : (v.look j).Mod size) (hij : i = v.pCache ∨ j = v.pCache)
    (a : Bool) :
    Seen size g n { v with pIn := i, pCache := j, swap := true, locked := true, avail := a } := by
  obtain ⟨-, -, -, -, h3, h4, -⟩ := hs
  refine ⟨fun hf => absurd hf (by simp), ?_, fun hf => absurd hf (by simp), hj, h3, h4, fun hg => ?_,
    .of_busy hj hb⟩
  · rw [h.reading]
    intro hf
    cases hf
  · refine ⟨[], entry v.cacheL.content, Nat.zero_le _, ?_, fun p hp => ?_, fun hf => absurd hf (by simp)⟩
    · show v.acked = v.returned ++ [] ++ entry v.cacheL.content
      rw [h.core.ledger hg, (h.inOrdered hg).content_eq_nil he, entry_nil, List.append_nil]
    · rw [mem_entry hp]
      rcases hij with rfl | rfl
      · exact .inl rfl
      · exact .inr rfl

/-- The pointers have changed places, with nothing in the one buffer. -/
theorem InOpen.seen_swapped (h : InOpen size g o [] v) (hb : v.busy = true) (hs : Seen size g n v)
    (he : ¬v.inL.Loaded) (m a : Bool) :
    Seen size g n { v with pIn := v.pCache, pCache := v.pIn, locked := m, avail := a } := by
  obtain ⟨-, -, -, -, h3, h4, -⟩ := hs
  refine ⟨fun _ => h.core.ne.symm, ?_, fun _ => ⟨h.reading, h.core.swap⟩, h.inMod, h3, h4, fun hg => ?_,
    .of_busy h.inMod hb⟩
  · rw [h.reading]
    intro hf
    cases hf
  · have hnil : ([] : List Bytes).length ≤ n := Nat.zero_le _
    refine .of_entries hnil ?_
    show v.acked = v.returned ++ [] ++ (entry v.cacheL.content ++ entry v.inL.content)
    rw [h.core.ledger hg, (h.inOrdered hg).content_eq_nil he, entry_nil]
    simp only [List.append_nil]

end Seen

/-! ## Steps of the main loop -/

section Steps

variable {Φ Φ' : InView → Prop} {s s' : Sys}

theorem RxOk.congr (h : RxOk size s) (hs : s'.spi = s.spi)
    (hl : s'.link.pBufferInCache = s.link.pBufferInCache) (hc : s'.cacheB = s.cacheB) :
    RxOk size s' := by
  obtain ⟨h1, h2, h3⟩ := h
  refine ⟨fun p hp => ?_, fun p hp => ?_, fun p hp => ?_⟩
  · rw [hl, hc]; exact h1 p (hs ▸ hp)
  · rw [hc, hs]; exact h2 p (hs ▸ hp)
  · rw [hc]; exact h3 p (hs ▸ hp)

/-- With a message in the cache the receive pointer is null. -/
theorem InAt.unarmed (h : InAt size Φ s) (hl : (inView s).cacheL.Loaded) : s.spi.pDataIn = none := by
  cases hp : s.spi.pDataIn with
  | none => rfl
  | some p =>
    rw [cacheL_inView h.shape] at hl
    exact absurd hl (h.rx.unloaded p hp)

theorem InAt.mono (h : InAt size Φ s) (hΦ : ∀ v, Φ v → Φ' v) : InAt size Φ' s :=
  ⟨h.shape, h.rx, hΦ _ h.view⟩

theorem InAt.mapLink (h : InAt size Φ s) {f : Spils → Spils} (hf : (f s.link).core = s.link.core)
    (hΦ : Φ' (inView (s.mapLink f))) : InAt size Φ' (s.mapLink f) := by
  have hcore := hf
  simp only [Spils.core, Prod.mk.injEq] at hcore
  have hc : (s.mapLink f).link.pBufferInCache = s.link.pBufferInCache := hcore.2.2.1
  refine ⟨h.shape.mapLink f hf, h.rx.congr rfl hc ?_, hΦ⟩
  unfold Sys.cacheB
  rw [hc]
  rfl

theorem InAt.mapGhost (h : InAt size Φ s) {k : Ghost → Ghost} (hΦ : Φ' (inView (s.mapGhost k))) :
    InAt size Φ' (s.mapGhost k) := ⟨h.shape.congr rfl rfl, h.rx.congr rfl rfl rfl, hΦ⟩

theorem InAt.mapSlave (h : InAt size Φ s) {k : SpiSlave → SpiSlave}
    (hΦ : Φ' (inView (s.mapSlave k))) : InAt size Φ' (s.mapSlave k) :=
  ⟨h.shape.congr rfl rfl, h.rx.congr rfl rfl rfl, hΦ⟩

theorem InAt.log (h : InAt size Φ s) {x : Obs} (hΦ : Φ' (inView (s.log x))) : InAt size Φ' (s.log x) :=
  ⟨h.shape.congr rfl rfl, h.rx.congr rfl rfl rfl, hΦ⟩

/-- Assignment to a buffer other than the cache. -/
theorem InAt.setBuf (h : InAt size Φ s) {i : BufId} (hi : i ≠ s.link.pBufferInCache) {b : Buffer}
    (hb : b.Sized size) (hΦ : Φ' (inView (s.setBuf i b))) : InAt size Φ' (s.setBuf i b) :=
  ⟨h.shape.setBuf i hb, h.rx.congr rfl rfl (Pool.get_set_of_ne _ _ hi), hΦ⟩

variable {R : Sys → Sys → Prop} {A P : Sys → Prop} {α : Type} {Q : α → Sys → Prop}

/-- The trylock of a mutex that is free. -/
theorem wp_mutexInTrylock {k : Bool → Code α} (hst : Stable R P) (hA : ∀ s, P s → A s) (hP : P s)
    (hfree : ∀ s, P s → s.link.mutexIn = false) (h : ∀ s, P s → wp R A (k true) Q s.lockIn) :
    wp R A (mutexInTrylock >>= k) Q s := by
  refine wp_atomic hst hA hP fun t ht => ⟨true, t.lockIn, ?_, h t ht⟩
  exact if_neg (by rw [hfree t ht]; decide)

end Steps

/-! ## `spils_poll` -/

section Poll

variable {mv : InView → Prop} {s : Sys} {w : InView}

/-- `line_in_busy` is set, and the input mutex is free or held by the main loop. -/
structure Busy (size : ℕ) (g o : Prop) (w : InView) : Prop where
  openAt : InOpen size g o [] w
  busy : w.busy = true
  isIn : w.pIn.isIn = true ∧ w.pCache.isIn = true

theorem Busy.seen (h : Busy size g o w) : Seen size g 0 w :=
  h.openAt.seen h.isIn.1 h.isIn.2 (Nat.zero_le _)

/-- Every view that differs from `w` in the pointers and in flags only is stable, as long as
`line_in_busy` is set. -/
theorem Busy.stable (h : Busy size g o w) (i j : BufId) (sw m a : Bool) (hj : j = w.pIn ∨ j = w.pCache) :
    Stable (InRely size g mv) (InAt size fun v =>
      v = { w with pIn := i, pCache := j, swap := sw, locked := m, avail := a }) := by
  refine stable_busy ?_ h.busy
  rcases hj with rfl | rfl
  · exact h.openAt.inMod
  · exact h.openAt.core.cacheMod

/-- The swap of a cache that holds a message, under `line_in_busy`. -/
theorem wp_swapIn (hw : Busy size g o w) (hl : w.cacheL.Loaded) (he : ¬w.inL.Loaded)
    (h : InAt size (fun v => v = { w with locked := true }) s) :
    wp (InRely size g mv) (InAt size (Seen size g 0)) bufferInCacheSwap
      (fun _ => InAt size fun v => v = { w with pIn := w.pCache, pCache := w.pIn, locked := true }) s := by
  have hswap := hw.openAt.core.swap
  have hseen := hw.seen
  have hlocked : Seen size g 0 { w with locked := true } := by
    obtain ⟨h1, h2, -, h4, h5, h6, h7, -⟩ := hseen
    exact ⟨h1, h2, fun hf => absurd hf (by simp), h4, h5, h6, h7, .of_busy h4 hw.busy⟩
  have hst : ∀ (i j : BufId) (sw : Bool), j = w.pIn ∨ j = w.pCache →
      Stable (InRely size g mv) (InAt size fun v =>
        v = { w with pIn := i, pCache := j, swap := sw, locked := true }) :=
    fun i j sw hj => hw.stable i j sw true w.avail hj
  have hin := hw.openAt.inMod
  have hcache := hw.openAt.core.cacheMod
  have hmid := fun i (j : BufId) (hj : (w.look j).Mod size) hij =>
    seen_busy (hw.openAt.seen_swapping hw.busy hseen he i hj hij w.avail)
  unfold bufferInCacheSwap
  refine wp_read_of (P := InAt size fun v => v = { w with locked := true }) w.pIn
    (hst w.pIn w.pCache w.swap (.inr rfl)) (seen_busy hlocked) h
    (fun t ht => congrArg InView.pIn ht.view) fun t ht => ?_
  refine wp_write (P := InAt size fun v => v = { w with locked := true })
    (hst w.pIn w.pCache w.swap (.inr rfl)) (seen_busy hlocked) ht fun t ht => ?_
  refine wp_write (P := InAt size fun v => v = { w with swap := true, locked := true })
    (hst w.pIn w.pCache true (.inr rfl)) (hmid w.pIn w.pCache hcache (.inr rfl))
    (ht.mapGhost (congrArg (fun v : InView => { v with swap := true }) ht.view)) fun t ht => ?_
  refine wp_write (P := InAt size fun v => v = { w with pIn := w.pCache, swap := true, locked := true })
    (hst w.pCache w.pCache true (.inr rfl)) (hmid w.pCache w.pCache hcache (.inl rfl)) ?_ fun t ht => ?_
  · refine ⟨?_, ht.rx.congr rfl rfl rfl,
      congrArg (fun v : InView => { v with pIn := v.pCache }) ht.view⟩
    obtain ⟨h1, h2, h3, h4, h5, h6, h7⟩ := ht.shape
    exact ⟨h1, h2, h3, h5, h5, h6, h7⟩
  have hnone : t.spi.pDataIn = none := ht.unarmed (by rw [ht.view]; exact hl)
  refine wp_write_last
    (P := InAt size fun v => v = { w with pIn := w.pCache, pCache := w.pIn, swap := true, locked := true })
    (hst w.pCache w.pIn true (.inl rfl)) (hmid w.pCache w.pIn hin (.inl rfl)) ?_ ?_ ?_ fun t ht => ?_
  · refine ⟨?_, ⟨fun p hp => ?_, fun p hp => ?_, fun p hp => ?_⟩,
      congrArg (fun v : InView => { v with pCache := w.pIn }) ht.view⟩
    · obtain ⟨h1, h2, h3, h4, h5, h6, h7⟩ := ht.shape
      exact ⟨h1, h2, h3, h4, hw.isIn.1, h6, h7⟩
    all_goals exact absurd (hnone.symm.trans hp) (by simp)
  · exact hst w.pCache w.pIn w.swap (.inl rfl)
  · exact seen_busy (hw.openAt.seen_swapped hw.busy hseen he true w.avail)
  · refine ht.mapGhost ?_
    refine (congrArg (fun v : InView => { v with swap := false }) ht.view).trans ?_
    exact congrArg (fun b => ({ w with
      pIn := w.pCache, pCache := w.pIn, swap := b, locked := true } : InView)) hswap.symm

/-- Giving the mutex back. -/
theorem InHeld.unlock {o' : Prop} {i : BufId} {l : Look} {a : Bool}
    (h : InHeld size g o (fl ++ entry l.content) i l a none v) (hm : l.Mod size) (ho : g → l.Ordered)
    (ha : a = true ↔ l.Loaded) (hoo : o' → o) : InOpen size g o' fl { v with locked := false } := by
  obtain ⟨⟨h1, -, h3, h4, h5, h6, h7, h8⟩, hp, hin, hav, hr, hn⟩ := h
  have hin' : ({ v with locked := false } : InView).inL = l := hin
  refine ⟨⟨h1, rfl, h3, h4, h5, h6, ?_, h8⟩, ?_, ?_, ?_, hr, ?_⟩
  · rw [hin']; exact h7
  · rw [hin']; exact hm
  · rw [hin']; exact ho
  · rw [hin']
    show v.avail = true ↔ _
    rw [hav]
    exact ha
  · intro hoo' hl
    rw [hin'] at hl
    exact hn (hoo hoo') hl

theorem InOpen.mono {o' : Prop} (h : InOpen size g o fl v) (ho : o' → o) : InOpen size g o' fl v :=
  ⟨h.core, h.inMod, h.inOrdered, h.avail, h.reading, fun h' => h.noted (ho h')⟩

/-- The end of every path of `_buffer_in_cache_data_move`: the lock is given back. -/
theorem wp_unlockIn {α : Type} {i : BufId} {l : Look} {a : Bool} {n : ℕ} {Q : α → Sys → Prop}
    {k : Unit → Code α} (hm : l.Mod size) (ho : g → l.Ordered) (ha : a = true ↔ l.Loaded)
    (hfl : fl.length ≤ n) (h : InAt size (InHeld size g o (fl ++ entry l.content) i l a none) s)
    (hk : ∀ s, InAt size (InOpen size g o fl) s →
      wp (InRely size g mv) (InAt size (Seen size g n)) (k ()) Q s) :
    wp (InRely size g mv) (InAt size (Seen size g n)) (mutexInUnlock >>= k) Q s := by
  refine wp_write stable_held
    (seen_held (.inl rfl) (fun hg => ⟨hm, (ho hg).le⟩) fun _ => ⟨fl, hfl, rfl⟩) h fun t ht => ?_
  exact hk _ (ht.mapLink rfl (ht.view.unlock hm ho ha id))

/-- Nothing was in the cache: `line_in_busy` is withdrawn. -/
theorem Busy.withdrawn (h : Busy size g o w) (hl : ¬w.cacheL.Loaded) :
    InHeld size g o ([] ++ entry w.inL.content) w.pIn w.inL w.avail none
      { w with locked := true, busy := false } := by
  obtain ⟨⟨⟨h1, -, h3, h4, h5, h6, h7, h8⟩, -, -, -, hr, hn⟩, -, -⟩ := h
  exact ⟨⟨h1, rfl, h3, h4, fun _ => hl, h6, h7, h8⟩, rfl, rfl, rfl, hr, hn⟩

/-- The message of the cache is in `p_buffer_in`. -/
theorem Busy.moved (h : Busy size g o w) (he : ¬w.inL.Loaded) :
    InHeld size g (o ∧ Result.ok ≠ .ok) ([] ++ entry w.cacheL.content) w.pCache w.cacheL true none
      { w with pIn := w.pCache, pCache := w.pIn, locked := true, avail := true, busy := false } := by
  obtain ⟨⟨⟨h1, -, h3, h4, h5, h6, h7, h8⟩, hm, ho, -, hr, -⟩, -, -⟩ := h
  refine ⟨⟨h1.symm, rfl, h3, hm, fun _ => he, ho, fun hg => ?_, h8⟩, rfl, rfl, rfl, hr,
    fun hf => absurd rfl hf.2⟩
  show w.acked = w.returned ++ ([] ++ entry w.cacheL.content) ++ entry w.inL.content
  rw [h7 hg, (ho hg).content_eq_nil he, entry_nil]
  simp only [List.append_nil, List.nil_append]

/-- `_buffer_in_cache_data_move` from `spils_poll`; after a move the notification is still owed. -/
theorem wp_moveIn (hw : Busy size g o w) (h : InAt size (fun v => v = w) s) :
    wp (InRely size g mv) (InAt size (Seen size g 0)) bufferInCacheDataMove
      (fun r => InAt size (InOpen size g (o ∧ r ≠ .ok) [])) s := by
  have hopen := hw.openAt
  have hlock : w.locked = false := hopen.core.locked
  have hst : Stable (InRely size g mv) (InAt size fun v => v = { w with locked := true }) :=
    stable_busy hopen.core.cacheMod hw.busy
  have hA : ∀ t, InAt size (fun v => v = { w with locked := true }) t → InAt size (Seen size g 0) t := by
    obtain ⟨h1, h2, -, h4, h5, h6, h7, -⟩ := hw.seen
    exact seen_busy ⟨h1, h2, fun hf => absurd hf (by simp), h4, h5, h6, h7, .of_busy h4 hw.busy⟩
  have hfin : ∀ (r : Result) (t : Sys), InAt size (InOpen size g o []) t →
      wp (InRely size g mv) (InAt size (Seen size g 0)) (pure r)
        (fun r => InAt size (InOpen size g (o ∧ r ≠ .ok) [])) t :=
    fun r t ht => wp_pure stable_open (seen_open (Nat.zero_le _))
      (ht.mono fun v hv => hv.mono fun ho => ho.1)
  unfold bufferInCacheDataMove
  refine wp_mutexInTrylock (P := InAt size fun v => v = w)
    (stable_busy hopen.core.cacheMod hw.busy) (seen_busy hw.seen) h
    (fun t ht => (congrArg InView.locked ht.view).trans hlock) fun t ht => ?_
  rw [if_neg (by decide)]
  refine wp_read hst hA (ht.mapLink rfl (congrArg (fun v : InView => { v with locked := true }) ht.view))
    fun t ht => ?_
  have hc : t.cacheB.look = w.cacheL := by
    rw [← cacheL_inView ht.shape, ht.view]
    rfl
  have hcm : t.cacheB.look.Mod size := hc ▸ hopen.core.cacheMod
  by_cases hl : w.cacheL.Loaded
  · rw [if_neg ((Buffer.getLoadsize_ne_zero hcm).mpr (hc ▸ hl))]
    refine wp_read hst hA ht fun t ht => ?_
    have hi : t.inB.look = w.inL := by
      rw [← inL_inView ht.shape, ht.view]
      rfl
    have him : t.inB.look.Mod size := hi ▸ hopen.inMod
    by_cases he : w.inL.Loaded
    · rw [if_pos ((Buffer.getLoadsize_ne_zero him).mpr (hi ▸ he))]
      refine wp_write hst hA ht fun t ht => hfin _ _ (ht.mapLink rfl ?_)
      have hv : inView (t.mapLink fun l => { l with mutexIn := false }) = w := by
        refine (congrArg (fun v : InView => { v with locked := false }) ht.view).trans ?_
        exact congrArg (fun b => ({ w with locked := b } : InView)) hlock.symm
      rw [hv]
      exact hopen
    · rw [if_neg (not_not.mpr ((Buffer.getLoadsize_eq_zero him).mpr (hi ▸ he)))]
      refine wp_bind (wp_mono (wp_swapIn hw hl he ht) fun _ t ht => ?_)
      refine wp_write (hw.stable w.pCache w.pIn w.swap true w.avail (.inl rfl))
        (seen_busy (hopen.seen_swapped hw.busy hw.seen he true w.avail)) ht fun t ht => ?_
      refine wp_write (hw.stable w.pCache w.pIn w.swap true true (.inl rfl))
        (seen_busy (hopen.seen_swapped hw.busy hw.seen he true true))
        (ht.mapLink rfl (congrArg (fun v : InView => { v with avail := true }) ht.view)) fun t ht => ?_
      refine wp_unlockIn (i := w.pCache) hopen.core.cacheMod hopen.core.ordered
        ⟨fun _ => hl, fun _ => rfl⟩ (Nat.zero_le _) (ht.mapLink rfl ?_) fun t ht =>
          wp_pure stable_open (seen_open (Nat.zero_le _)) ht
      have hv := congrArg (fun v : InView => { v with busy := false }) ht.view
      exact (congrArg _ hv).mpr (hw.moved he)
  · rw [if_pos ((Buffer.getLoadsize_eq_zero hcm).mpr (hc ▸ hl))]
    refine wp_write hst hA ht fun t ht => ?_
    refine wp_unlockIn (i := w.pIn) hopen.inMod hopen.inOrdered hopen.avail (Nat.zero_le _) (ht.mapLink rfl ?_)
      fun t ht => hfin _ _ ht
    have hv := congrArg (fun v : InView => { v with busy := false }) ht.view
    exact (congrArg _ hv).mpr (hw.withdrawn hl)

/-- The connection machine is out of view. -/
theorem conFrame_inAt (Φ : InView → Prop) : ConFrame (InAt size Φ) where
  link s f hf h := by
    have hcore := Spils.field_eq hf Spils.core fun _ => rfl
    refine h.mapLink hcore ?_
    have hv : inView (s.mapLink f) = inView s :=
      calc inView (s.mapLink f) = inView (s.mapLink fun _ => (f s.link).sansCon) := rfl
        _ = inView (s.mapLink fun _ => s.link.sansCon) := by rw [hf]
        _ = inView s := rfl
    rw [hv]
    exact h.view
  event s e he h := by
    have hs : InAt size Φ (s.mapSlave (spilsEventHandler e)) := by
      refine h.mapSlave ?_
      rcases he with rfl | rfl <;> exact h.view
    refine hs.log ?_
    rw [inView_log (x := .event e) trivial]
    exact hs.view

/-- `spils_poll` keeps what is between two calls. -/
theorem wp_spilsPoll (h : InAt size (InOpen size g o []) s) :
    wp (InRely size g mv) (InAt size (Seen size g 0)) spilsPoll
      (fun _ => InAt size (InOpen size g o [])) s := by
  have hA : ∀ t, InAt size (InOpen size g o []) t → InAt size (Seen size g 0) t :=
    seen_open (Nat.zero_le _)
  unfold spilsPoll lineInBusyProcess
  have hst : Stable (InRely size g mv) (InAt size (InOpen size g o [])) := stable_open
  have hcon := wp_frame hst (conFrame_inAt _).conMachine h
  refine wp_bind (wp_mono (wp_always_mono hcon hA) fun _ t ht => ?_)
  refine wp_read stable_open hA ht fun t ht => ?_
  by_cases hb : t.link.lineInBusy = false
  · rw [if_pos hb]
    exact wp_pure stable_open hA ht
  · rw [if_neg hb]
    have hbusy : t.link.lineInBusy = true := by simpa using hb
    have hw : Busy size g o (inView t) := ⟨ht.view, hbusy, ht.shape.inBuf, ht.shape.inCache⟩
    refine wp_bind (wp_mono (wp_moveIn hw ⟨ht.shape, ht.rx, rfl⟩) fun r t ht => ?_)
    by_cases hr : r = .ok
    · rw [if_pos hr]
      -- the notification that was owed
      refine wp_write_last stable_open (seen_open (Nat.zero_le _)) ht stable_open hA fun t ht => ?_
      have hs : InAt size (InOpen size g o []) (t.mapSlave (spilsEventHandler .dataInReady)) := by
        refine ht.mapSlave ?_
        obtain ⟨h1, h2, h3, h4, h5, -⟩ := ht.view
        obtain ⟨g1, g2, g3, g4, g5, g6, g7, g8⟩ := h1
        exact ⟨⟨g1, g2, g3, g4, g5, g6, g7, g8⟩, h2, h3, h4, h5, fun _ _ => rfl⟩
      refine hs.log ?_
      rw [inView_log (x := .event .dataInReady) trivial]
      exact hs.view
    · rw [if_neg hr]
      exact wp_pure stable_open hA (ht.mono fun v hv => hv.mono fun ho => ⟨ho, hr⟩)

end Poll

/-! ## `spils_data_read` -/

section Read

variable {mv : InView → Prop} {s : Sys} {i : BufId} {l l' : Look} {a : Bool} {r : Option BufId} {n : ℕ}

/-- Assignment to the buffer that the main loop holds. -/
theorem InHeld.put (h : InHeld size g o mid i l a r v) (hn : o → l'.Loaded → v.flag = true) :
    InHeld size g o mid i l' a r (v.put i l') := by
  obtain ⟨⟨h1, h2, h3, h4, h5, h6, h7, h8⟩, hp, -, ha, hr, -⟩ := h
  subst hp
  have hc : (v.put v.pIn l').cacheL = v.cacheL := v.look_put_of_ne l' h1.symm
  refine ⟨⟨h1, h2, h3, ?_, ?_, ?_, ?_, h8⟩, rfl, v.look_put _ _, ha, hr, hn⟩
  · rw [hc]; exact h4
  · rw [hc]; exact h5
  · rw [hc]; exact h6
  · rw [hc]; exact h7

/-- The buffer that the main loop holds. -/
theorem InAt.held (h : InAt size (InHeld size g o mid i l a r) s) :
    i.isIn = true ∧ i ≠ s.link.pBufferInCache ∧ (s.pool.get i).look = l := by
  have hi : s.link.pBufferIn = i := h.view.pIn
  refine ⟨hi ▸ h.shape.inBuf, hi ▸ h.view.core.ne, ?_⟩
  rw [← hi]
  exact (inL_inView h.shape).symm.trans h.view.inL

theorem InAt.setHeld (h : InAt size (InHeld size g o mid i l a r) s) {b : Buffer} (hb : b.Sized size)
    (hn : o → b.look.Loaded → (inView s).flag = true) :
    InAt size (InHeld size g o mid i b.look a r) (s.setBuf i b) := by
  obtain ⟨hi, hc, -⟩ := h.held
  refine h.setBuf hc hb ?_
  rw [inView_setBuf hi]
  exact h.view.put hn

/-- The whole load of a buffer, cut to 8 bits, is never more than there is. -/
theorem Buffer.getFromPosition_getLoadsize (b : Buffer) (pos : ℕ) :
    b.getFromPosition pos b.getLoadsize = (.ok, (b.data.drop pos).take b.getLoadsize) :=
  if_neg (Nat.not_lt.mpr (Nat.mod_le _ _))

theorem inView_log_bufferGet (s : Sys) (pos len size : ℕ) :
    inView (s.log (.bufferGet pos len size)) =
      { inView s with safe := (inView s).safe && decide (pos + len ≤ size) } := by
  have hack : acked (s.ghost.trace ++ [.bufferGet pos len size]) = acked s.ghost.trace :=
    acked_local trivial
  have hret : returned (s.ghost.trace ++ [.bufferGet pos len size]) = returned s.ghost.trace := by
    rw [returned_append, List.append_nil]
  have hsafe : (s.ghost.trace ++ [Obs.bufferGet pos len size]).all
      (Obs.safe s.link.messageSizeMax) =
        (s.ghost.trace.all (Obs.safe s.link.messageSizeMax) && decide (pos + len ≤ size)) := by
    rw [List.all_append]
    exact congrArg _ (Bool.and_true _)
  unfold inView
  rw [Sys.trace_log, Sys.link_log, hack, hret, hsafe]
  rfl

/-- A read of the whole load of the buffer that the main loop holds. -/
theorem InAt.logGet (hm : l.Mod size) (ho : g → l.Ordered)
    (h : InAt size (InHeld size g o mid i l a r) s) :
    InAt size (InHeld size g o mid i l a r)
      (s.log (.bufferGet l.readPos (u8 l.loadsize) (s.pool.get i).data.length)) := by
  refine h.log ?_
  rw [inView_log_bufferGet]
  obtain ⟨⟨h1, h2, h3, h4, h5, h6, h7, h8⟩, hp, hin, ha, hr, hn⟩ := h.view
  refine ⟨⟨h1, h2, h3, h4, h5, h6, h7, fun hg => ?_⟩, hp, hin, ha, hr, hn⟩
  have hlen : (s.pool.get i).data.length = size := (h.shape.sized i).data_len
  have hle := (ho hg).le
  have hw := hm.write_le
  rw [hm.load_exact hle, hlen]
  show ((inView s).safe && _) = true
  rw [h8 hg, Bool.true_and, decide_eq_true_iff]
  omega

/-- The content has been taken out, and only positions are left. -/
def Drained (size : ℕ) (g : Prop) (l : Look) : Prop :=
  g → (l.Mod size ∧ l.readPos ≤ l.writePos) ∧ l.content = []

theorem drained_empty (hsize : size ≤ 255) : Drained size g (.empty size) :=
  fun _ => ⟨⟨Look.mod_empty hsize, Nat.le_refl _⟩, rfl⟩

theorem seen_drained (hl : Drained size g l') (hr : r = none ∨ r = some i) (s : Sys)
    (h : InAt size (InHeld size g o (entry l.content) i l' a r) s) : InAt size (Seen size g 1) s :=
  seen_held hr (fun hg => (hl hg).1)
    (fun hg => ⟨entry l.content, entry_length_le _, by rw [(hl hg).2, entry_nil, List.append_nil]⟩) s h

/-- The read position moves over the whole load. -/
theorem drained_updateReadPos {b : Buffer} (hb : b.look.Mod size) (ho : g → b.look.Ordered) :
    Drained size g (b.updateReadPos (i16 (u8 b.look.loadsize))).look := by
  intro hg
  have hle : b.readPos ≤ b.writePos := (ho hg).le
  have hn : u8 b.look.loadsize = b.writePos - b.readPos := hb.load_exact hle
  have hw : b.writePos ≤ size := hb.write_le
  have hsize := hb.size_le
  have h16 : i16 (u8 b.look.loadsize) = (b.writePos - b.readPos : ℕ) := by
    rw [hn]
    exact i16_of_lt (by omega)
  obtain ⟨hmod, hread⟩ := Buffer.mod_updateReadPos hb (i16 (u8 b.look.loadsize)) (by omega) (by omega)
  have hpos : (b.updateReadPos (i16 (u8 b.look.loadsize))).readPos =
      (b.updateReadPos (i16 (u8 b.look.loadsize))).writePos := by
    rw [Buffer.writePos_updateReadPos]
    omega
  refine ⟨⟨hmod, Nat.le_of_eq hpos⟩, ?_⟩
  show List.take _ _ = []
  rw [hpos, Nat.sub_self, List.take_zero]

/-- The read and the discard of `spils_data_read`. -/
theorem wp_bufferGetAndDiscard (hm : l.Mod size) (ho : g → l.Ordered) (hl : l.Loaded)
    (h : InAt size (InHeld size g o (entry l.content) i l true (some i)) s) :
    wp (InRely size g mv) (InAt size (Seen size g 1)) (bufferGetAndDiscard i (u8 l.loadsize))
      (fun r s => (r.1 = .ok ∧ (g → r.2 = l.content)) ∧ ∃ l', Drained size g l' ∧
        InAt size (InHeld size g o (entry l.content) i l' true (some i)) s) s := by
  have hA : ∀ t, InAt size (InHeld size g o (entry l.content) i l true (some i)) t →
      InAt size (Seen size g 1) t :=
    seen_held (.inr rfl) (fun hg => ⟨hm, (ho hg).le⟩) fun _ => ⟨[], Nat.zero_le _, rfl⟩
  unfold bufferGetAndDiscard
  refine wp_read_of l.readPos stable_held hA h
    (fun t ht => congrArg Look.readPos ht.held.2.2) fun t ht => ?_
  refine wp_atomic stable_held hA ht fun t ht => ?_
  obtain ⟨hi, hc, hlook⟩ := ht.held
  have hn : u8 l.loadsize = (t.pool.get i).getLoadsize := by rw [← hlook]; rfl
  refine ⟨(.ok, ((t.pool.get i).data.drop l.readPos).take (u8 l.loadsize)),
    t.log (.bufferGet l.readPos (u8 l.loadsize) (t.pool.get i).data.length), ?_, ?_⟩
  · dsimp only
    rw [hn, Buffer.getFromPosition_getLoadsize, if_pos rfl]
  rw [if_neg (show ¬Result.ok = Result.err by decide)]
  have hcont : g → ((t.pool.get i).data.drop l.readPos).take (u8 l.loadsize) = l.content := by
    intro hg
    rw [hm.load_exact (ho hg).le, ← hlook]
    rfl
  have hlog := ht.logGet hm ho
  generalize ((t.pool.get i).data.drop l.readPos).take (u8 l.loadsize) = data at hcont ⊢
  refine wp_write stable_held hA hlog fun t ht => ?_
  obtain ⟨hi, hc, hlook⟩ := ht.held
  refine wp_pure ?_ ?_ ⟨⟨rfl, hcont⟩, _, ?_, ht.setHeld ((ht.shape.sized i).updateReadPos _) ?_⟩
  · exact (Stable.exists fun l' => stable_held.const_and _).const_and _
  · rintro t ⟨-, l', hl', ht⟩
    exact seen_drained hl' (.inr rfl) t ht
  · have hdrained := drained_updateReadPos (g := g) (b := t.pool.get i) (hlook.symm ▸ hm)
      (hlook.symm ▸ ho)
    rw [hlook] at hdrained
    exact hdrained
  · intro ho' _
    exact ht.view.noted ho' hl

theorem inView_log_readRet (s : Sys) (d : DataRead) (hd : d.result = .ok) :
    inView (s.log (.readRet d.result d.dataSize d.data)) =
      { inView s with
        returned := (inView s).returned ++ entry d.data
        safe := (inView s).safe &&
          (Obs.readRet d.result d.dataSize d.data).safe s.link.messageSizeMax } := by
  have hack : acked (s.ghost.trace ++ [.readRet d.result d.dataSize d.data]) = acked s.ghost.trace :=
    acked_local trivial
  have hret : returned (s.ghost.trace ++ [.readRet d.result d.dataSize d.data]) =
      returned s.ghost.trace ++ entry d.data := by
    rw [returned_append, hd]
  have hsafe : (s.ghost.trace ++ [Obs.readRet d.result d.dataSize d.data]).all
      (Obs.safe s.link.messageSizeMax) =
        (s.ghost.trace.all (Obs.safe s.link.messageSizeMax) &&
          (Obs.readRet d.result d.dataSize d.data).safe s.link.messageSizeMax) := by
    rw [List.all_append]
    exact congrArg _ (Bool.and_true _)
  unfold inView
  rw [Sys.trace_log, Sys.link_log, hack, hret, hsafe]
  rfl

/-- A return with the payload that was on its way. -/
theorem wp_returnRead {d : DataRead} (hd : d.result = .ok) (hfl : fl.length ≤ 1)
    (hdata : g → fl = entry d.data)
    (hsize : g → d.dataSize.getD 0 + 2 ≤ size ∧ d.data.length + 2 ≤ size)
    (h : InAt size (InOpen size g o fl) s) :
    wp (InRely size g mv) (InAt size (Seen size g 1)) (returnRead d)
      (fun _ => InAt size (InOpen size g o [])) s := by
  unfold returnRead
  refine wp_write stable_open (seen_open hfl) h fun t ht =>
    wp_pure stable_open (seen_open (Nat.zero_le _)) (ht.log ?_)
  rw [inView_log_readRet t d hd]
  obtain ⟨⟨h1, h2, h3, h4, h5, h6, h7, h8⟩, hm, ho, ha, hr, hn⟩ := ht.view
  refine ⟨⟨h1, h2, h3, h4, h5, h6, fun hg => ?_, fun hg => ?_⟩, hm, ho, ha, hr, hn⟩
  · show (inView t).acked = ((inView t).returned ++ entry d.data) ++ ([] ++ entry (inView t).inL.content) ++
      entry (inView t).cacheL.content
    rw [h7 hg, hdata hg]
    simp only [List.append_assoc, List.nil_append]
  · obtain ⟨hs1, hs2⟩ := hsize hg
    have hmax := ht.shape.size_eq
    show ((inView t).safe && (decide (_ ≤ _) && decide (_ ≤ _))) = true
    rw [h8 hg, Bool.true_and, Bool.and_eq_true, decide_eq_true_iff, decide_eq_true_iff]
    omega

/-- `data_in_available` stays set until the main loop takes the message. -/
theorem InOpen.eff_avail {mv : Prop} (hsize : size ≤ 255)
    (h : InOpen size g o fl v ∧ v.avail = true) (he : InEff size g mv v v') :
    InOpen size g o fl v' ∧ v'.avail = true := by
  refine ⟨h.1.eff hsize he, ?_⟩
  cases he with
  | same => exact h.2
  | recycled flag hb hf => exact h.2
  | kept l p hb hfull hm hg => exact h.2
  | swapped l p hb hfree hroom hl hm hg hmv => rfl

/-- Assignment to the ghost record of the buffer being read. -/
theorem InAt.setReading (h : InAt size (InHeld size g o mid i l a r) s) (r' : Option BufId) :
    InAt size (InHeld size g o mid i l a r') (s.mapGhost fun g => { g with reading := r' }) := by
  refine h.mapGhost ?_
  obtain ⟨⟨g1, g2, g3, g4, g5, g6, g7, g8⟩, hp, hin, ha, -, hn⟩ := h.view
  exact ⟨⟨g1, g2, g3, g4, g5, g6, g7, g8⟩, hp, hin, ha, rfl, hn⟩

/-- Assignment to `data_in_available`. -/
theorem InAt.setAvailable (h : InAt size (InHeld size g o mid i l a r) s) (a' : Bool) :
    InAt size (InHeld size g o mid i l a' r) (s.mapLink fun l => { l with dataInAvailable := a' }) := by
  refine h.mapLink rfl ?_
  obtain ⟨⟨g1, g2, g3, g4, g5, g6, g7, g8⟩, hp, hin, -, hr, hn⟩ := h.view
  exact ⟨⟨g1, g2, g3, g4, g5, g6, g7, g8⟩, hp, hin, rfl, hr, hn⟩

/-- The buffer that the main loop holds is recycled. -/
theorem InAt.recycleHeld (h : InAt size (InHeld size g o mid i l a r) s) :
    InAt size (InHeld size g o mid i (.empty size) a r) (s.setBuf i (s.pool.get i).recycle) := by
  have hs := h.shape.sized i
  have hset := h.setHeld hs.recycle fun _ hf => by
    rw [Buffer.look_recycle hs] at hf
    exact absurd hf (Look.not_loaded_empty size)
  rw [Buffer.look_recycle hs] at hset
  exact hset

/-- Taking the mutex, with a message there. -/
theorem InOpen.lock (h : InOpen size g o [] v) (ha : v.avail = true) :
    InHeld size g o (entry v.inL.content) v.pIn v.inL true none { v with locked := true } := by
  obtain ⟨⟨g1, -, g3, g4, g5, g6, g7, g8⟩, -, -, -, hr, hn⟩ := h
  exact ⟨⟨g1, rfl, g3, g4, g5, g6, g7, g8⟩, rfl, rfl, ha, hr, hn⟩

/-- What `spils_data_read` still does once the message is out of the buffer. -/
theorem wp_readDone {data : Bytes} (hm : l.Mod size) (ho : g → l.Ordered) (hl : l.Loaded)
    (hdata : g → data = l.content) (hl' : Drained size g l')
    (h : InAt size (InHeld size g o (entry l.content) i l' true (some i)) s) :
    wp (InRely size g mv) (InAt size (Seen size g 1))
      (do
        writeBuf i Buffer.recycle
        writeGhost fun g => { g with reading := none }
        writeLink fun l => { l with dataInAvailable := false }
        mutexInUnlock
        returnRead ⟨.ok, some (u8 l.loadsize), data⟩)
      (fun _ => InAt size (InOpen size g o [])) s := by
  have hsize := h.shape.size_le
  have hempty := drained_empty (g := g) hsize
  refine wp_write stable_held (seen_drained hl' (.inr rfl)) h fun t ht => ?_
  refine wp_write stable_held (seen_drained hempty (.inr rfl)) ht.recycleHeld fun t ht => ?_
  refine wp_write stable_held (seen_drained hempty (.inl rfl)) (ht.setReading none) fun t ht => ?_
  have hgone : InAt size (InHeld size g o (entry l.content ++ entry (Look.empty size).content) i
      (.empty size) false none) (t.mapLink fun l => { l with dataInAvailable := false }) := by
    rw [show entry (Look.empty size).content = [] from rfl, List.append_nil]
    exact ht.setAvailable false
  refine wp_unlockIn (Look.mod_empty hsize) (fun _ => Look.ordered_empty size)
    ⟨fun hf => absurd hf (by decide), fun hf => absurd hf (Look.not_loaded_empty size)⟩
    (entry_length_le _) hgone fun t ht => ?_
  refine wp_returnRead rfl (entry_length_le _) (fun hg => by rw [hdata hg]) (fun hg => ?_) ht
  have hskip := (ho hg).skipped hl
  have hlen := (ho hg).length
  have hle := (ho hg).le
  have hw := hm.write_le
  rw [hdata hg]
  show u8 l.loadsize + 2 ≤ size ∧ l.content.length + 2 ≤ size
  rw [hm.load_exact hle]
  omega

/-- `spils_data_read` hands the message of `p_buffer_in` to its caller, with its size. -/
theorem wp_spilsDataRead_whole (h : InAt size (InOpen size g o []) s) :
    wp (InRely size g mv) (InAt size (Seen size g 1)) spilsDataRead
      (fun r t => InAt size (InOpen size g o []) t ∧
        (r.result = .ok ∧ (g → r.dataSize = some r.data.length ∧ r.data.length + 2 ≤ size))) s := by
  have hA : ∀ t, InAt size (InOpen size g o []) t → InAt size (Seen size g 1) t :=
    seen_open (Nat.zero_le _)
  have h2 : 2 ≤ size := by
    have := h.shape.size_eq
    omega
  unfold spilsDataRead
  refine wp_read stable_open hA h fun t ht => ?_
  by_cases hav : t.link.dataInAvailable = false
  · rw [if_pos hav]
    exact wp_yields (Yields.bind fun _ => yields_pure ⟨rfl, fun _ => ⟨rfl, h2⟩⟩)
      (wp_returnRead rfl (Nat.zero_le _) (fun _ => rfl) (fun _ => ⟨h2, h2⟩) ht)
  rw [if_neg hav]
  have havail : t.link.dataInAvailable = true := by simpa using hav
  -- the mutex is free, so the trylock takes it
  refine wp_mutexInTrylock (P := InAt size fun v => InOpen size g o [] v ∧ v.avail = true)
    (stable_inAt (fun _ h => h.1.wf) fun hsize _ _ h he => InOpen.eff_avail hsize h he)
    (fun t ht => hA t (ht.mono fun _ hv => hv.1)) ⟨ht.shape, ht.rx, ht.view, havail⟩
    (fun t ht => ht.view.1.core.locked) fun t ht => ?_
  rw [if_neg (by decide)]
  obtain ⟨hopen, hav⟩ := ht.view
  have hl : (inView t).inL.Loaded := hopen.avail.mp hav
  have hm := hopen.inMod
  have ho := hopen.inOrdered
  have hheld : InAt size (InHeld size g o (entry (inView t).inL.content) (inView t).pIn
      (inView t).inL true none) t.lockIn := ht.mapLink rfl (hopen.lock hav)
  generalize (inView t).pIn = i at hheld
  generalize (inView t).inL = l at hheld hl hm ho
  have hseen : ∀ r, r = none ∨ r = some i → ∀ t,
      InAt size (InHeld size g o (entry l.content) i l true r) t → InAt size (Seen size g 1) t :=
    fun r hr => seen_held hr (fun hg => ⟨hm, (ho hg).le⟩) fun _ => ⟨[], Nat.zero_le _, rfl⟩
  refine wp_read_of i stable_held (hseen none (.inl rfl)) hheld (fun t ht => ht.view.pIn) fun t ht => ?_
  refine wp_write stable_held (hseen none (.inl rfl)) ht fun t ht => ?_
  refine wp_read_of (u8 l.loadsize) stable_held (hseen _ (.inr rfl)) (ht.setReading (some i))
    (fun t ht => congrArg (fun l : Look => u8 l.loadsize) ht.held.2.2) fun t ht => ?_
  refine wp_bind (wp_mono (wp_bufferGetAndDiscard hm ho hl ht) ?_)
  rintro ⟨r, data⟩ t ⟨⟨hr, hdata⟩, l', hl', ht⟩
  have hr : r = .ok := hr
  subst hr
  rw [if_neg (show ¬Result.ok = Result.err by decide)]
  refine wp_yields ?_ (wp_readDone hm ho hl hdata hl' ht)
  refine .bind fun _ => .bind fun _ => .bind fun _ => .bind fun _ => .bind fun _ =>
    yields_pure ⟨rfl, fun hg => ?_⟩
  have hskip := (ho hg).skipped hl
  have hw := hm.write_le
  rw [hdata hg, (ho hg).length, hm.load_exact (ho hg).le]
  exact ⟨rfl, by omega⟩

/-- `spils_data_read` hands the message of `p_buffer_in` to its caller. -/
theorem wp_spilsDataRead (h : InAt size (InOpen size g o []) s) :
    wp (InRely size g mv) (InAt size (Seen size g 1)) spilsDataRead
      (fun _ => InAt size (InOpen size g o [])) s :=
  wp_mono (wp_spilsDataRead_whole h) fun _ _ ht => ht.1

end Read

/-! ## The outline -/

theorem InAt.logElsewhere {Φ : InView → Prop} {s : Sys} {x : Obs} (h : InAt size Φ s)
    (hx : x.Elsewhere) : InAt size Φ (s.log x) := by
  refine h.log ?_
  rw [inView_log hx]
  exact h.view

theorem inAt_sendRet {Φ : InView → Prop} (pData : Option Bytes) (dataSize : ℕ) (s : Sys) (r : Result)
    (h : InAt size Φ s) : InAt size Φ (s.log (.sendRet pData dataSize r)) := h.logElsewhere trivial

/-- `spils_data_send` is out of view. -/
theorem outFrame_inAt (Φ : InView → Prop) : OutFrame (InAt size Φ) where
  isOut s h := h.shape.outBuf
  link s f hf h := by
    refine h.mapLink (Spils.field_eq hf Spils.core fun _ => rfl) ?_
    have hv : inView (s.mapLink f) = inView s :=
      calc inView (s.mapLink f) = inView (s.mapLink fun _ => (f s.link).sansOut) := rfl
        _ = inView (s.mapLink fun _ => s.link.sansOut) := by rw [hf]
        _ = inView s := rfl
    rw [hv]
    exact h.view
  buf s i b hi hb h := by
    refine h.setBuf (BufId.ne_of_isIn h.shape.inCache hi).symm (hb _ (h.shape.sized i)) ?_
    rw [inView_setBuf_out hi]
    exact h.view
  filling s r h := h.mapGhost h.view
  failed s msg h := h.logElsewhere trivial

/-- How many messages a call can have on their way to the caller. -/
def LinkCall.inFlight : LinkCall → ℕ
  | .dataRead => 1
  | .poll | .dataSend _ _ => 0

theorem LinkCall.inFlight_le (k : LinkCall) : k.inFlight ≤ 1 := by
  cases k with
  | poll => exact Nat.zero_le _
  | dataRead => exact Nat.le_refl _
  | dataSend pData dataSize => exact Nat.zero_le _

/-- One complete interrupt, as the inbound half sees it. -/
theorem inRely_irq {mv : InView → Prop} {s : Sys} (hB : Base size s) (i : Irq)
    (hg : g → ∀ e, i = .edge e → NoShortPasses s e)
    (hmv : ∀ e, i = .edge e → TakesPayload s e → mv (inView s)) :
    InRely size g mv s ((irqProg i).run s).2 := by
  refine ⟨fun _ => (hB.run_irq i).shape, fun hrx hw => ?_⟩
  cases i with
  | edge e =>
    obtain ⟨he, hrx'⟩ := inEff_handled hB hrx hw (fun h => hg h e rfl) (hB.run_edge e)
    exact ⟨he.imp (hmv e rfl), hrx'⟩
  | tick ms => exact ⟨.same, hrx.congr rfl rfl rfl⟩

/-- **The inbound outline** of the link. -/
theorem outline_inbound (callOk : LinkCall → Sys → Prop) (irqOk : Irq → Sys → Prop) (size : ℕ)
    (hok : ∀ e s, irqOk (.edge e) s → g → NoShortPasses s e) :
    (linkMachine callOk irqOk).Outline
      (fun s => InAt size (InOpen size g True []) s ∧ Base size s)
      fun k s => InAt size (Seen size g k.inFlight) s ∧ Base size s := by
  refine Machine.Outline.within (R := InRely size g fun _ => True) (stable_base _ rfl size)
    (fun k => (frame_base_only size).linkProg k) ?_ stable_open fun k s h _ => ?_
  · rintro s s' hB ⟨i, hi, rfl⟩
    refine inRely_irq hB i (fun hg e he => ?_) fun _ _ _ => trivial
    subst he
    exact hok e s hi hg
  · have hA : ∀ n t, InAt size (InOpen size g True []) t → InAt size (Seen size g n) t :=
      fun n => seen_open (Nat.zero_le n)
    cases k with
    | poll => exact wp_spilsPoll h
    | dataRead =>
      exact wp_bind (wp_mono (wp_spilsDataRead h) fun _ t ht => wp_pure stable_open (hA _) ht)
    | dataSend pData dataSize =>
      have hst : Stable (InRely size g fun _ => True) (InAt size (InOpen size g True [])) := stable_open
      have hsend := wp_frame hst ((outFrame_inAt _).spilsDataSend (inAt_sendRet pData dataSize)) h
      exact wp_bind (wp_mono (wp_always_mono hsend (hA _)) fun _ t ht =>
        wp_pure stable_open (hA _) ht)

/-- The inbound half after `spils_init`. -/
def InView.initial (size : ℕ) (flag : Bool) : InView :=
  { pIn := .b1, pCache := .b0, look := fun i => if i.isIn = true then .empty size else .empty 0
    avail := false, busy := false, locked := false, swap := false, reading := none
    flag := flag, availRead := none, acked := [], returned := [], safe := true }

theorem inView_start {conf : SpilsConf} (hc : conf.Ok) (hw : Board) (slave : SpiSlave) :
    inView (start conf hw slave) =
      .initial (conf.messageSizeMax + 2) slave.spilsDataInReceived := by
  obtain ⟨h, heq, -⟩ := start_eq conf hw slave
  have hlook : (prepared conf hw slave).inLook =
      fun i => if i.isIn = true then .empty (conf.messageSizeMax + 2) else .empty 0 := by
    funext i
    unfold Sys.inLook
    rw [prepared_eq hc]
    cases i <;> exact if_congr Iff.rfl (Buffer.look_init _) rfl
  have hanswer : ((prepared conf hw slave).answer MessType.resultReady).inLook =
      (prepared conf hw slave).inLook := inLook_setBuf_out (shape_prepared hc hw slave).outCache _
  rw [heq]
  ext1
  case look => exact hanswer.trans hlook
  all_goals
    unfold Sys.rearm Sys.answer
    rw [prepared_eq hc]
    rfl

theorem inAt_start {conf : SpilsConf} (hc : conf.Ok) (hw : Board) (slave : SpiSlave) :
    InAt (conf.messageSizeMax + 2) (InOpen (conf.messageSizeMax + 2) g True []) (start conf hw slave) := by
  have hB := base_start hc hw slave
  have hv := inView_start hc hw slave
  have hsize := hB.shape.size_le
  have hempty := Look.mod_empty hsize
  have hun := Look.not_loaded_empty (conf.messageSizeMax + 2)
  refine ⟨hB.shape, ?_, ?_⟩
  · obtain ⟨h, heq, ha⟩ := start_eq conf hw slave
    have hp := (shape_prepared hc hw slave).answer MessType.resultReady
    have hcache : (inView (start conf hw slave)).cacheL.Mod (conf.messageSizeMax + 2) := by
      rw [hv]
      exact hempty
    rw [cacheL_inView hB.shape, heq] at hcache
    rw [heq]
    exact rxOk_armedFor ha hp hcache rfl rfl rfl
  · rw [hv]
    have hord := Look.ordered_empty (conf.messageSizeMax + 2)
    refine ⟨⟨fun hf => BufId.noConfusion hf, rfl, rfl, hempty, fun _ => hun, fun _ => hord, fun _ => rfl,
      fun _ => rfl⟩, hempty, fun _ => hord, ⟨fun hf => Bool.noConfusion hf, fun hf => absurd hf hun⟩, rfl,
      fun _ hf => absurd hf hun⟩

end NeuronWired
