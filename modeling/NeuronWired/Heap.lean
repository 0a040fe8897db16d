import NeuronWired.Cint
import NeuronWired.Run.Basic
import NeuronWired.Arena.Bump

/-!
# Heap — the memory pool (`heap.c`)

`heap_alloc` hands out the pool piece by piece.  The only look at its end is `ASSERT_DYGMA`: a debug build
stops there, and a release build has no check.  The assertion adds in `size_t`, so in a debug build too a size
near 2³² passes it.
-/

namespace NeuronWired

open Arena

/-- `HEAP_SIZE`. -/
def heapSize : UInt32 := 16384

/-- `MCU_ALIGNMENT_SIZE`, as the build sets it. -/
def mcuAlignmentSize : UInt32 := 4

/-- `alignment_ceil`. -/
def alignmentCeil (size alignment : UInt32) : UInt32 :=
  if size % alignment = 0 then size else (size + alignment) / alignment * alignment

/-- With `DEBUG` a failing `ASSERT_DYGMA` stops the program; without, the macro is empty. -/
inductive Build where
  | debug
  | release
  deriving DecidableEq, Repr

/-- `_pool`, and `_pool_pointer` as its distance from the start of `_pool`. -/
structure Heap where
  pool : Bytes
  poolPointer : UInt32
  deriving DecidableEq, Repr

/-- The heap before anything runs. -/
def Heap.initial : Heap := ⟨List.replicate heapSize.toNat 0, 0⟩

/-- `heap_clear`. -/
def heapClear (_h : Heap) : Heap := ⟨List.replicate heapSize.toNat 0, 0⟩

/-- `heap_alloc`: the distance of the block from the start of `_pool`, and nothing where the assertion stops
the program. -/
def heapAlloc (b : Build) (size : UInt32) (h : Heap) : Option (UInt32 × Heap) :=
  if b = .debug ∧ ¬h.poolPointer + size ≤ heapSize then none
  else some (h.poolPointer,
    { h with poolPointer := h.poolPointer + alignmentCeil size mcuAlignmentSize })

/-! ## What has been handed out -/

/-- The heap, the blocks returned since it was cleared, and whether the program has stopped. -/
structure Session where
  heap : Heap
  blocks : List Block
  stopped : Bool

namespace Session

/-- A cleared heap.  The program starts with one. -/
def cleared (h : Heap) : Session := ⟨heapClear h, [], false⟩

/-- A call of `heap_alloc`. -/
def request (b : Build) (s : Session) (size : UInt32) : Session :=
  if s.stopped = true then s
  else
    match heapAlloc b size s.heap with
    | none => { s with stopped := true }
    | some (p, h) => { s with heap := h, blocks := s.blocks ++ [⟨p.toNat, size.toNat⟩] }

/-- There is room for `size` bytes. -/
def Fits (s : Session) (size : UInt32) : Prop :=
  s.heap.poolPointer.toNat + size.toNat ≤ heapSize.toNat

/-- What does not fit stops the program. -/
def Refused (b : Build) (s : Session) (size : UInt32) : Prop :=
  s.stopped = false → ¬s.Fits size → heapAlloc b size s.heap = none

/-- The size fits, or a debug build can tell: the sum of the assertion does not wrap. -/
def Heeded (b : Build) (s : Session) (size : UInt32) : Prop :=
  s.stopped = true ∨ s.Fits size ∨
    b = .debug ∧ s.heap.poolPointer.toNat + size.toNat < UInt32.size

instance (b : Build) (s : Session) (size : UInt32) : Decidable (s.Heeded b size) :=
  inferInstanceAs (Decidable (_ ∨ _ ≤ _ ∨ _ ∧ _))

end Session

/-- The blocks are aligned, lie in the pool and share no byte. -/
structure Separate (blocks : List Block) : Prop where
  aligned : ∀ c ∈ blocks, mcuAlignmentSize.toNat ∣ c.start
  inside : ∀ c ∈ blocks, c.start + c.size ≤ heapSize.toNat
  disjoint : blocks.Pairwise Block.Disjoint

theorem Separate.of_append {l l' : List Block} (h : Separate (l ++ l')) : Separate l :=
  ⟨fun c hc => h.aligned c (List.mem_append_left _ hc), fun c hc => h.inside c (List.mem_append_left _ hc),
    (List.pairwise_append.mp h.disjoint).1⟩

/-! ## The arena behind the heap -/

/-- The pool as an arena. -/
abbrev PoolArena : Type := Bump heapSize.toNat mcuAlignmentSize.toNat

theorem PoolArena.separate (a : PoolArena) : Separate a.blocks :=
  ⟨a.starts, fun c hc => Nat.le_trans (a.below c hc) a.fits, a.disjoint⟩

/-- Below the end of the pool `alignment_ceil` does not wrap. -/
theorem toNat_alignmentCeil {size : UInt32} (h : size.toNat ≤ heapSize.toNat) :
    (alignmentCeil size mcuAlignmentSize).toNat = roundUp mcuAlignmentSize.toNat size.toNat := by
  have hheap : heapSize.toNat = 16384 := rfl
  have halign : mcuAlignmentSize.toNat = 4 := rfl
  have hmod : size % mcuAlignmentSize = 0 ↔ size.toNat % 4 = 0 := by
    rw [← UInt32.toNat_inj, UInt32.toNat_mod, halign]
    rfl
  unfold alignmentCeil roundUp
  rw [halign]
  by_cases hzero : size.toNat % 4 = 0
  · rw [if_pos (hmod.mpr hzero), if_pos hzero]
  · rw [if_neg fun h => hzero (hmod.mp h), if_neg hzero, UInt32.toNat_mul, UInt32.toNat_div,
      UInt32.toNat_add, halign]
    omega

namespace Session

/-- The arena has handed out what the heap has. -/
structure Follows (s : Session) (a : PoolArena) : Prop where
  pointer : s.heap.poolPointer.toNat = a.used
  blocks : s.blocks = a.blocks

theorem follows_cleared (h : Heap) : (cleared h).Follows .empty := ⟨rfl, rfl⟩

variable {b : Build} {s : Session} {size : UInt32} {a : PoolArena}

theorem Follows.separate (h : s.Follows a) : Separate s.blocks := by
  rw [h.blocks]
  exact a.separate

/-! ## One request -/

/-- The next block is handed out. -/
def handOut (s : Session) (size : UInt32) : Session :=
  { s with
    heap := { s.heap with
      poolPointer := s.heap.poolPointer + alignmentCeil size mcuAlignmentSize }
    blocks := s.blocks ++ [⟨s.heap.poolPointer.toNat, size.toNat⟩] }

theorem request_some (hst : s.stopped = false) (h : heapAlloc b size s.heap ≠ none) :
    s.request b size = s.handOut size := by
  have hsome : ¬(b = .debug ∧ ¬s.heap.poolPointer + size ≤ heapSize) := fun hf => h (if_pos hf)
  have halloc : heapAlloc b size s.heap = some (s.heap.poolPointer,
      { s.heap with poolPointer := s.heap.poolPointer + alignmentCeil size mcuAlignmentSize }) :=
    if_neg hsome
  unfold request
  rw [if_neg (by rw [hst]; exact Bool.false_ne_true), halloc]
  rfl

/-- What a request can do: nothing after the program has stopped, stop it, or hand out a block. -/
theorem request_cases (b : Build) (s : Session) (size : UInt32) :
    s.request b size = s ∨
      s.request b size = { s with stopped := true } ∨
      s.stopped = false ∧ heapAlloc b size s.heap ≠ none ∧ s.request b size = s.handOut size := by
  by_cases hst : s.stopped = true
  · exact .inl (if_pos hst)
  rw [Bool.not_eq_true] at hst
  by_cases hnone : heapAlloc b size s.heap = none
  · refine .inr (.inl ?_)
    unfold request
    rw [if_neg (by rw [hst]; exact Bool.false_ne_true), hnone]
  · exact .inr (.inr ⟨hst, hnone, request_some hst hnone⟩)

/-- The sum of the assertion, when it does not wrap. -/
theorem sum_le_iff (h : s.heap.poolPointer.toNat + size.toNat < UInt32.size) :
    s.heap.poolPointer + size ≤ heapSize ↔ s.Fits size := by
  rw [UInt32.le_iff_toNat_le, UInt32.toNat_add, Nat.mod_eq_of_lt h]
  exact Iff.rfl

/-- A build refuses what it heeds and what does not fit. -/
theorem Heeded.refused (h : s.Heeded b size) : s.Refused b size := by
  intro hst hfit
  rcases h with h | h | ⟨hb, hwrap⟩
  · rw [hst] at h
    cases h
  · exact absurd h hfit
  · exact if_pos ⟨hb, fun hle => hfit ((sum_le_iff hwrap).mp hle)⟩

/-- A block that fits is one of the arena. -/
theorem Follows.handOut (h : s.Follows a) (hfit : s.Fits size) :
    ∃ a' : PoolArena, (s.handOut size).Follows a' := by
  have hfit' : a.used + size.toNat ≤ heapSize.toNat := by
    rw [← h.pointer]
    exact hfit
  have hheap : heapSize.toNat = 16384 := rfl
  refine ⟨a.alloc size.toNat (by decide) (by decide) hfit', ?_, ?_⟩
  · have hfits := (a.alloc size.toNat (by decide) (by decide) hfit').fits
    show (s.heap.poolPointer + alignmentCeil size mcuAlignmentSize).toNat = _
    have hused : (a.alloc size.toNat (by decide) (by decide) hfit').used =
        a.used + roundUp mcuAlignmentSize.toNat size.toNat := rfl
    rw [hused] at hfits ⊢
    rw [UInt32.toNat_add, toNat_alignmentCeil (by omega), h.pointer, Nat.mod_eq_of_lt (by omega)]
  · show s.blocks ++ _ = a.blocks ++ _
    rw [h.blocks, h.pointer]

/-- A request that is heeded leaves the heap an arena. -/
theorem Follows.request (h : s.Follows a) (hok : s.Heeded b size) :
    ∃ a' : PoolArena, (s.request b size).Follows a' := by
  rcases request_cases b s size with hreq | hreq | ⟨hst, hsome, hreq⟩
  · rw [hreq]
    exact ⟨a, h⟩
  · rw [hreq]
    exact ⟨a, h.pointer, h.blocks⟩
  · have hfit : s.Fits size := by
      by_contra hfit
      exact hsome (hok.refused hst hfit)
    rw [hreq]
    exact h.handOut hfit

/-- A request that is not heeded is handed memory outside the pool. -/
theorem Follows.outside (h : s.Follows a) (hbad : ¬s.Heeded b size) :
    ¬Separate (s.request b size).blocks := by
  obtain ⟨hst, hrest⟩ := not_or.mp hbad
  obtain ⟨hfit, hwrap⟩ := not_or.mp hrest
  rw [Bool.not_eq_true] at hst
  have hused := a.fits
  have hheap : heapSize.toNat = 16384 := rfl
  have hsome : heapAlloc b size s.heap ≠ none := by
    intro hnone
    unfold heapAlloc at hnone
    split_ifs at hnone with hassert
    -- the sum has wrapped to less than the pointer
    have hle : UInt32.size ≤ s.heap.poolPointer.toNat + size.toNat :=
      Nat.le_of_not_lt fun hlt => hwrap ⟨hassert.1, hlt⟩
    refine hassert.2 ?_
    have hlt := size.toNat_lt
    rw [UInt32.le_iff_toNat_le, UInt32.toNat_add, hheap]
    have hptr := h.pointer
    unfold UInt32.size at hle
    omega
  rw [request_some hst hsome]
  intro hsep
  have hin := hsep.inside ⟨s.heap.poolPointer.toNat, size.toNat⟩
    (List.mem_append_right _ (List.mem_singleton_self _))
  exact hfit hin

theorem blocks_request (b : Build) (s : Session) (size : UInt32) :
    ∃ l, (s.request b size).blocks = s.blocks ++ l := by
  rcases request_cases b s size with hreq | hreq | ⟨-, -, hreq⟩
  · exact ⟨[], by rw [hreq, List.append_nil]⟩
  · exact ⟨[], by rw [hreq, List.append_nil]⟩
  · rw [hreq]
    exact ⟨_, rfl⟩

/-- What has been handed out is separate. -/
def Tidy (s : Session) : Prop := Separate s.blocks

/-- While what has been handed out is separate, an arena has handed it out. -/
def Followed (s : Session) : Prop := s.Tidy → ∃ a, s.Follows a

theorem tidy_request_iff (h : s.Followed) : (s.request b size).Tidy ↔ s.Tidy ∧ s.Heeded b size := by
  constructor
  · intro htidy
    have hbefore : s.Tidy := by
      obtain ⟨l, hl⟩ := blocks_request b s size
      unfold Tidy at htidy
      rw [hl] at htidy
      exact htidy.of_append
    obtain ⟨a, ha⟩ := h hbefore
    refine ⟨hbefore, ?_⟩
    by_contra hbad
    exact ha.outside hbad htidy
  · rintro ⟨hbefore, hok⟩
    obtain ⟨a, ha⟩ := h hbefore
    obtain ⟨a', ha'⟩ := ha.request hok
    exact ha'.separate

theorem Followed.request (h : s.Followed) : (s.request b size).Followed := by
  intro htidy
  obtain ⟨hbefore, hok⟩ := (tidy_request_iff h).mp htidy
  obtain ⟨a, ha⟩ := h hbefore
  exact ha.request hok

end Session

/-! ## Every run -/

open Session

/-- **`heap_alloc` hands out separate memory** exactly to the sequences of sizes that are heeded: in a release
build those that fit, in a debug build also those whose sum with what is used does not wrap. -/
theorem heap_alloc_separate_iff (b : Build) (h : Heap) (sizes : List UInt32) :
    Separate (Run.after (request b) (cleared h) sizes).blocks ∧
        Run.Along (request b) (Refused b) (cleared h) sizes ↔
      Run.Along (request b) (Heeded b) (cleared h) sizes := by
  have hstart : (cleared h).Followed := fun _ => ⟨_, follows_cleared h⟩
  have hiff : (Run.after (request b) (cleared h) sizes).Tidy ↔
      (cleared h).Tidy ∧ Run.Along (request b) (Heeded b) (cleared h) sizes :=
    (Run.along_true (cleared h) sizes).after_iff hstart (fun _ _ hs _ => hs.request)
      fun _ _ hs _ => tidy_request_iff hs
  constructor
  · rintro ⟨hsep, -⟩
    exact (hiff.mp hsep).2
  · intro hok
    exact ⟨hiff.mpr ⟨(follows_cleared h).separate, hok⟩, hok.mono fun _ _ hs => hs.refused⟩

/-- Four blocks that fill the pool, and one byte more. -/
def sampleSizes : List UInt32 := [4096, 4096, 4096, 4096, 1]

/-- Four bytes, a size with which the sum wraps to zero, and four bytes. -/
def sampleSizesWrapped : List UInt32 := [4, 0xFFFFFFFC, 4]

/-- A release build returns a block behind the pool to the request that does not fit.  A debug build returns a
block of nearly 4 GiB, and the first block again after it. -/
theorem heap_alloc_outside :
    (⟨16384, 1⟩ : Block) ∈ (Run.after (request .release) (cleared .initial) sampleSizes).blocks ∧
      (Run.after (request .debug) (cleared .initial) sampleSizesWrapped).blocks =
        [⟨0, 4⟩, ⟨4, 4294967292⟩, ⟨0, 4⟩] ∧
      ¬Separate (Run.after (request .release) (cleared .initial) sampleSizes).blocks ∧
      ¬Separate (Run.after (request .debug) (cleared .initial) sampleSizesWrapped).blocks := by
  have hrelease : (⟨16384, 1⟩ : Block) ∈
      (Run.after (request .release) (cleared .initial) sampleSizes).blocks := by decide
  have hdebug : (Run.after (request .debug) (cleared .initial) sampleSizesWrapped).blocks =
      [⟨0, 4⟩, ⟨4, 4294967292⟩, ⟨0, 4⟩] := by decide
  refine ⟨hrelease, hdebug, fun h => absurd (h.inside _ hrelease) (by decide), fun h => ?_⟩
  rw [hdebug] at h
  exact absurd (h.inside ⟨4, 4294967292⟩ (by simp)) (by decide)

end NeuronWired
