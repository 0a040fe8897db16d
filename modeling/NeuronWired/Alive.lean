import NeuronWired.Base

/-!
# Alive — the SPI slave never goes deaf

A chip-select edge that finds `busy` false would be ignored for ever.  Outside the interrupt the
driver is always armed, and every run of the transfer-done handler arms it exactly once.
-/

namespace NeuronWired

open Interrupt

/-- What one run of the interrupt may add to a trace: nothing, when no byte was received or a resend
was due; or one transfer and exactly one `hal_mcu_spi_data_transfer`, which returned `RESULT_OK`; the rest are
events and failed assertions. -/
def OneRearm (trace trace' : List Obs) : Prop :=
  trace' = trace ∨ ∃ w l₁ out dataInLen st l₂,
    trace' = trace ++ .transfer w :: l₁ ++ .armed out dataInLen st .ok :: l₂ ∧
      ∀ x ∈ l₁ ++ l₂, x.Note

theorem Base.oneRearm {size : ℕ} {s : Sys} (h : Base size s) (e : Edge) :
    OneRearm s.ghost.trace ((irqProg (.edge e)).run s).2.ghost.trace := by
  rcases h.run_edge e with ⟨g, -, -, -, heq⟩ | ⟨p, st, ready, g, -, -, hp, -, heq⟩
  · left
    rw [heq, Sys.ghost_mapSpi, (link_clockIn s e).2.2.2]
  · obtain ⟨l₁, l₂, htrace, hl⟩ := trace_done hp g
    right
    rw [heq]
    exact ⟨_, _, _, _, _, _, htrace, hl⟩

/-- **The SPI slave never goes deaf.** -/
theorem spi_slave_never_deaf {s₀ : Sys} (h₀ : Initial s₀) {c : Cfg Sys LinkCall}
    (hc : (linkMachine (fun _ _ => True) fun _ _ => True).Reach s₀ c) (hq : c.irq = none) :
    c.st.spi.busy = true ∧ c.st.link.state.Resting ∧
      (c.st.spi.sse = true ↔ c.st.spi.resendRequest = false) ∧
      ∀ e, OneRearm c.st.ghost.trace ((irqProg (.edge e)).run c.st).2.ghost.trace := by
  obtain ⟨conf, hw, slave, hok, rfl⟩ := h₀
  have h : Base (conf.messageSizeMax + 2) c.st :=
    (outline_base _ _ _).always (base_start hok hw slave) (fun _ h => h) (fun _ _ h => h) hc hq
  refine ⟨h.armed.busy, h.resting, ?_, h.oneRearm⟩
  rw [h.armed.enabled]
  cases c.st.spi.resendRequest <;> simp

/-- A link with 64-byte messages on a board whose chip select is still active when it starts. -/
def sampleStart : Sys :=
  start ⟨64, 1000⟩ ⟨8, true, false, 0⟩ ⟨false, false, false, .new 32, .new 32⟩

/-- Two enables fail, and a pulse without bytes makes up for each; then the announced message comes, and is being
read when the master asks for one. -/
def sampleRevived : Cfg Sys LinkCall :=
  let c := (linkMachine (fun _ _ => True) fun _ _ => True).play
    [.irq (.edge (.of [])), .irq (.edge ⟨[2, 1], 0, false, true⟩), .irq (.edge (.of [])),
      .irq (.edge (.of [4, 3, 7, 9])), .call .dataRead, .go 5] (sampleStart, none)
  ⟨c.1, c.2, none⟩

theorem spi_slave_never_deaf_revived :
    sampleRevived.main.isSome = true ∧ sampleRevived.st.inB.content = [7, 9] ∧
      sampleRevived.st.spi.busy = true ∧ sampleRevived.st.link.state.Resting ∧
      sampleRevived.st.spi.sse = true ∧
      OneRearm sampleRevived.st.ghost.trace
        ((irqProg (.edge (.of [2, 2]))).run sampleRevived.st).2.ghost.trace := by
  have hs : Initial sampleStart := ⟨_, _, _, by decide, rfl⟩
  have hfree := Machine.allowed_of_free (M := linkMachine (fun _ _ => True) fun _ _ => True)
    (fun _ _ => trivial) fun _ _ => trivial
  have hreach : (linkMachine (fun _ _ => True) fun _ _ => True).Reach sampleStart sampleRevived :=
    .play (c := (sampleStart, none)) _ .init (hfree _ _)
  obtain ⟨hbusy, hresting, henabled, hrearm⟩ := spi_slave_never_deaf hs hreach rfl
  exact ⟨by decide +kernel, by decide +kernel, hbusy, hresting, henabled.mpr (by decide +kernel), hrearm _⟩

end NeuronWired
