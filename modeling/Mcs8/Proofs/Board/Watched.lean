import Mcs8.Proofs.Board.Reachable
import Mcs8.Proofs.Processor.Core
import Mcs8.Proofs.Text.Columns

/-!
# Watched boards

A host that watches a board sets breakpoints, switches the trace of the bus on and off, and chooses
the level of the messages. `Watched` are the boards that come out of any past of that kind. Their
processors are as sound as those that nobody watches (`Watched.coherent`), and they announce their
steps exactly from level 3 on (`Watched.announces_eq`).

Each tick of such a board is told twice: a line is written for the step of the processor
(`tickMessages_eq`), and the trace gets a record of the bus (`trace_tick`).
-/

namespace Mcs8

namespace Processor

/-- A well-formed processor that is stopped by nothing but a halt. -/
structure Coherent (p : Processor) : Prop extends p.WellFormed where
  operation_of_stopped : p.state = .stopped → p.operation = .halt

theorem coherent_reset (p : Processor) : p.reset.Coherent where
  toWellFormed := p.wellFormed_reset
  operation_of_stopped _ := rfl

theorem Coherent.stepWith {p : Processor} (h : p.Coherent) (x : Pins) :
    (p.stepWith x).Coherent where
  toWellFormed := h.toWellFormed.stepWith x
  operation_of_stopped hstopped := by
    rw [stepWith_eq, state_enter, TState.next_eq_stopped_iff] at hstopped
    rw [operation_stepWith]
    obtain ⟨hwas, -⟩ | ⟨-, hhalts⟩ := hstopped
    · have hne : p.state ≠ .t3 := by simp [hwas]
      rw [(worked_of_ne_t3 hne).2.1, h.operation_of_stopped hwas]
    · exact operation_of_halts _ hhalts

end Processor

namespace Board

theorem invariant_coherent : Invariant fun b ↦ b.cpu.Coherent where
  congr h hcpu _ _ := by rwa [hcpu]
  tick h := by
    rw [cpu_tick]
    exact h.stepWith _
  requestInterrupt _ h := h
  reset {b} _ := b.cpu.coherent_reset

theorem invariant_announces (announces : Bool) : Invariant fun b ↦ b.cpu.announces = announces where
  congr h hcpu _ _ := by rwa [hcpu]
  tick h := by
    rw [cpu_tick, Processor.samples_stepWith.2.2.2.2]
    exact h
  requestInterrupt _ h := h
  reset h := h

/-- No action changes the level of the messages. -/
theorem messageLevel_perform (b : Board) (a : Action) :
    (b.perform a).messageLevel = b.messageLevel := by
  have htick (b : Board) : b.tick.messageLevel = b.messageLevel := by
    rw [tick_eq, carryOut_frame, clocked_frame]
    rfl
  cases a with
  | tick => exact htick b
  | run budget =>
    show (b.run budget).board.messageLevel = b.messageLevel
    rw [run_frame]
    show (tick^[b.ticksOf budget] b).messageLevel = b.messageLevel
    generalize b.ticksOf budget = n
    induction n generalizing b with
    | zero => rfl
    | succ n ih => exact (ih b.tick).trans (htick b)
  | load bytes origin => rw [perform_load_frame]
  | poke address value => rw [perform_poke_frame]
  | _ => rfl

/-- The boards that a fresh one becomes by actions of the host, by taking over the snapshots of
other such boards, and by being watched in other ways. -/
inductive Watched : Board → Prop
  | fresh : Watched {}
  | perform {b : Board} {a : Action} (h : Watched b) (ha : a.setsIr = false) : Watched (b.perform a)
  | restore {b saved restored : Board} (h : Watched b) (hsaved : Watched saved)
    (hrestore : b.restore saved.snapshot = .ok restored) : Watched restored
  | setMessageLevel {b : Board} (h : Watched b) (level : Int) : Watched (b.setMessageLevel level)
  /-- Set or clear breakpoints, switch the trace on or off, clear it. -/
  | observe {b : Board} (h : Watched b) (breakpoints : Breakpoints) (breakOnNext tracing : Bool)
    (trace : Array BusRecord) : Watched { b with breakpoints, breakOnNext, tracing, trace }

/-- The line for the step that the processor makes in the next tick. -/
def stepLine (b : Board) : String :=
  b.cpu.traceLine b.tick.cpu b.settle.bus b.readyLevel b.interrupter.raiseLine.line

namespace Watched

variable {b : Board}

theorem performAll (h : b.Watched) {actions : List Action} (ha : ∀ a ∈ actions, a.setsIr = false) :
    (b.performAll actions).Watched :=
  performAll_induction (P := Watched) perform h ha

theorem tick (h : b.Watched) : b.tick.Watched := h.perform (a := .tick) rfl

theorem coherent (h : b.Watched) : b.cpu.Coherent := by
  induction h with
  | fresh => exact Processor.coherent_reset {}
  | perform _ ha ih => exact invariant_coherent.perform ih ha
  | @restore b saved restored _ _ hrestore _ ih =>
    rw [restore_snapshot] at hrestore
    obtain rfl := Except.ok.inj hrestore
    show (b.cpu.load saved.cpu.toProcessorState).Coherent
    rw [Processor.load_eq ih.toRestorable]
    exact { ih with }
  | setMessageLevel _ level ih => exact { ih with }
  | observe _ _ _ _ _ ih => exact ih

/-- The processor announces its steps from level 3 on. -/
theorem announces_eq (h : b.Watched) : b.cpu.announces = decide (3 ≤ b.messageLevel) := by
  induction h with
  | fresh => rfl
  | perform _ ha ih =>
    rw [messageLevel_perform]
    exact (invariant_announces _).perform ih ha
  | restore _ _ hrestore ih _ =>
    rw [restore_snapshot] at hrestore
    obtain rfl := Except.ok.inj hrestore
    exact ih
  | setMessageLevel _ level _ => rfl
  | observe _ _ _ _ _ ih => exact ih

end Watched

/-- A fresh board that announces everything and whose trace is on. -/
def observed : Board := { ({} : Board).setMessageLevel 3 with tracing := true }

theorem watched_observed : observed.Watched :=
  (Watched.fresh.setMessageLevel 3).observe {} false true #[]

/-- A request for an interrupt that is answered with a move from memory, and the ticks up to the
`T3` that takes the answer. -/
def requestMove : List Action := .requestInterrupt 0xc7 :: .replicate 4 .tick

theorem watched_requestMove : (observed.performAll requestMove).Watched :=
  watched_observed.performAll (by decide)

variable {b : Board}

/-- A processor that announces its steps begins the messages of a tick with its line. -/
theorem tickMessages_eq (h : b.cpu.announces = true) :
    ∃ more, b.tickMessages = b.stepLine ++ more := by
  have hstep : b.cpu.stepMessage b.settle.bus b.readyLevel b.interrupter.raiseLine.line =
      b.stepLine := by
    rw [Processor.stepMessage, if_pos h, stepLine, cpu_tick]
    rfl
  rw [tickMessages, hstep]
  split
  · exact ⟨_, rfl⟩
  · exact ⟨"", String.append_empty.symm⟩

/-- While the trace is on, a tick records the bus as it has settled. -/
theorem trace_tick (h : b.tracing = true) : b.tick.trace = b.trace.push b.settle.busRecord := by
  have hsettled : b.settle.tracing = true := h
  rw [tick_eq, carryOut_frame, clocked_frame]
  show b.settle.record.trace = b.trace.push b.settle.busRecord
  rw [record, if_pos hsettled]
  rfl

end Board

end Mcs8
