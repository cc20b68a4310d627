import Mcs8.Proofs.Board.Action
import Mcs8.Proofs.Document.RoundTrip

/-!
# Restored boards

A restored board goes on as the board it was saved from. What a snapshot leaves out serves
observation only: without it, a board and its restored copy are the same board (`Board.bare`), and
every action does the same with or without it (`bare_perform`). The exception is a run, which a
breakpoint can cut short; where none does, runs are no exception (`bare_run`).
-/

namespace Mcs8

namespace Processor

variable (p : Processor)

/-- The processor without announcements. -/
def quiet : Processor := { p with announces := false }

theorem latchByte_quiet (bus : UInt8) : (p.latchByte bus).quiet = p.quiet.latchByte bus := by
  have hoperation : p.quiet.operation = p.operation := rfl
  have hkind : p.quiet.cycleKind = p.cycleKind := rfl
  have hnumber : p.quiet.cycleNumber = p.cycleNumber := rfl
  simp only [latchByte, takeOpcode_eq, takeOperand_eq, hoperation, hkind, hnumber]
  cases p.cycleKind with
  | pci =>
    by_cases h : p.cycleNumber = 0
    · simp only [h, if_true]
      rfl
    · simp only [h, if_false]
      rfl
  | pcr | pcw => rfl
  | pcc => cases p.operation <;> rfl

theorem storeOutput_quiet (r : AluOutput) (dst : Register) :
    (p.storeOutput r dst).quiet = p.quiet.storeOutput r dst := rfl

theorem work_quiet (bus : UInt8) : (p.work bus).quiet = p.quiet.work bus := by
  have hstate : p.quiet.state = p.state := rfl
  have hoperation : p.quiet.operation = p.operation := rfl
  unfold work
  rw [hstate]
  cases p.state with
  | t3 =>
    rw [takeByte_eq, takeByte_eq, ← latchByte_quiet]
    rfl
  | t4 =>
    simp only [prepareResult, hoperation]
    cases p.operation with
    | move dst src | alu dst src =>
      by_cases h : src = .M
      · simp only [h, if_true]
      · simp only [h, if_false]
        rfl
    | _ => rfl
  | t5 =>
    have hb : p.quiet.tempB = p.tempB := rfl
    have hflags : p.quiet.flags = p.flags := rfl
    have hregisters : p.quiet.registers = p.registers := rfl
    simp only [storeResult, hoperation, hb, hflags, hregisters]
    cases p.operation with
    | increment reg | decrement reg | alu op src | aluImmediate op | rotate op =>
      exact storeOutput_quiet ..
    | _ => rfl
  | _ => rfl

theorem enter_quiet (next : TState) : (p.enter next).quiet = p.quiet.enter next := by
  cases next <;> rfl

theorem boundarySignals_quiet (ready : Bool) :
    p.quiet.boundarySignals ready = p.boundarySignals ready := rfl

theorem stepWith_quiet (x : Pins) : (p.stepWith x).quiet = p.quiet.stepWith x := by
  have hsample : p.quiet.sample x.bus x.ready x.interrupt =
      (p.sample x.bus x.ready x.interrupt).quiet := rfl
  have hworked : p.quiet.worked x = (p.worked x).quiet := by
    rw [worked, worked, hsample, work_quiet]
  have hstate : p.quiet.state = p.state := rfl
  rw [stepWith_eq, stepWith_eq, hworked, hstate, boundarySignals_quiet, enter_quiet]

end Processor

namespace Board

variable (b : Board)

/-- The board without anything that only helps to observe it. -/
def bare : Board :=
  { b with
    cpu := b.cpu.quiet
    ports := { b.ports with announces := false }
    breakpoints := {}
    breakOnNext := false
    tracing := false
    trace := #[]
    messageLevel := 0 }

theorem pins_bare : b.bare.pins = b.pins := rfl

theorem writeCycle_bare : b.writeCycle.bare = b.bare.writeCycle := by
  have hkind : b.bare.latch.kind = b.latch.kind := rfl
  have hport : b.bare.addressedPort = b.addressedPort := rfl
  simp only [writeCycle, hkind, hport]
  cases b.latch.kind with
  | pcc => cases PortBank.isInput b.addressedPort <;> rfl
  | _ => rfl

theorem clocked_bare : b.clocked.bare = b.bare.clocked := by
  rw [clocked_frame, clocked_frame, pins_bare]
  have hcpu : b.bare.cpu.stepWith b.pins = (b.cpu.stepWith b.pins).quiet :=
    (b.cpu.stepWith_quiet b.pins).symm
  rw [hcpu]
  rfl

theorem bare_tick : b.tick.bare = b.bare.tick := by
  have hstate : b.bare.cpu.state = b.cpu.state := rfl
  have hcarryOut : (b.clocked.carryOut b.cpu.state).bare =
      b.clocked.bare.carryOut b.cpu.state := by
    cases b.cpu.state with
    | t3 => exact b.clocked.writeCycle_bare
    | _ => rfl
  rw [tick_eq, tick_eq, hstate, ← clocked_bare, ← hcarryOut]
  rfl

/-- Every action but a run does the same with or without observation. -/
theorem bare_perform {a : Action} (h : a.runs = false) : (b.perform a).bare = b.bare.perform a := by
  cases a with
  | tick => exact b.bare_tick
  | run budget => contradiction
  | load bytes origin =>
    show (b.orKeep (b.load bytes origin)).bare = b.bare.orKeep (b.bare.load bytes origin)
    unfold load
    split_ifs <;> rfl
  | poke address value =>
    show (b.orKeep (b.poke address value)).bare = b.bare.orKeep (b.bare.poke address value)
    unfold poke
    split_ifs <;> rfl
  | _ => rfl

/-! ### Runs and breakpoints -/

theorem consumeBreakpoint_bare : b.consumeBreakpoint.bare = b.bare := by
  rw [consumeBreakpoint_frame]
  rfl

/-- Nothing stops the board at an instruction. -/
structure Unmarked (b : Board) : Prop where
  breakpoints_eq : b.breakpoints = {}
  breakOnNext_eq : b.breakOnNext = false

/-- A breakpoint, and nothing else, ends a run. -/
def cutsShort (budget : UInt64) : Prop := (b.run budget).reasons = { breakpoint := true }

namespace Unmarked

variable {b}

theorem meetsBreakpoint (h : b.Unmarked) : b.meetsBreakpoint = false := by
  rw [Board.meetsBreakpoint, h.breakpoints_eq, h.breakOnNext_eq]
  exact Bool.and_false _

theorem consumeBreakpoint (h : b.Unmarked) : b.consumeBreakpoint.Unmarked := by
  unfold Board.consumeBreakpoint
  split
  · refine ⟨?_, rfl⟩
    rw [h.breakpoints_eq]
    rfl
  · exact h

theorem tick (h : b.Unmarked) : b.tick.Unmarked := by
  rw [tick_eq, carryOut_frame, clocked_frame]
  exact ⟨h.breakpoints_eq, h.breakOnNext_eq⟩

theorem perform (h : b.Unmarked) (a : Action) : (b.perform a).Unmarked := by
  cases a with
  | tick => exact h.tick
  | run budget =>
    have hticks : (Board.tick^[b.ticksOf budget] b).Unmarked := by
      generalize b.ticksOf budget = n
      induction n generalizing b with
      | zero => exact h
      | succ n ih => exact ih h.tick
    show (b.run budget).board.Unmarked
    rcases b.board_run budget with heq | heq
    · exact heq ▸ hticks
    · exact heq ▸ hticks.consumeBreakpoint
  | load bytes origin =>
    rw [perform_load_frame]
    exact ⟨h.breakpoints_eq, h.breakOnNext_eq⟩
  | poke address value =>
    rw [perform_poke_frame]
    exact ⟨h.breakpoints_eq, h.breakOnNext_eq⟩
  | _ => exact ⟨h.breakpoints_eq, h.breakOnNext_eq⟩

end Unmarked

variable {x y : Board}

/-- A run does the same with or without observation, unless a breakpoint cuts it short. -/
theorem bare_runFrom (hxy : x.bare = y.bare) (hx : x.Unmarked) (written written' : String)
    {budget : Nat} (hy : (y.runFrom written' budget).reasons ≠ { breakpoint := true }) :
    (x.runFrom written budget).board.bare = (y.runFrom written' budget).board.bare := by
  induction budget generalizing x y written written' with
  | zero => exact hxy
  | succ budget ih =>
    have hstate : x.cpu.state = y.cpu.state := congrArg (·.cpu.state) hxy
    have hticked : x.tick.bare = y.tick.bare := by rw [bare_tick, hxy, ← bare_tick]
    have hstate' : x.tick.cpu.state = y.tick.cpu.state := congrArg (·.cpu.state) hticked
    have hhalted : x.tick.haltedFrom x.cpu.state = y.tick.haltedFrom y.cpu.state := by
      rw [haltedFrom, haltedFrom, hstate, hstate']
    rw [runFrom] at hy
    rw [runFrom, runFrom]
    simp only [hx.tick.meetsBreakpoint, hhalted, Bool.or_false]
    cases hstop : y.tick.haltedFrom y.cpu.state with
    | true =>
      simp only [Bool.true_or, if_true]
      rw [consumeBreakpoint_bare, consumeBreakpoint_bare, hticked]
    | false =>
      cases hmeets : y.tick.meetsBreakpoint with
      | true =>
        simp only [hstop, hmeets, Bool.or_true, if_true] at hy
        -- the run of `y` ends here, and its budget must have run out with this tick
        cases budget with
        | zero =>
          simp only [Bool.or_true, if_true, Bool.false_eq_true, if_false]
          rw [consumeBreakpoint_bare]
          exact hticked
        | succ budget => exact absurd rfl hy
      | false =>
        simp only [hstop, hmeets, Bool.or_false, Bool.false_eq_true, if_false] at hy ⊢
        exact ih hticked hx.tick _ _ hy

theorem bare_run (hxy : x.bare = y.bare) (hx : x.Unmarked) {budget : UInt64}
    (hy : ¬y.cutsShort budget) : (x.run budget).board.bare = (y.run budget).board.bare :=
  bare_runFrom hxy hx "" "" hy

/-- Boards that differ in their observation only stay so, as long as no run of one of them, which
may have breakpoints, is cut short. -/
theorem bare_performAll (hxy : x.bare = y.bare) (hx : x.Unmarked) {actions : List Action}
    (hy : ∀ before budget after, actions = before ++ .run budget :: after →
      ¬(y.performAll before).cutsShort budget) :
    (x.performAll actions).bare = (y.performAll actions).bare := by
  induction actions generalizing x y with
  | nil => exact hxy
  | cons a actions ih =>
    have hperform : (x.perform a).bare = (y.perform a).bare := by
      cases hruns : a.runs with
      | false => rw [bare_perform x hruns, hxy, ← bare_perform y hruns]
      | true =>
        cases a with
        | run budget => exact bare_run hxy hx (hy [] budget actions rfl)
        | _ => contradiction
    refine ih hperform (hx.perform a) fun before budget after hactions ↦ ?_
    exact hy (a :: before) budget after (congrArg (a :: ·) hactions)

/-! ### Restoring a saved board -/

theorem invariant_restorable : Invariant fun b ↦ b.cpu.Restorable where
  congr h hcpu _ _ := by rwa [hcpu]
  tick h := by
    rw [cpu_tick]
    exact h.stepWith _
  requestInterrupt _ h := h
  reset {b} _ := b.cpu.restorable_reset

/-- Every action keeps a board restorable, also one that sets the instruction register. -/
theorem restorable_performAll {b : Board} (h : b.cpu.Restorable) (actions : List Action) :
    (b.performAll actions).cpu.Restorable := by
  induction actions generalizing b with
  | nil => exact h
  | cons a actions ih =>
    refine ih ?_
    cases hir : a.setsIr with
    | false => exact invariant_restorable.perform h hir
    | true =>
      cases a with
      | setIr ir => exact h.setIr ir
      | _ => contradiction

theorem unmarked_performAll {b : Board} (h : b.Unmarked) (actions : List Action) :
    (b.performAll actions).Unmarked :=
  performAll_induction (P := Unmarked) (fun h _ ↦ h.perform _) h fun _ _ ↦ trivial

/-- The board `y` with the saved state of `x`. -/
def takeOver (y x : Board) : Board :=
  { y with
    cpu := y.cpu.load x.cpu.toProcessorState
    ports := y.ports.load x.ports.toPortBank
    memory := x.memory
    latch := x.latch
    interrupter := x.interrupter
    bus := x.bus
    owner := x.owner
    readyLevel := x.readyLevel
    ticks := x.ticks }

/-- A saved board can always be restored. -/
theorem restore_snapshot (y x : Board) : y.restore x.snapshot = .ok (y.takeOver x) :=
  dif_pos x.memory.size_toArray

theorem bare_takeOver (y : Board) (h : x.cpu.Restorable) : (y.takeOver x).bare = x.bare := by
  have hcpu : (y.cpu.load x.cpu.toProcessorState).quiet = x.cpu.quiet := by
    rw [Processor.load, Processor.quiet, Processor.quiet, h.decoded_eq]
  show { (y.takeOver x).bare with cpu := (y.cpu.load x.cpu.toProcessorState).quiet } = x.bare
  rw [hcpu]
  rfl

/-- What can be asked of two boards has equal answers. -/
structure LooksLike (x y : Board) : Prop where
  snapshot_eq : x.snapshot = y.snapshot
  peek_eq (address : UInt16) : x.peek address = y.peek address
  output_eq (port : Int) : x.ports.output port = y.ports.output port
  offer_eq : x.cpu.offer = y.cpu.offer
  decoded_eq : x.cpu.decoded = y.cpu.decoded

theorem looksLike_of_bare (h : x.bare = y.bare) : x.LooksLike y where
  snapshot_eq := show x.bare.snapshot = y.bare.snapshot by rw [h]
  peek_eq address := show x.bare.peek address = y.bare.peek address by rw [h]
  output_eq port := show x.bare.ports.output port = y.bare.ports.output port by rw [h]
  offer_eq := show x.bare.cpu.offer = y.bare.cpu.offer by rw [h]
  decoded_eq := show x.bare.cpu.decoded = y.bare.cpu.decoded by rw [h]

/-- **Saving and restoring cannot be noticed.** Whatever was done with the board that is saved, and
whatever board takes over the snapshot, directly or through a document of any lawful library: the
snapshot is taken over, and the two boards look alike after any actions done with both, as long as
no run of the restored board is cut short by a breakpoint of its own. -/
theorem restore_unnoticed (past : List Action) (y : Board) :
    (∀ (D : Type) (lib : Document.Library D), lib.Lawful → ∀ old, Document.Readable old →
      lib.snapshot.read (lib.snapshot.write (({} : Board).performAll past).snapshot) old =
        ⟨(({} : Board).performAll past).snapshot, none⟩) ∧
    ∃ restored, y.restore (({} : Board).performAll past).snapshot = .ok restored ∧
      ∀ future : List Action,
        (∀ before budget after, future = before ++ .run budget :: after →
          ¬(restored.performAll before).cutsShort budget) →
        ((({} : Board).performAll past).performAll future).LooksLike
          (restored.performAll future) := by
  have hrestorable := restorable_performAll (b := {}) (Processor.restorable_reset {}) past
  have hunmarked := unmarked_performAll (b := {}) ⟨rfl, rfl⟩ past
  refine ⟨fun _ _ hlib _ hold ↦ (Document.complete_snapshot hrestorable).read_write hlib hold, _,
    restore_snapshot y _, fun future hfuture ↦ ?_⟩
  exact looksLike_of_bare (bare_performAll (bare_takeOver y hrestorable).symm hunmarked hfuture)

/-- Breakpoints are not restored: a board with a breakpoint at the address of a restart stops its
run there, and the board that it was restored from does not. -/
theorem restore_noticed_at_breakpoint :
    let y := ({} : Board).setBreakpoint 8 false
    ∃ restored, y.restore ({} : Board).snapshot = .ok restored ∧
      ¬(({} : Board).performAll [.requestRestart 1, .run 12]).LooksLike
        (restored.performAll [.requestRestart 1, .run 12]) := by
  refine ⟨_, restore_snapshot _ _, fun h ↦ ?_⟩
  have hticks := congrArg Snapshot.ticks h.snapshot_eq
  revert hticks
  decide +kernel

end Board

end Mcs8
