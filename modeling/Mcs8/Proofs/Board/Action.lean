import Mathlib.Logic.Function.Iterate
import Mathlib.Tactic.Common
import Mcs8.Proofs.Board.Tick

/-!
# Actions of the host

Everything a host can do with a board but look at it: tick it, run it, load it, turn its pins and
devices. Boards that matter are the ones that a fresh board becomes by such actions.

A run is nothing but ticks (`board_run`): all it adds is that a breakpoint it meets is used up. So a
property of processor, latch and interrupting device that ticks, requests and resets keep is kept by
every action that does not reach into the processor (`Invariant.performAll`).
-/

namespace Mcs8

/-- An action of the host. -/
inductive Action where
  | tick
  | run (budget : UInt64)
  | reset
  | load (bytes : List UInt8) (origin : UInt16)
  | poke (address : UInt16) (value : UInt8)
  | setInput (port : Int) (value : UInt8)
  | setReady (level : Bool)
  | requestInterrupt (opcode : UInt8)
  | requestRestart (vector : Int)
  /-- Set the instruction register of the processor. -/
  | setIr (ir : UInt8)
  deriving DecidableEq

namespace Action

/-- The action sets the instruction register. -/
def setsIr : Action → Bool
  | setIr _ => true
  | _ => false

/-- The action resets the board. -/
def resets : Action → Bool
  | reset => true
  | _ => false

/-- The action is a run. -/
def runs : Action → Bool
  | run _ => true
  | _ => false

/-- The opcode of the interrupt that the action requests. -/
def request? : Action → Option UInt8
  | requestInterrupt opcode => some opcode
  | requestRestart vector => some (Board.restartOpcode vector)
  | _ => none

end Action

namespace Board

variable (b : Board)

/-- The board after an operation: a refused one changes nothing. -/
def orKeep : Except BoardError Board → Board
  | .ok after => after
  | .error _ => b

/-- Carry out an action. -/
def perform : Action → Board
  | .tick => b.tick
  | .run budget => (b.run budget).board
  | .reset => b.reset
  | .load bytes origin => b.orKeep (b.load bytes origin)
  | .poke address value => b.orKeep (b.poke address value)
  | .setInput port value => b.setInput port value
  | .setReady level => b.setReady level
  | .requestInterrupt opcode => b.requestInterrupt opcode
  | .requestRestart vector => b.requestRestart vector
  | .setIr ir => { b with cpu := b.cpu.setIr ir }

/-- Carry out actions one after the other. -/
def performAll (actions : List Action) : Board := actions.foldl perform b

@[simp] theorem performAll_nil : b.performAll [] = b := rfl

@[simp] theorem performAll_cons (a : Action) (actions : List Action) :
    b.performAll (a :: actions) = (b.perform a).performAll actions := rfl

theorem performAll_append (actions more : List Action) :
    b.performAll (actions ++ more) = (b.performAll actions).performAll more := by
  simp [performAll]

variable {b} in
/-- What each of the allowed actions keeps, a sequence of them keeps. -/
theorem performAll_induction {P : Board → Prop} {allowed : Action → Prop}
    (hperform : ∀ {b : Board} {a : Action}, P b → allowed a → P (b.perform a)) (hb : P b)
    {actions : List Action} (ha : ∀ a ∈ actions, allowed a) : P (b.performAll actions) := by
  induction actions generalizing b with
  | nil => exact hb
  | cons a actions ih =>
    obtain ⟨hfirst, hrest⟩ := List.forall_mem_cons.mp ha
    exact ih (hperform hb hfirst) hrest

theorem perform_load_frame (bytes : List UInt8) (origin : UInt16) :
    b.perform (.load bytes origin) =
      { b with memory := (b.perform (.load bytes origin)).memory } := by
  show b.orKeep (b.load bytes origin) = { b with memory := (b.orKeep (b.load bytes origin)).memory }
  unfold load
  split_ifs <;> rfl

theorem perform_poke_frame (address : UInt16) (value : UInt8) :
    b.perform (.poke address value) =
      { b with memory := (b.perform (.poke address value)).memory } := by
  show b.orKeep (b.poke address value) =
    { b with memory := (b.orKeep (b.poke address value)).memory }
  unfold poke
  split_ifs <;> rfl

/-! ### Runs are ticks -/

theorem consumeBreakpoint_frame : b.consumeBreakpoint =
    { b with
      breakOnNext := b.consumeBreakpoint.breakOnNext
      breakpoints := b.consumeBreakpoint.breakpoints } := by
  unfold consumeBreakpoint
  split <;> rfl

variable {b} in
/-- The ticks of a run and the rest of its budget make up the budget. What a run does to a board
beyond ticking it is to use up a breakpoint. -/
theorem board_runFrom (written : String) (budget : Nat) :
    (b.runFrom written budget).remaining ≤ budget ∧
    ((b.runFrom written budget).board =
        tick^[budget - (b.runFrom written budget).remaining] b ∨
      (b.runFrom written budget).board =
        (tick^[budget - (b.runFrom written budget).remaining] b).consumeBreakpoint) := by
  induction budget generalizing b written with
  | zero => exact ⟨Nat.le_refl 0, .inl rfl⟩
  | succ budget ih =>
    rw [runFrom]
    split
    · refine ⟨Nat.le_succ budget, .inr ?_⟩
      rw [Nat.add_sub_cancel_left]
      rfl
    · obtain ⟨hle, hboard⟩ := ih (b := b.tick) (written ++ b.tickMessages ++ _)
      refine ⟨Nat.le_succ_of_le hle, ?_⟩
      rw [Nat.succ_sub hle, Function.iterate_succ_apply]
      exact hboard

/-- The number of ticks that a run makes. -/
def ticksOf (budget : UInt64) : Nat := budget.toNat - (b.run budget).remaining

theorem board_run (budget : UInt64) : (b.run budget).board = tick^[b.ticksOf budget] b ∨
    (b.run budget).board = (tick^[b.ticksOf budget] b).consumeBreakpoint :=
  (board_runFrom "" budget.toNat).2

/-- A run leaves the board of its last tick, but for the breakpoint that it uses up. -/
theorem run_frame (budget : UInt64) : (b.run budget).board =
    { tick^[b.ticksOf budget] b with
      breakOnNext := (b.run budget).board.breakOnNext
      breakpoints := (b.run budget).board.breakpoints } := by
  rcases b.board_run budget with heq | heq
  · rw [heq]
  · rw [heq, consumeBreakpoint_frame]

/-! ### Invariants -/

/-- A property that looks at processor, latch and interrupting device only, and that ticks, requests
and resets keep. -/
structure Invariant (P : Board → Prop) : Prop where
  congr {b c : Board} : P b → c.cpu = b.cpu → c.latch = b.latch → c.interrupter = b.interrupter →
    P c
  tick {b : Board} : P b → P b.tick
  requestInterrupt {b : Board} (opcode : UInt8) : P b → P (b.requestInterrupt opcode)
  reset {b : Board} : P b → P b.reset

namespace Invariant

variable {P : Board → Prop} {b}

theorem iterate_tick (h : Invariant P) (hb : P b) (n : Nat) : P (Board.tick^[n] b) := by
  induction n generalizing b with
  | zero => exact hb
  | succ n ih => exact ih (h.tick hb)

theorem run (h : Invariant P) (hb : P b) (budget : UInt64) : P (b.run budget).board := by
  rw [run_frame]
  exact h.congr (h.iterate_tick hb _) rfl rfl rfl

/-- Every action keeps the property, but for one that sets the instruction register. -/
theorem perform (h : Invariant P) (hb : P b) {a : Action} (ha : a.setsIr = false) :
    P (b.perform a) := by
  cases a with
  | tick => exact h.tick hb
  | run budget => exact h.run hb budget
  | reset => exact h.reset hb
  | load bytes origin =>
    rw [perform_load_frame]
    exact h.congr hb rfl rfl rfl
  | poke address value =>
    rw [perform_poke_frame]
    exact h.congr hb rfl rfl rfl
  | setInput port value => exact h.congr hb rfl rfl rfl
  | setReady level => exact h.congr hb rfl rfl rfl
  | requestInterrupt opcode => exact h.requestInterrupt opcode hb
  | requestRestart vector => exact h.requestInterrupt _ hb
  | setIr ir => contradiction

theorem performAll (h : Invariant P) (hb : P b) {actions : List Action}
    (ha : ∀ a ∈ actions, a.setsIr = false) : P (b.performAll actions) :=
  performAll_induction (P := P) (fun hb ha ↦ h.perform hb ha) hb ha

end Invariant

end Board

end Mcs8
