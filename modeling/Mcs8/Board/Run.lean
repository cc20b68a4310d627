import Mcs8.Board.Messages

/-!
# Running a board

A run ticks the board until a budget of ticks is spent, the processor halts, or an instruction at a
breakpoint is about to be fetched. Several of these can happen in one tick, and the run reports all
of them.
-/

namespace Mcs8

/-- Why a run stopped. -/
structure StopReasons where
  halted : Bool := false
  breakpoint : Bool := false
  budgetSpent : Bool := false
  deriving DecidableEq

/-- The outcome of a run. -/
structure RunResult where
  board : Board
  reasons : StopReasons
  /-- The rest of the budget. -/
  remaining : Nat
  /-- The messages written. -/
  messages : String

namespace Board

/-- The processor is about to fetch an instruction. -/
def atInstruction (b : Board) : Bool := b.cpu.state = .t1 && b.cpu.cycleNumber = 0

/-- The board stops before the next instruction. -/
def meetsBreakpoint (b : Board) : Bool :=
  b.atInstruction && (b.breakOnNext || b.breakpoints.contains b.cpu.pc)

/-- Use up what stops a board at an instruction only once. -/
def consumeBreakpoint (b : Board) : Board :=
  if b.atInstruction then
    { b with breakOnNext := false, breakpoints := b.breakpoints.clear b.cpu.pc true }
  else b

/-- The tick that began in the state `before` and led to `b` stopped the processor. -/
def haltedFrom (b : Board) (before : TState) : Bool := b.cpu.state = .stopped && before ≠ .stopped

/-- Run a board with a budget of ticks, after the messages `written`. -/
def runFrom (written : String) : Nat → Board → RunResult
  | 0, b => ⟨b, { budgetSpent := true }, 0, written⟩
  | budget + 1, b =>
    let before := b.cpu.state
    let written := written ++ b.tickMessages
    let after := b.tick
    let halted := after.haltedFrom before
    let breakpoint := after.meetsBreakpoint
    let written := written ++ if halted then after.haltMessage else ""
    if halted || breakpoint then
      ⟨after.consumeBreakpoint, { halted, breakpoint, budgetSpent := budget == 0 }, budget, written⟩
    else runFrom written budget after

/-- Run a board with a budget of ticks. -/
def run (b : Board) (budget : UInt64) : RunResult := b.runFrom "" budget.toNat

end Board

end Mcs8
