import Mcs8.Code

/-!
# The state sequencer

A machine cycle runs through the processor states `T1 T2 T3`, with waits between `T2` and `T3`, and
two further states `T4 T5` when an instruction has something to execute. `T1I` replaces `T1` at the
start of an interrupt acknowledge, and a halted processor stays in `STOPPED` until an interrupt.
The state is visible outside on three pins, and its code is what they carry.
-/

namespace Mcs8

/-- A processor state, listed by its code on the state pins. -/
inductive TState where
  | wait
  | t3
  | t1
  | stopped
  | t2
  | t5
  | t1i
  | t4
  deriving DecidableEq

namespace TState

/-- All states in the order of their codes. -/
def all : List TState := [wait, t3, t1, stopped, t2, t5, t1i, t4]

/-- The code of a state on the pins. -/
def code : TState → Nat
  | wait => 0
  | t3 => 1
  | t1 => 2
  | stopped => 3
  | t2 => 4
  | t5 => 5
  | t1i => 6
  | t4 => 7

/-- The state with the given code. -/
def ofCode? (code : Int) : Option TState := Code.value? all code

/-- The state in the low three bits of a field. -/
def ofField (field : UInt8) : TState :=
  match field % 8 with
  | 0 => wait
  | 1 => t3
  | 2 => t1
  | 3 => stopped
  | 4 => t2
  | 5 => t5
  | 6 => t1i
  | _ => t4

@[simp] theorem ofField_code (s : TState) : ofField (UInt8.ofNat s.code) = s := by
  cases s <;> rfl

/-- The name of a state. -/
def name : TState → String
  | wait => "WAIT"
  | t3 => "T3"
  | t1 => "T1"
  | stopped => "STOPPED"
  | t2 => "T2"
  | t5 => "T5"
  | t1i => "T1I"
  | t4 => "T4"

/-- The name of the state with a given code, a question mark if there is none. -/
def nameOfCode (code : Int) : String := Code.name all name code

/-- The states that begin a machine cycle. -/
def startsCycle (s : TState) : Bool := s == t1 || s == t1i

/-- The state in which a device may drive the bus. -/
def isDataState (s : TState) : Bool := s == t3

end TState

/-- What the sequencer looks at when it leaves a state. -/
structure BoundarySignals where
  /-- The ready line, looked at in `T2` and while waiting. -/
  ready : Bool := true
  /-- An interrupt waits, looked at while stopped. -/
  interrupt : Bool := false
  /-- The machine cycle has an execute phase, looked at in `T3`. -/
  executes : Bool := false
  /-- The instruction halts the processor, looked at in `T3`. -/
  halt : Bool := false
  /-- The next machine cycle acknowledges an interrupt. -/
  acknowledge : Bool := false

namespace TState

/-- The first state of the next machine cycle. -/
def cycleStart (acknowledge : Bool) : TState := if acknowledge then t1i else t1

/-- The state that follows. -/
def next (s : TState) (signals : BoundarySignals) : TState :=
  match s with
  | stopped => if signals.interrupt then t1i else stopped
  | t1 | t1i => t2
  | t2 | wait => if signals.ready then t3 else wait
  | t3 =>
    if signals.halt then stopped
    else if signals.executes then t4
    else cycleStart signals.acknowledge
  | t4 => t5
  | t5 => cycleStart signals.acknowledge

/-- The state that follows the one with a given code. A code that names no state stops. -/
def nextOfCode (code : Int) (signals : BoundarySignals) : TState :=
  ((ofCode? code).map (next · signals)).getD stopped

end TState

end Mcs8
