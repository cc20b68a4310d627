import Mcs8.Board.Run
import Mcs8.Document.Snapshot
import Mcs8.Script.Processor

/-!
# Ports and boards in scripts

The classes of ports, of the records of writes and of the bus, of snapshots and of boards.
-/

namespace Mcs8.Script

/-! ### Ports -/

/-- The class of records of writes. -/
def outputRecordClass : Class OutputRecord where
  name := "PortWrite"
  constructible := false
  properties := [
    { name := "port", read w := .int w.port.toInt },
    byteProperty "value" (·.value),
    { name := "tick", read w := .count w.tick }]

/-- A property that is a row of `n` bytes and can be changed. -/
def rowProperty {α : Type} {n : Nat} (name : String) (row : α → Vector UInt8 n)
    (set : α → Vector UInt8 n → α) : Property α where
  name := name
  read object := .bytes (row object).toList
  write := some fun
    | object, .list values => do
      let bytes ← Value.toBytes? values
      if h : bytes.length = n then some (set object ⟨bytes.toArray, by simp [h]⟩) else none
    | _, _ => none

/-- The class of port states. -/
def portBankClass : Class PortBank where
  name := "I8008PortsState"
  statics := [
    { name := "is_input"
      parameters := [.plain]
      run
        | [.int port] => .ok (.bool (PortBank.isInput port))
        | _ => .error .mismatch }]
  properties := [
    rowProperty "inputs" (·.inputs) (fun s inputs ↦ { s with inputs }),
    rowProperty "outputs" (·.outputs) (fun s outputs ↦ { s with outputs }),
    { name := "write_log", read s := .list (s.log.toList.map fun w ↦ .entity (.outputRecord w)) }]

/-- A method that sets the byte at an input port. -/
def inputMethod {α : Type} (set : α → Int → UInt8 → α) : Method α where
  name := "set_input"
  parameters := [.plain, .plain]
  run
    | object, [.int port, .int value] => { object := set object port (.ofInt value) }
    | object, _ => .fail object .mismatch

/-- A method that gives the byte at a port. -/
def portMethod {α : Type} (name : String) (get : α → Int → UInt8) : Method α where
  name := name
  parameters := [.plain]
  run
    | object, [.int port] => .give object (.byte (get object port))
    | object, _ => .fail object .mismatch

/-- The class of ports, without what it inherits. -/
def portsOwnClass : Class Ports where
  name := "I8008Ports"
  methods := [
    { name := "load_state"
      parameters := [.plain]
      run
        | p, [.entity (.portBank s)] => { object := p.load s }
        | p, [.entity (.ports q)] => { object := p.load q.toPortBank }
        | p, _ => .fail p .mismatch },
    .action "reset" Ports.reset,
    inputMethod fun p port value ↦ p.load (p.setInput port value),
    portMethod "get_input" fun p port ↦ p.input port,
    portMethod "get_output" fun p port ↦ p.output port,
    .action "clear_write_log" fun p ↦ p.load p.clearLog]
  properties := [switchProperty "verbose" (·.announces) (fun p announces ↦ { p with announces })]

/-- The class of ports. -/
def portsClass : Class Ports :=
  portsOwnClass.extending portBankClass Ports.toPortBank fun p s ↦ { p with toPortBank := s }

/-! ### Boards -/

/-- The class of records of the bus. -/
def busRecordClass : Class BusRecord where
  name := "BusTraceEntry"
  constructible := false
  methods := [.query "__str__" fun e ↦ .text e.text]
  properties := [
    { name := "tick", read e := .count e.tick },
    { name := "state", read e := Enumeration.state.value e.state.code },
    boolProperty "sync" (·.sync),
    { name := "cycle_type", read e := Enumeration.cycleKind.value e.cycleKind.code },
    byteProperty "bus" (·.bus),
    { name := "driver", read e := Enumeration.busOwner.value e.owner.code }]

/-- The class of snapshots. -/
def snapshotClass : Class Snapshot where
  name := "SystemState"
  methods := [savingMethod Document.snapshot, readingMethod (readText Document.snapshot)]

/-- The reasons for which a run stopped. -/
def reasonsValue (r : StopReasons) : Value :=
  let reasons := [(r.halted, 0), (r.breakpoint, 1), (r.budgetSpent, 2)].filter (·.1)
  .list (reasons.map fun reason ↦ Enumeration.stoppingReason.value reason.2)

/-- A call that changes the board unless it is refused. -/
def change (b : Board) (result : Except BoardError Board) : Effect Board :=
  match result with
  | .ok b => { object := b }
  | .error e => .fail b (.ofBoardError e)

/-- Request an interrupt. -/
def requestInterrupt (b : Board) (opcode : UInt8) : Effect Board where
  object := b.requestInterrupt opcode
  messages := b.requestMessage opcode

/-- A method that sets or clears a breakpoint. -/
def breakpointMethod (name : String) (alter : Board → UInt16 → Bool → Board) : Method Board where
  name := name
  parameters := [
    { name := some "address" }, { name := some "temporary", default := some (.bool false) }]
  run
    | b, [.int address, .bool temporary] => { object := alter b (.ofInt address) temporary }
    | b, _ => .fail b .mismatch

/-- The methods of boards. -/
def boardMethods : List (Method Board) := [
  { name := "cycle"
    parameters := [.plain]
    run
      | b, [.int budget] =>
        let r := b.run (.ofInt budget)
        { object := r.board
          result := .ok (.list [reasonsValue r.reasons, .int r.remaining])
          messages := r.messages }
      | b, _ => .fail b .mismatch },
  { name := "tick"
    run
      | b, [] => { object := b.tick, messages := b.tickMessages }
      | b, _ => .fail b .mismatch },
  { name := "reset"
    run
      | b, [] => { object := b.reset, messages := b.resetMessage }
      | b, _ => .fail b .mismatch },
  { name := "load_program"
    parameters := [{ name := some "bytes" }, { name := some "origin", default := some (.int 0) }]
    run
      | b, [.buffer buffer, .int origin] =>
        match buffer.contents with
        | .ok bytes => change b (b.load bytes (.ofInt origin))
        | .error failure => .fail b failure
      | b, _ => .fail b .mismatch },
  { name := "peek"
    parameters := [.plain]
    run
      | b, [.int address] =>
        .attempt b (((b.peek (.ofInt address)).map .byte).mapError .ofBoardError)
      | b, _ => .fail b .mismatch },
  { name := "poke"
    parameters := [.plain, .plain]
    run
      | b, [.int address, .int value] => change b (b.poke (.ofInt address) (.ofInt value))
      | b, _ => .fail b .mismatch },
  { name := "load_state"
    parameters := [.plain]
    run
      | b, [.entity (.snapshot s)] => change b (b.restore s)
      | b, _ => .fail b .mismatch },
  .query "save_state" fun b ↦ .entity (.snapshot b.snapshot),
  .query "make_state" fun _ ↦ .entity (.snapshot {}),
  { name := "request_interrupt"
    parameters := [.plain]
    run
      | b, [.int opcode] => requestInterrupt b (.ofInt opcode)
      | b, _ => .fail b .mismatch },
  { name := "request_restart"
    parameters := [.plain]
    run
      | b, [.int vector] => requestInterrupt b (Board.restartOpcode vector)
      | b, _ => .fail b .mismatch },
  inputMethod Board.setInput,
  portMethod "get_output" fun b port ↦ b.ports.output port,
  breakpointMethod "set_breakpoint" Board.setBreakpoint,
  breakpointMethod "clear_breakpoint" Board.clearBreakpoint,
  .action "set_breakpoint_on_next_instruction" fun b ↦ { b with breakOnNext := true },
  .action "clear_breakpoint_on_next_instruction" fun b ↦ { b with breakOnNext := false },
  .action "clear_trace" fun b ↦ { b with trace := #[] }]

/-- The class of boards. -/
def boardClass : Class Board where
  name := "System"
  methods := boardMethods
  properties := [
    { name := "tick_number", read b := .count b.ticks },
    boolProperty "interrupt_line" (·.interrupter.line),
    boolProperty "interrupt_queued" (·.interrupter.waiting),
    switchProperty "ready" (·.readyLevel) Board.setReady,
    switchProperty "trace_enabled" (·.tracing) fun b tracing ↦ { b with tracing },
    { name := "trace", read b := .list (b.trace.toList.map fun e ↦ .entity (.busRecord e)) },
    numberProperty "verbosity" (·.messageLevel) Board.setMessageLevel,
    { name := "cpu", read _ := .part .cpu },
    { name := "ports", read _ := .part .ports }]

end Mcs8.Script
