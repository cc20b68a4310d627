import Mcs8.Board
import Mcs8.Processor.Trace

/-!
# Messages of a board

What the board, its ports and its processor write when they are asked to announce what they do.
Each message is a function of the board before the event.
-/

namespace Mcs8

/-- The announcement of a write to an output port. -/
def Ports.writeMessage (p : Ports) (port : Int) (value : UInt8) (tick : UInt64) : String :=
  if p.announces && PortBank.isOutput port then
    let pen := (({} : Pen).put "I8008Ports: OUT ").put (toString port)
    let pen := ((pen.put " = ").inHex.filledWith '0').field 2 value.toNat
    ((pen.put "h @").inDecimal.number tick.toNat |>.put "\n").text
  else ""

/-- The announcement of a step. -/
def Processor.stepMessage (p : Processor) (bus : UInt8) (ready interrupt : Bool) : String :=
  if p.announces then p.traceLine (p.step bus ready interrupt) bus ready interrupt else ""

namespace Board

variable (b : Board)

/-- The announcements of a tick: the step of the processor, then a write to an output port. -/
def tickMessages : String :=
  let settled := b.settle
  let step := b.cpu.stepMessage settled.bus b.readyLevel b.interrupter.raiseLine.line
  if b.cpu.state = .t3 && settled.latch.kind = .pcc then
    step ++ b.ports.writeMessage settled.addressedPort settled.latch.low b.ticks
  else step

/-- The announcement of a halt. -/
def haltMessage : String :=
  if 0 < b.messageLevel then
    let pen := ({} : Pen).put "System: CPU halted at "
    ((pen.inHex.filledWith '0').field 4 b.cpu.pc.toNat |>.put "\n").text
  else ""

/-- The announcement of a request for an interrupt. -/
def requestMessage (opcode : UInt8) : String :=
  if 0 < b.messageLevel then
    let pen := ({} : Pen).put "System: interrupt request, opcode "
    ((pen.inHex.filledWith '0').field 2 opcode.toNat |>.put "h\n").text
  else ""

/-- The announcement of a reset. -/
def resetMessage : String :=
  if 0 < b.messageLevel then
    let rule := String.ofList (.replicate 56 '-') ++ "\n"
    rule ++ "System Reset\n" ++ rule
  else ""

end Board

end Mcs8
