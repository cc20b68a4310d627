/-!
# The interrupting device

A device outside the processor requests interrupts and answers each acknowledge with an opcode. It
holds one raised request and one that waits; a newer request replaces the waiting one. After an
acknowledge the line has to be seen low by the processor before the next request is raised, since
the processor only notices rising edges.
-/

namespace Mcs8

/-- The request on the line, the one being answered, and the one that waits. -/
structure Interrupter where
  /-- The interrupt line. -/
  line : Bool := false
  /-- The opcode of the raised request. -/
  opcode : UInt8 := 0
  /-- The opcode of the request being answered. -/
  answer : UInt8 := 0
  /-- A request waits. -/
  waiting : Bool := false
  /-- The opcode of the request that waits. -/
  waitingOpcode : UInt8 := 0
  /-- The line was seen low since the last acknowledge. -/
  armed : Bool := true
  deriving DecidableEq

namespace Interrupter

variable (d : Interrupter)

/-- Raise the waiting request, if the line may go high. -/
def raiseLine : Interrupter :=
  if d.waiting && d.armed && !d.line then
    { d with opcode := d.waitingOpcode, line := true, waiting := false }
  else d

/-- Let a request wait, and raise it if the line may go high. -/
def request (opcode : UInt8) : Interrupter :=
  { d with waitingOpcode := opcode, waiting := true }.raiseLine

/-- The processor has clocked the line; a low line allows the next request. -/
def arm : Interrupter := if d.line then d else { d with armed := true }

/-- The processor acknowledges: the line goes low, and the raised request is being answered. -/
def withdraw : Interrupter :=
  if d.line then { d with answer := d.opcode, line := false, armed := false } else d

end Interrupter

end Mcs8
