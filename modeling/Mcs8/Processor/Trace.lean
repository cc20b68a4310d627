import Mcs8.Instruction.Printer
import Mcs8.Processor

/-!
# The processor trace

A processor that announces its steps writes one line for each. The program counter and the state
are those before the step, all else is as the step leaves it.
-/

namespace Mcs8

namespace Scratchpad

/-- Print the registers, each as its letter and two digits. -/
def print (pad : Scratchpad) (pen : Pen) : Pen :=
  [Register.A, .B, .C, .D, .E, .H, .L].foldl (fun (pen : Pen) (r : Register) ↦
    ((pen.put r.name).put ":").field 2 (pad.read r).toNat |>.put " ") pen

end Scratchpad

/-- The flags as letters, a capital for a flag that is set. -/
def Flags.letters (f : Flags) : String :=
  (if f.carry then "C" else "c") ++ (if f.zero then "Z" else "z") ++
    (if f.sign then "S" else "s") ++ if f.parity then "P" else "p"

namespace Processor

/-- The line for the step from `p` to `after` with the given pins. -/
def traceLine (p after : Processor) (bus : UInt8) (ready interrupt : Bool) : String :=
  let pen : Pen := { fill := '0', hex := true }
  let pen := ((pen.put "I8008: @").field 4 p.pc.toNat).put " "
  let pen := { pen with fill := ' ', alignLeft := true, width := 7 }.put p.state.name
  let pen := ({ pen with alignLeft := false }.put " ").put after.cycleKind.name
  let pen := ((pen.put "/").put (toString after.cycleNumber.toInt)).put " "
  let pen := (pen.filledWith '0').field 2 bus.toNat
  let pen := (pen.put (if interrupt then " INT" else "    ")).put (if ready then "  " else " W")
  let pen := pen.put " "
  let pen := after.decoded.print { pen with fill := ' ', alignLeft := true, width := 10 }
  let pen := { pen with alignLeft := false }.put " "
  let pen := after.registers.print ((pen.filledWith '0').put "[")
  let pen := (pen.put after.flags.letters).put " SP:"
  (pen.inDecimal.number after.stack.pointer.val |>.put "]\n").text

end Processor

end Mcs8
