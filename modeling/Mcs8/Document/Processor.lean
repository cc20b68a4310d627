import Mcs8.Document.Codec
import Mcs8.Processor

/-!
# Saved processors

The document of a processor has one field for each part of its state. Reading keeps the state and
the cycle kind within their codes, addresses within 14 bits and the stack pointer within 3 bits;
the number of the machine cycle is taken as it is.
-/

namespace Mcs8

namespace Document

namespace Library

variable {D : Type} (lib : Library D)

/-- Registers, in the order `A B C D E H L`. -/
def registers : Codec D Scratchpad := (lib.bytes 7).coded (·.bytes) .mk

/-- Flags, as a number. -/
def flags : Codec D Flags := lib.coded (fun f ↦ f.toByte.toNat) .ofByte

/-- Addresses, kept within 14 bits. -/
def address : Codec D UInt16 := lib.word.coded id (· % addressSpace)

/-- Stack pointers, kept within 3 bits. -/
def stackPointer : Codec D (Fin 8) :=
  lib.byte.coded (fun p ↦ .ofNat p.val) fun b ↦ .ofNat 8 b.toNat

/-- The address stack. -/
def returnStack : Codec D ReturnStack :=
  lib.record [
    .part "slots" (·.slots) (fun s slots ↦ { s with slots }) (lib.words 8).codec,
    .part "pointer" (·.pointer) (fun s pointer ↦ { s with pointer }) lib.stackPointer]

/-- The interrupt synchronizer. -/
def synchronizer : Codec D Synchronizer :=
  lib.record [
    .part "stage1" (·.first) (fun s first ↦ { s with first }) lib.bool.codec,
    .part "stage2" (·.second) (fun s second ↦ { s with second }) lib.bool.codec,
    .part "previous" (·.former) (fun s former ↦ { s with former }) lib.bool.codec,
    .part "latch" (·.request) (fun s request ↦ { s with request }) lib.bool.codec]

/-- The parts of a processor state. -/
def processorFields : List (Field D ProcessorState) := [
  .part "state" (·.state) (fun s state ↦ { s with state }) (lib.coded TState.code .ofField),
  .part "cycleType" (·.cycleKind) (fun s cycleKind ↦ { s with cycleKind })
    (lib.coded CycleKind.code .ofField),
  .part "dataBus" (·.busSample) (fun s busSample ↦ { s with busSample }) lib.byte.codec,
  .part "readyLine" (·.readySample) (fun s readySample ↦ { s with readySample }) lib.bool.codec,
  .part "interruptLine" (·.interruptSample) (fun s interruptSample ↦ { s with interruptSample })
    lib.bool.codec,
  .part "regs" (·.registers) (fun s registers ↦ { s with registers }) lib.registers,
  .part "flags" (·.flags) (fun s flags ↦ { s with flags }) lib.flags,
  .part "PC" (·.pc) (fun s pc ↦ { s with pc }) lib.address,
  .part "stack" (·.stack) (fun s stack ↦ { s with stack }) lib.returnStack,
  .part "IR" (·.ir) (fun s ir ↦ { s with ir }) lib.byte.codec,
  .part "regA" (·.tempA) (fun s tempA ↦ { s with tempA }) lib.byte.codec,
  .part "regB" (·.tempB) (fun s tempB ↦ { s with tempB }) lib.byte.codec,
  .part "machineCycle" (·.cycleNumber) (fun s cycleNumber ↦ { s with cycleNumber })
    lib.integer.codec,
  .part "executePhase" (·.executes) (fun s executes ↦ { s with executes }) lib.bool.codec,
  .part "conditionMet" (·.conditionHeld) (fun s conditionHeld ↦ { s with conditionHeld })
    lib.bool.codec,
  .part "acknowledging" (·.isAcknowledge) (fun s isAcknowledge ↦ { s with isAcknowledge })
    lib.bool.codec,
  .part "acknowledgePending" (·.accepted) (fun s accepted ↦ { s with accepted }) lib.bool.codec,
  .part "interrupt" (·.synchronizer) (fun s synchronizer ↦ { s with synchronizer })
    lib.synchronizer,
  .part "numCycles" (·.cycles) (fun s cycles ↦ { s with cycles }) lib.counter.codec]

/-- A processor state. -/
def processor : Codec D ProcessorState := lib.record lib.processorFields

end Library

/-- A processor state, in trees of data. -/
def processor : Codec Document ProcessorState := library.processor

end Document

end Mcs8
