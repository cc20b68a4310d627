import Mcs8.Document.Parser
import Mcs8.Document.Printer
import Mcs8.Document.Processor
import Mcs8.Board.Messages
import Mcs8.Script.Instruction

/-!
# Processors in scripts

The class of processor states has the registers, the pins and the saved form; the class of
processors extends it with the clock, the bus and the decoder.
-/

namespace Mcs8.Script

/-- Read an object from the text of a document; parts that were read before a fault stay. -/
def readText {α : Type} (codec : Document.Codec Document α) (object : α) (text : String) : Effect α :=
  match Document.parse text with
  | .error fault => .fail object (.document fault)
  | .ok d =>
    match codec.read d object with
    | ⟨object, none⟩ => { object }
    | ⟨object, some fault⟩ => .fail object (.document fault)

/-- A method that gives the text of the document of an object. -/
def savingMethod {α : Type} (codec : Document.Codec Document α) : Method α :=
  .query "to_json" fun object ↦ .text (codec.write object).compact

/-- A method that reads an object from the text of a document. -/
def readingMethod {α : Type} (read : α → String → Effect α) : Method α where
  name := "from_json"
  parameters := [.plain]
  run
    | object, [.text text] => read object text
    | object, _ => .fail object .mismatch

/-- The register that a value names. -/
def register? (v : Value) : Option Register := Enumeration.register.toMember? Register.all v

/-- A property that can only be read and is a byte. -/
def byteProperty {α : Type} (name : String) (byte : α → UInt8) : Property α where
  name := name
  read object := .byte (byte object)

/-- A property that can only be read and is a truth value. -/
def boolProperty {α : Type} (name : String) (bool : α → Bool) : Property α where
  name := name
  read object := .bool (bool object)

/-- A property that is a truth value and can be changed. -/
def switchProperty {α : Type} (name : String) (bool : α → Bool) (set : α → Bool → α) :
    Property α where
  name := name
  read object := .bool (bool object)
  write := some fun
    | object, .bool b => some (set object b)
    | _, _ => none

/-- A property that is a number and can be changed. -/
def numberProperty {α : Type} (name : String) (number : α → Int) (set : α → Int → α) :
    Property α where
  name := name
  read object := .int (number object)
  write := some fun
    | object, .int n => some (set object n)
    | _, _ => none

/-- The class of processor states. -/
def processorStateClass : Class ProcessorState where
  name := "I8008State"
  methods := [
    { name := "get_register"
      parameters := [.plain]
      run
        | s, [r] =>
          match register? r with
          | some r => .give s (.byte (s.registers.read r))
          | none => .fail s .mismatch
        | s, _ => .fail s .mismatch },
    { name := "set_register"
      parameters := [.plain, .plain]
      run
        | s, [r, .int v] =>
          match register? r with
          | some r => { object := s.setRegister r (.ofInt v) }
          | none => .fail s .mismatch
        | s, _ => .fail s .mismatch },
    savingMethod Document.processor,
    readingMethod (readText Document.processor)]
  properties := [
    { name := "state", read s := Enumeration.state.value s.state.code },
    { name := "state_code", read s := .int s.state.code },
    boolProperty "sync" (·.state.startsCycle),
    { name := "cycle_type", read s := Enumeration.cycleKind.value s.cycleKind.code },
    byteProperty "data_bus" (·.busSample),
    boolProperty "ready_line" (·.readySample),
    boolProperty "interrupt_line" (·.interruptSample),
    byteProperty "A" (·.registers.read .A),
    byteProperty "B" (·.registers.read .B),
    byteProperty "C" (·.registers.read .C),
    byteProperty "D" (·.registers.read .D),
    byteProperty "E" (·.registers.read .E),
    byteProperty "H" (·.registers.read .H),
    byteProperty "L" (·.registers.read .L),
    { name := "HL", read s := .word s.registers.pointer },
    numberProperty "flags" (·.flags.toByte.toNat) fun s n ↦
      { s with flags := .ofByte (.ofInt n) },
    numberProperty "PC" (·.pc.toNat) (fun s n ↦ s.setPc (.ofInt n)),
    { name := "stack"
      read s := .list [.list (s.stack.slots.toList.map .word), .int s.stack.pointer.val] },
    numberProperty "IR" (·.ir.toNat) (fun s n ↦ { s with ir := .ofInt n }),
    byteProperty "reg_a" (·.tempA),
    byteProperty "reg_b" (·.tempB),
    { name := "machine_cycle", read s := .int s.cycleNumber.toInt },
    boolProperty "acknowledging" (·.isAcknowledge),
    boolProperty "interrupt_pending" (·.synchronizer.pending),
    boolProperty "stopped" (·.state == .stopped),
    numberProperty "num_cycles" (·.cycles.toNat) (fun s n ↦ { s with cycles := .ofInt n })]

/-- Read a processor from the text of a document. The text is read into a new state, and the
processor only takes over a state that was read to its end. -/
def readProcessor (p : Processor) (text : String) : Effect Processor :=
  match readText Document.processor {} text with
  | ⟨s, .ok _, _⟩ => { object := p.load s }
  | ⟨_, .error failure, _⟩ => .fail p failure

/-- The functions of the processor class that need no processor. -/
def processorStatics : List Function := [
  { name := "decode"
    parameters := [.plain]
    run
      | [.int opcode] => .ok (.entity (.descriptor (decode (.ofInt opcode))))
      | _ => .error .mismatch },
  { name := "decode_bytes"
    parameters := [.plain]
    run
      | [.list bytes] =>
        match Value.toBytes? bytes with
        | some [first, second, third] =>
          .ok (.entity (.instruction (.instruction (.decode first second third))))
        | _ => .error .mismatch
      | _ => .error .mismatch },
  { name := "disassemble"
    parameters := [{ name := some "bytes" }, { name := some "origin", default := some (.int 0) }]
    run
      | [.buffer b, .int origin] => do
        let bytes ← b.contents
        return .list ((disassemble (.ofInt origin) bytes).map lineValue)
      | _ => .error .mismatch }]

/-- The class of processors, without what it inherits. -/
def processorOwnClass : Class Processor where
  name := "I8008"
  methods := [
    { name := "load_state"
      parameters := [.plain]
      run
        | p, [.entity (.processorState s)] => { object := p.load s }
        | p, [.entity (.processor q)] => { object := p.load q.toProcessorState }
        | p, _ => .fail p .mismatch },
    readingMethod readProcessor,
    .action "reset" Processor.reset,
    { name := "cycle"
      parameters := [
        { name := some "bus" },
        { name := some "ready", default := some (.bool true) },
        { name := some "interrupt_request", default := some (.bool false) }]
      run
        | p, [.int bus, .bool ready, .bool interrupt] =>
          { object := p.step (.ofInt bus) ready interrupt
            messages := p.stepMessage (.ofInt bus) ready interrupt }
        | p, _ => .fail p .mismatch },
    .query "get_bus_drive" fun p ↦ .list [.bool p.offer.enabled, .byte p.offer.value]]
  statics := processorStatics
  properties := [
    numberProperty "IR" (·.ir.toNat) (fun p n ↦ p.setIr (.ofInt n)),
    { name := "cycle_address", read p := .word p.sentAddress },
    { name := "decoded_instruction", read p := .entity (.descriptor p.decoded) },
    switchProperty "verbose" (·.announces) (fun p announces ↦ { p with announces })]

/-- The class of processors. -/
def processorClass : Class Processor :=
  processorOwnClass.extending processorStateClass Processor.toProcessorState
    fun p s ↦ { p with toProcessorState := s }

end Mcs8.Script
