import Mcs8.Script.Class

/-!
# Instructions in scripts

Scripts see the fields of a descriptor under one class, and those of an instruction with its operand
under a class that extends it. A data byte of a disassembly is shown as an instruction that is
undefined and one byte long, and keeps the other fields of its opcode.
-/

namespace Mcs8.Script

/-- The fields of a descriptor, with the class and the length that are shown. -/
structure Features where
  descriptor : Descriptor
  kind : Kind
  length : Nat
  text : String

namespace Features

/-- The fields of a descriptor. -/
def ofDescriptor (d : Descriptor) : Features where
  descriptor := d
  kind := d.operation.kind
  length := d.operation.length
  text := d.text

/-- The fields of what a line of a disassembly shows. -/
def ofItem (item : ListingItem) : Features where
  descriptor := item.descriptor
  kind := item.kind
  length := item.length
  text := item.text

/-- The operation of the descriptor. -/
def operation (t : Features) : Operation := t.descriptor.operation

end Features

/-- The properties of the fields of a descriptor. -/
def featureProperties : List (Property Features) := [
  { name := "opcode", read t := .byte t.descriptor.opcode },
  { name := "length", read t := .int t.length },
  { name := "mnemonic", read t := .text t.operation.mnemonic },
  { name := "instruction_type", read t := Enumeration.kind.ofMember Kind.all t.kind },
  { name := "access_type", read t := Enumeration.access.ofMember Access.all t.operation.access },
  { name := "dst", read t := Enumeration.register.value t.operation.dst.index },
  { name := "src", read t := Enumeration.register.value t.operation.src.index },
  { name := "alu_op", read t := Enumeration.binaryOp.ofMember BinaryOp.all t.operation.binaryOp },
  { name := "rotate_op",
    read t := Enumeration.rotation.ofMember Rotation.all t.operation.rotation },
  { name := "vector", read t := .byte t.operation.vector },
  { name := "port", read t := .byte t.operation.port },
  { name := "undefined", read t := .bool t.operation.isUndefined },
  { name := "conditional", read t := .bool t.operation.condition.isConditional }]

/-- The class of descriptors. -/
def descriptorClass : Class Descriptor where
  name := "I8008.InstructionTraits"
  constructible := false
  methods := [.query "__str__" fun d ↦ .text d.text]
  properties := featureProperties.map (.lift Features.ofDescriptor fun d _ ↦ d)

/-- The class of instructions. -/
def instructionClass : Class ListingItem where
  name := "I8008.Instruction"
  base := some descriptorClass.name
  constructible := false
  methods := [.query "__str__" fun item ↦ .text item.text]
  properties := [{ name := "operand", read item := .word item.operand }]
  inheritedProperties := featureProperties.map (.lift Features.ofItem fun item _ ↦ item)

/-- A line of a disassembly as a pair. -/
def lineValue (line : ListingLine) : Value :=
  .list [.word line.address, .entity (.instruction line.item)]

end Mcs8.Script
