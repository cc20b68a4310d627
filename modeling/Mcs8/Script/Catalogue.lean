import Mcs8.Script.Board

/-!
# The catalogue of the script module

All that scripts can name: the classes, the enumerations and the functions, with what describes
them.
-/

namespace Mcs8.Script

/-- What the module says about itself. -/
def moduleText : String := "B8008 emulator"

/-- The exceptions that the module defines. -/
def exceptionNames : List String := ["InvalidStateException"]

/-- The functions of the module. Flags are numbers, carry in the lowest bit. -/
def functions : List Function := [
  { name := "alu"
    parameters := [
      { name := some "op" }, { name := some "a" }, { name := some "b" },
      { name := some "flags", default := some (.int 0) }]
    run
      | [op, .int a, .int b, .int flags] =>
        match Enumeration.binaryOp.toMember? BinaryOp.all op with
        | some op =>
          let r := Alu.apply op (.ofInt a) (.ofInt b) (.ofByte (.ofInt flags))
          .ok (.list [.byte r.value, .byte r.flags.toByte, .bool r.isStored])
        | none => .error .mismatch
      | _ => .error .mismatch },
  { name := "rotate"
    parameters := [
      { name := some "op" }, { name := some "a" },
      { name := some "flags", default := some (.int 0) }]
    run
      | [op, .int a, .int flags] =>
        match Enumeration.rotation.toMember? Rotation.all op with
        | some op =>
          let r := Alu.rotate op (.ofInt a) (.ofByte (.ofInt flags))
          .ok (.list [.byte r.value, .byte r.flags.toByte])
        | none => .error .mismatch
      | _ => .error .mismatch }]

/-- The descriptions of all classes. -/
def classes : List ClassDescription := [
  processorStateClass.describe, processorClass.describe, descriptorClass.describe,
  instructionClass.describe, outputRecordClass.describe, portBankClass.describe,
  portsClass.describe, busRecordClass.describe, snapshotClass.describe, boardClass.describe]

/-- The description of a class. -/
def class? (name : String) : Option ClassDescription := classes.find? (·.name == name)

/-- The static function of a class, or else of its base. -/
def static? (className name : String) : Option Function := do
  let c ← class? className
  let inherited := ((c.base.bind class?).map (·.statics)).getD []
  (c.statics ++ inherited).find? (·.name == name)

/-- A new object of a class. -/
def construct? (className : String) : Option Entity :=
  if className = processorStateClass.name then some (.processorState {})
  else if className = processorClass.name then some (.processor {})
  else if className = portBankClass.name then some (.portBank {})
  else if className = portsClass.name then some (.ports {})
  else if className = snapshotClass.name then some (.snapshot {})
  else if className = boardClass.name then some (.board {})
  else none

/-- An object with its class and the way back to an entity. -/
structure Instance where
  Carrier : Type
  type : Class Carrier
  object : Carrier
  toEntity : Carrier → Entity

namespace Entity

/-- The class of an object. -/
def described : Entity → Instance
  | processorState s => ⟨_, processorStateClass, s, processorState⟩
  | processor p => ⟨_, processorClass, p, processor⟩
  | descriptor d => ⟨_, descriptorClass, d, descriptor⟩
  | instruction i => ⟨_, instructionClass, i, instruction⟩
  | outputRecord w => ⟨_, outputRecordClass, w, outputRecord⟩
  | portBank s => ⟨_, portBankClass, s, portBank⟩
  | ports p => ⟨_, portsClass, p, ports⟩
  | busRecord e => ⟨_, busRecordClass, e, busRecord⟩
  | snapshot s => ⟨_, snapshotClass, s, snapshot⟩
  | board b => ⟨_, boardClass, b, board⟩

/-- The name of the class of an object. -/
def className (e : Entity) : String := e.described.type.name

/-- Whether scripts can make objects of the same class. -/
def isConstructible (e : Entity) : Bool := e.described.type.constructible

/-- Call a method. -/
def call (e : Entity) (method : String) (arguments : Arguments) : Effect Entity :=
  let i := e.described
  (i.type.call i.object method arguments).map i.toEntity

/-- Read a property. -/
def get? (e : Entity) (property : String) : Option Value :=
  let i := e.described
  i.type.get? i.object property

/-- Change a property. -/
def set? (e : Entity) (property : String) (value : Value) : Option Entity :=
  let i := e.described
  (i.type.set? i.object property value).map i.toEntity

/-- All properties with their values. -/
def attributes (e : Entity) : List (String × Value) :=
  let i := e.described
  i.type.attributes i.object

/-- The text of an object, if its class defines one. -/
def text? (e : Entity) : Option String :=
  match (e.call "__str__" {}).result with
  | .ok (.text s) => some s
  | _ => none

end Entity

/-- The name of the class of a part of a board. -/
def Part.className : Part → String
  | cpu => processorClass.name
  | ports => portsClass.name

end Mcs8.Script
