import Mcs8.Script.Value

/-!
# Classes of objects

A class lists its methods, its static functions and its properties, and each entry of the list both
describes what it is called with and does the work. A class can extend a base class, whose entries
come after its own.
-/

namespace Mcs8.Script

/-- A parameter of a function. It can be given by its name if it has one, and be left out if it has
a default. -/
structure Parameter where
  name : Option String := none
  default : Option Value := none

/-- A parameter without a name. -/
def Parameter.plain : Parameter := {}

/-- The arguments of a call, in order and by name. -/
structure Arguments where
  positional : List Value := []
  named : List (String × Value) := []

/-- Give each parameter its argument: the one in its place, else the one with its name, else its
default. -/
def Arguments.bind (named : List (String × Value)) :
    List Parameter → List Value → Option (List Value)
  | [], [] => some []
  | [], _ :: _ => none
  | _ :: parameters, v :: values => (bind named parameters values).map (v :: ·)
  | p :: parameters, [] => do
    let v ← (p.name.bind fun key ↦ named.lookup key).or p.default
    return v :: (← bind named parameters [])

/-- What a call does to its object, gives, and writes. -/
structure Effect (α : Type) where
  object : α
  result : Except Failure Value := .ok .none
  messages : String := ""

/-- A function that needs no object. -/
structure Function where
  name : String
  parameters : List Parameter
  run : List Value → Except Failure Value

/-- A function of an object. -/
structure Method (α : Type) where
  name : String
  parameters : List Parameter := []
  run : α → List Value → Effect α

/-- A property of an object; a property without `write` can only be read. -/
structure Property (α : Type) where
  name : String
  read : α → Value
  write : Option (α → Value → Option α) := none

/-- A class of objects. -/
structure Class (α : Type) where
  name : String
  /-- The name of the base class. -/
  base : Option String := none
  /-- Scripts can make new objects. -/
  constructible : Bool := true
  methods : List (Method α) := []
  statics : List Function := []
  properties : List (Property α) := []
  inheritedMethods : List (Method α) := []
  inheritedProperties : List (Property α) := []

/-- Call a function with arguments. -/
def Function.call (f : Function) (arguments : Arguments) : Except Failure Value :=
  match Arguments.bind arguments.named f.parameters arguments.positional with
  | some values => f.run values
  | none => .error .mismatch

namespace Effect

variable {α β : Type}

/-- A call that fails. -/
def fail (object : α) (failure : Failure) : Effect α := ⟨object, .error failure, ""⟩

/-- A call that leaves its object as it is. -/
def give (object : α) (value : Value) : Effect α := ⟨object, .ok value, ""⟩

/-- A call that can fail and leaves its object as it is. -/
def attempt (object : α) (result : Except Failure Value) : Effect α := ⟨object, result, ""⟩

/-- Change the type of the object. -/
def map (f : α → β) (e : Effect α) : Effect β := ⟨f e.object, e.result, e.messages⟩

end Effect

namespace Method

variable {α β : Type}

/-- A method that takes no arguments and gives nothing. -/
def action (name : String) (change : α → α) : Method α where
  name := name
  run object
    | [] => { object := change object }
    | _ => .fail object .mismatch

/-- A method that takes no arguments and only looks. -/
def query (name : String) (value : α → Value) : Method α where
  name := name
  run object
    | [] => .give object (value object)
    | _ => .fail object .mismatch

/-- The method of a larger object that acts on one part of it. -/
def lift (get : β → α) (set : β → α → β) (m : Method α) : Method β where
  name := m.name
  parameters := m.parameters
  run object values := (m.run (get object) values).map (set object)

end Method

namespace Property

variable {α β : Type}

/-- The property of a larger object that concerns one part of it. -/
def lift (get : β → α) (set : β → α → β) (p : Property α) : Property β where
  name := p.name
  read object := p.read (get object)
  write := p.write.map fun write object value ↦ (write (get object) value).map (set object)

end Property

namespace Class

variable {α β : Type}

/-- Make a class of larger objects extend a class of their parts. -/
def extending (c : Class β) (base : Class α) (get : β → α) (set : β → α → β) : Class β :=
  { c with
    base := some base.name
    inheritedMethods := (base.methods ++ base.inheritedMethods).map (.lift get set)
    inheritedProperties := (base.properties ++ base.inheritedProperties).map (.lift get set) }

/-- Call a method. -/
def call (c : Class α) (object : α) (method : String) (arguments : Arguments) : Effect α :=
  match (c.methods ++ c.inheritedMethods).find? (·.name == method) with
  | none => .fail object .mismatch
  | some m =>
    match Arguments.bind arguments.named m.parameters arguments.positional with
    | some values => m.run object values
    | none => .fail object .mismatch

/-- The properties of a class, its own first. -/
def allProperties (c : Class α) : List (Property α) := c.properties ++ c.inheritedProperties

/-- Read a property. -/
def get? (c : Class α) (object : α) (property : String) : Option Value :=
  (c.allProperties.find? (·.name == property)).map (·.read object)

/-- Change a property. -/
def set? (c : Class α) (object : α) (property : String) (value : Value) : Option α := do
  let p ← c.allProperties.find? (·.name == property)
  (← p.write) object value

/-- All properties with their values; a property that the class defines anew counts once. -/
def attributes (c : Class α) (object : α) : List (String × Value) :=
  let own := c.properties.map (·.name)
  let base := c.inheritedProperties.filter fun p ↦ !own.contains p.name
  (c.properties ++ base).map fun p ↦ (p.name, p.read object)

end Class

/-! ### Descriptions -/

/-- What a class offers, without that of its base. -/
structure ClassDescription where
  name : String
  base : Option String
  constructible : Bool
  methods : List (String × List Parameter)
  statics : List Function
  /-- The properties, and whether they can be changed. -/
  properties : List (String × Bool)

/-- Describe a class. -/
def Class.describe {α : Type} (c : Class α) : ClassDescription where
  name := c.name
  base := c.base
  constructible := c.constructible
  methods := c.methods.map fun m ↦ (m.name, m.parameters)
  statics := c.statics
  properties := c.properties.map fun p ↦ (p.name, p.write.isSome)

end Mcs8.Script
