import Mcs8.Script.Catalogue

/-!
# Script sessions

A session holds objects in numbered cells and variables that name them. Variables hold references: a
variable for the processor or the ports of a board names that part of the board itself, so that what
is done through one is seen through the other.
-/

namespace Mcs8.Script

/-- Where an object is found: in a cell, or as a part of the board in one. -/
inductive Place where
  | cell (index : Nat)
  | part (p : Part) (index : Nat)

/-- What a variable holds. -/
inductive Held where
  | value (v : Value)
  | object (place : Place)

/-- The objects and the variables of a session; a newer variable hides an older one. -/
structure Session where
  cells : Array Entity := #[]
  bindings : List (String × Held) := []

/-- What a step of a session gives and writes. -/
structure StepResult where
  session : Session
  result : Except Failure Value := .ok .none
  messages : String := ""
  /-- The object that was asked. -/
  receiver : Option Place := none

namespace Session

variable (s : Session)

/-- The object at a place. -/
def object? (place : Place) : Option Entity :=
  match place with
  | .cell index => s.cells[index]?
  | .part .cpu index =>
    match s.cells[index]? with
    | some (.board b) => some (.processor b.cpu)
    | _ => none
  | .part .ports index =>
    match s.cells[index]? with
    | some (.board b) => some (.ports b.ports)
    | _ => none

/-- Store what a call has made of the object at a place. -/
def store (place : Place) (e : Entity) : Session :=
  match place, e with
  | .cell index, e => { s with cells := s.cells.setIfInBounds index e }
  | .part .cpu index, .processor cpu =>
    match s.cells[index]? with
    | some (.board b) => { s with cells := s.cells.setIfInBounds index (.board { b with cpu }) }
    | _ => s
  | .part .ports index, .ports ports =>
    match s.cells[index]? with
    | some (.board b) => { s with cells := s.cells.setIfInBounds index (.board { b with ports }) }
    | _ => s
  | _, _ => s

/-- The value of a variable, with an object as it is now. -/
def value? (name : String) : Option Value := do
  match ← s.bindings.lookup name with
  | .value v => return v
  | .object place => return .entity (← s.object? place)

/-- The place of the object that a variable names. -/
def place? (name : String) : Option Place := do
  match ← s.bindings.lookup name with
  | .value _ => none
  | .object place => return place

/-- Let a variable hold something. -/
def hold (name : String) (held : Held) : Session :=
  { s with bindings := (name, held) :: s.bindings }

/-- Let a variable hold a value that a call to the object at `receiver` gave. An object that
belongs to nobody gets a cell of its own. -/
def bind (name : String) (value : Value) (receiver : Option Place) : Session :=
  match value, receiver with
  | .entity e, _ =>
    let place := Place.cell s.cells.size
    { s with cells := s.cells.push e }.hold name (.object place)
  | .part p, some (.cell index) => s.hold name (.object (.part p index))
  | v, _ => s.hold name (.value v)

/-- A step that cannot be made. -/
def refuse : StepResult := { session := s, result := .error .mismatch }

/-- Make a new object. -/
def new (name className : String) : StepResult :=
  match construct? className with
  | some e => { session := s.bind name (.entity e) none }
  | none => s.refuse

/-- Call a method of an object. -/
def call (name method : String) (arguments : Arguments) : StepResult :=
  match s.place? name with
  | none => s.refuse
  | some place =>
    match s.object? place with
    | none => s.refuse
    | some e =>
      let effect := e.call method arguments
      { session := s.store place effect.object
        result := effect.result
        messages := effect.messages
        receiver := some place }

/-- Call a function. -/
def apply (f : Option Function) (arguments : Arguments) : StepResult :=
  match f with
  | some f => { session := s, result := f.call arguments }
  | none => s.refuse

/-- Read a property. -/
def get (name property : String) : StepResult :=
  match s.place? name with
  | none => s.refuse
  | some place =>
    match (s.object? place).bind (·.get? property) with
    | some v => { session := s, result := .ok v, receiver := some place }
    | none => s.refuse

/-- Change a property. -/
def set (name property : String) (value : Value) : StepResult :=
  match s.place? name with
  | none => s.refuse
  | some place =>
    match (s.object? place).bind (·.set? property value) with
    | some e => { session := s.store place e }
    | none => s.refuse

/-- Keep what a step gave in a variable. -/
def keep (name : String) (step : StepResult) : StepResult :=
  match step.result with
  | .ok v => { step with session := step.session.bind name v step.receiver }
  | .error _ => step

end Session

end Mcs8.Script
