import Mcs8.Document.Library

/-!
# Codecs

A codec writes values of a type as documents and reads documents back. Reading works on a value
that is there already and changes it part by part, so that a fault half way leaves it with the parts
that were read. A record is described by its fields, and that one description gives both directions;
the fields are read in the order in which they are listed.
-/

namespace Mcs8

namespace Document

/-- How far a document was read: the value with all that was stored in it, and the fault that ended
the reading. -/
structure Reading (α : Type) where
  value : α
  fault : Option Fault := none

/-- Apply a function to the value. -/
def Reading.map {α β : Type} (f : α → β) (r : Reading α) : Reading β := ⟨f r.value, r.fault⟩

/-- Both directions between values and documents. -/
structure Codec (D α : Type) where
  write : α → D
  read : D → α → Reading α

/-- A field of a record: its key, and how its part of the record is written and read. -/
structure Field (D α : Type) where
  key : String
  write : α → D
  read : D → α → Reading α
  /-- What happens to the record before the key is looked up. -/
  prepare : α → α := id

variable {D α β : Type}

/-- Read a document that gives a value from a default one. -/
def Codec.readNew (codec : Codec D α) (blank : α) (d : D) : Except Fault α :=
  match codec.read d blank with
  | ⟨value, none⟩ => .ok value
  | ⟨_, some fault⟩ => .error fault

namespace Stored

/-- The codec of values that are stored by their codes. They are read as a whole or not at all. -/
def coded (stored : Stored D β) (code : α → β) (decode : β → α) : Codec D α where
  write value := stored.put (code value)
  read d old :=
    match stored.get d with
    | .ok c => ⟨decode c, none⟩
    | .error fault => ⟨old, some fault⟩

/-- The codec of values that are stored as they are. -/
def codec (stored : Stored D α) : Codec D α := stored.coded id id

end Stored

/-- The field that holds one part of a record. -/
def Field.part (key : String) (get : α → β) (set : α → β → α) (codec : Codec D β) : Field D α where
  key := key
  write value := codec.write (get value)
  read d value := (codec.read d (get value)).map (set value)

@[simp] theorem Field.part_key {key : String} {get : α → β} {set : α → β → α} {codec : Codec D β} :
    (Field.part key get set codec).key = key := rfl

namespace Library

variable (lib : Library D)

/-- Read fields one after the other until one is at fault. -/
def readFields (d : D) : List (Field D α) → α → Reading α
  | [], value => ⟨value, none⟩
  | field :: rest, value =>
    let value := field.prepare value
    match lib.member d field.key with
    | .error fault => ⟨value, some fault⟩
    | .ok part =>
      match field.read part value with
      | ⟨value, none⟩ => readFields d rest value
      | faulty => faulty

/-- The codec of a record with the given fields. -/
def record (fields : List (Field D α)) : Codec D α where
  write value := lib.object (fields.map fun field ↦ (field.key, field.write value))
  read d := lib.readFields d fields

/-- Values of which the code fits into a byte, stored as integers. The low byte decides what is
read. -/
def coded (code : α → Nat) (ofField : UInt8 → α) : Codec D α :=
  lib.integer.coded (fun value ↦ .ofNat (code value)) fun n ↦ ofField n.toUInt32.toUInt8

end Library

end Document

end Mcs8
