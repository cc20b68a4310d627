import Mcs8.Document

/-!
# Libraries of documents

States are saved in documents, and what a document is, is left to a library. It stores truth values,
numbers and arrays in documents and gives them back, and it finds the fields of objects and the
items of lists. Saving is described for any library (`Library`). Of a lawful one it is asked that it
gives back unchanged what it has stored (`Library.Lawful`). What a library makes of other documents
is its own affair: it may take a truth value for a number, or go through the values of an object as
through the items of a list.

The library that is run (`library`) stores values in trees of data and converts nothing.
-/

namespace Mcs8

namespace Document

/-- How the values of a type are stored in documents and read from them. -/
structure Stored (D α : Type) where
  put : α → D
  get : D → Except Fault α

/-- What is stored is given back unchanged. -/
def Stored.Faithful {D α : Type} (stored : Stored D α) : Prop :=
  ∀ value, stored.get (stored.put value) = .ok value

/-- What is asked of documents of type `D`. -/
structure Library (D : Type) where
  /-- The document that holds nothing. -/
  null : D
  /-- The document of a text. -/
  text : String → D
  /-- The list with the given items. -/
  list : List D → D
  /-- The object with the given fields. -/
  object : List (String × D) → D
  /-- The field of an object. -/
  member : D → String → Except Fault D
  /-- The documents that a loop over a document goes through. -/
  items : D → Except Fault (List D)
  /-- Truth values. -/
  bool : Stored D Bool
  /-- Integers of 32 bits. -/
  integer : Stored D Int32
  /-- Bytes. -/
  byte : Stored D UInt8
  /-- Words of 16 bits. -/
  word : Stored D UInt16
  /-- Counters of 64 bits. -/
  counter : Stored D UInt64
  /-- A fixed number of bytes. -/
  bytes (n : Nat) : Stored D (Vector UInt8 n)
  /-- A fixed number of words. -/
  words (n : Nat) : Stored D (Vector UInt16 n)
  /-- Any number of bytes. -/
  buffer : Stored D (Array UInt8)

/-- The library gives back unchanged what it has stored. -/
structure Library.Lawful {D : Type} (lib : Library D) : Prop where
  /-- An object made of fields with different keys has each of them. -/
  member_object {fields : List (String × D)} {key : String} {d : D} :
    (fields.map Prod.fst).Nodup → (key, d) ∈ fields → lib.member (lib.object fields) key = .ok d
  /-- A loop over a list goes through its items. -/
  items_list (items : List D) : lib.items (lib.list items) = .ok items
  bool : lib.bool.Faithful
  integer : lib.integer.Faithful
  byte : lib.byte.Faithful
  word : lib.word.Faithful
  counter : lib.counter.Faithful
  bytes (n : Nat) : (lib.bytes n).Faithful
  words (n : Nat) : (lib.words n).Faithful
  buffer : lib.buffer.Faithful

/-! ### Trees of data -/

variable {α : Type}

/-- Values that are stored as numbers, and for which any number stands for some value. -/
def numbers (toInt : α → Int) (ofInt : Int → α) : Stored Document α where
  put value := .number (toInt value)
  get
    | .number n => .ok (ofInt n)
    | _ => .error .wrongType

/-- Arrays of any length, stored as lists. -/
def arrays (item : Stored Document α) : Stored Document (Array α) where
  put values := .list (values.toList.map item.put)
  get
    | .list items => items.toArray.mapM item.get
    | _ => .error .wrongType

/-- Arrays of a fixed length, stored as lists. Items beyond it are not looked at. -/
def vectors (item : Stored Document α) (n : Nat) : Stored Document (Vector α n) where
  put values := .list (values.toList.map item.put)
  get
    | .list items =>
      if h : n ≤ items.length then
        (Vector.mk (n := n) (items.take n).toArray (by simp [h])).mapM item.get
      else .error .tooShort
    | _ => .error .wrongType

/-- Bytes, stored as numbers. -/
def byteNumber : Stored Document UInt8 := numbers (fun b ↦ b.toNat) .ofInt

/-- Words, stored as numbers. -/
def wordNumber : Stored Document UInt16 := numbers (fun w ↦ w.toNat) .ofInt

/-- The library that is run: each value is read from documents of its own kind only. -/
def library : Library Document where
  null := .null
  text := .text
  list := .list
  object := ofFields
  member := member
  items
    | .list items => .ok items
    | _ => .error .wrongType
  bool.put := .bool
  bool.get
    | .bool b => .ok b
    | _ => .error .wrongType
  integer := numbers (fun n ↦ n.toInt) .ofInt
  byte := byteNumber
  word := wordNumber
  counter := numbers (fun n ↦ n.toNat) .ofInt
  bytes := vectors byteNumber
  words := vectors wordNumber
  buffer := arrays byteNumber

end Document

end Mcs8
