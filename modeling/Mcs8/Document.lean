/-!
# Documents

Documents are trees of null, truth values, integers, text, lists and objects, the data of JSON
without fractions. The fields of an object are kept in the order of their keys, and each key occurs
once.
-/

namespace Mcs8

/-- A tree of saved data. -/
inductive Document where
  | null
  | bool (value : Bool)
  | number (value : Int)
  | text (value : String)
  | list (items : List Document)
  | object (fields : List (String × Document))

namespace Document

/-- Put a field among fields that are in the order of their keys, in place of one that has the same
key. -/
def insertField (key : String) (value : Document) :
    List (String × Document) → List (String × Document)
  | [] => [(key, value)]
  | (k, v) :: rest =>
    if key < k then (key, value) :: (k, v) :: rest
    else if key = k then (key, value) :: rest
    else (k, v) :: insertField key value rest

/-- The object with the given fields; of several with one key the last one counts. -/
def ofFields (fields : List (String × Document)) : Document :=
  .object (fields.foldl (fun sorted (key, value) ↦ insertField key value sorted) [])

/-- Why a document cannot be read as what was asked for. -/
inductive Fault where
  /-- The text is not that of a document. -/
  | unreadable
  /-- The object has no field with the key. -/
  | missingKey (key : String)
  /-- The document is of another type. -/
  | wrongType
  /-- The list has too few items. -/
  | tooShort
  deriving DecidableEq

/-- The field of an object. -/
def member (d : Document) (key : String) : Except Fault Document :=
  match d with
  | object fields =>
    match fields.lookup key with
    | some value => .ok value
    | none => .error (.missingKey key)
  | _ => .error .wrongType

end Document

end Mcs8
