import Mcs8.Code

/-!
# Refused board operations

The three reasons for which a board refuses an operation, and the text for the outcome of one.
-/

namespace Mcs8

/-- Why a board refuses an operation. -/
inductive BoardError where
  /-- The bytes do not fit between their origin and the end of memory. -/
  | doesNotFit
  /-- The address is outside the address space. -/
  | noSuchAddress
  /-- The saved state lacks a part, or its memory has the wrong size. -/
  | unusable
  deriving DecidableEq

namespace BoardError

/-- All outcomes in the order of their codes, a success first. -/
def outcomes : List (Option BoardError) :=
  [none, some doesNotFit, some noSuchAddress, some unusable]

/-- The reason in words. -/
def message : BoardError → String
  | doesNotFit => "program too large"
  | noSuchAddress => "address out of range"
  | unusable => "invalid state"

/-- The outcome of an operation in words, where no error is a success. -/
def outcome : Option BoardError → String
  | none => "success"
  | some e => e.message

/-- The outcome with a given code, a question mark if there is none. -/
def outcomeOfCode (code : Int) : String := Code.name outcomes outcome code

end BoardError

end Mcs8
