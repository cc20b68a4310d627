/-!
# Codes of enumerations

The values of an enumeration are numbered in the order in which they are listed, from 0 on. A
number from outside may be any integer; `value?_eq_none_iff` says which ones are codes of nothing.
-/

namespace Mcs8.Code

variable {α : Type}

/-- The value with a code. -/
def value? (values : List α) (code : Int) : Option α :=
  if 0 ≤ code then values[code.toNat]? else none

/-- The label of the value with a code, and a question mark for a code of nothing. -/
def name (values : List α) (label : α → String) (code : Int) : String :=
  ((value? values code).map label).getD "?"

theorem value?_eq_none_iff {values : List α} {code : Int} :
    value? values code = none ↔ code < 0 ∨ (values.length : Int) ≤ code := by
  unfold value?
  split
  · rw [List.getElem?_eq_none_iff]
    omega
  · simp only [true_iff]
    omega

end Mcs8.Code
