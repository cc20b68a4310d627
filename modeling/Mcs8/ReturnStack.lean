import Mcs8.Scratchpad

/-!
# The return stack

Return addresses are kept in a ring of eight slots with a three-bit pointer to the next free one.
Nothing is ever checked: a ninth push overwrites the oldest address, and a pop from an empty stack
goes on around the ring.
-/

namespace Mcs8

/-- There are slots, so that a pointer can go around them. -/
instance neZero_slots : @NeZero Nat Zero.ofOfNat0 8 := ⟨by decide⟩

/-- Eight address slots and a pointer to the slot that the next push fills. -/
structure ReturnStack where
  slots : Vector UInt16 8 := .replicate 8 0
  pointer : Fin 8 := 0
  deriving DecidableEq

namespace ReturnStack

variable (s : ReturnStack) (address : UInt16)

/-- Put an address, taken modulo the address space, into the slot at the pointer, and advance the
pointer around the ring. -/
def push : ReturnStack where
  slots := s.slots.set s.pointer (address % addressSpace)
  pointer := s.pointer + 1

/-- The address that a pop would give: the one in the slot before the pointer. -/
def top : UInt16 := s.slots[s.pointer - 1]

/-- Move the pointer back; the address that it then points to is `top`. The slot keeps its
content. -/
def pop : ReturnStack := { s with pointer := s.pointer - 1 }

/-- Going one slot on and one slot back ends where it began. -/
theorem add_one_sub_one (p : Fin 8) : p + 1 - 1 = p := by
  revert p
  decide

@[simp] theorem pointer_push : (s.push address).pointer = s.pointer + 1 := rfl

@[simp] theorem pointer_pop : s.pop.pointer = s.pointer - 1 := rfl

/-- A pop gives back the address of the push before it, modulo the address space. -/
@[simp] theorem top_push : (s.push address).top = address % addressSpace := by
  simp only [top, push, add_one_sub_one, Fin.getElem_fin, Vector.getElem_set_self]

end ReturnStack

end Mcs8
