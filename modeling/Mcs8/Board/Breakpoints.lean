/-!
# Breakpoints

A breakpoint stands at an address and carries two independent marks: a persistent one, and a
temporary one that the first hit takes away. An address without a mark has no breakpoint. The
breakpoints are kept in the order of their addresses, each address once; that changing one of them
keeps the order is `pairwise_alter`.
-/

namespace Mcs8

/-- A breakpoint and its marks. -/
structure Breakpoint where
  address : UInt16
  persistent : Bool := false
  temporary : Bool := false
  deriving DecidableEq

namespace Breakpoint

/-- Whether the breakpoint has a mark. -/
def isMarked (b : Breakpoint) : Bool := b.persistent || b.temporary

/-- Set or clear one of the two marks. -/
def mark (temporary value : Bool) (b : Breakpoint) : Breakpoint :=
  if temporary then { b with temporary := value } else { b with persistent := value }

@[simp] theorem address_mark (temporary value : Bool) (b : Breakpoint) :
    (b.mark temporary value).address = b.address := by
  unfold mark
  split <;> rfl

/-- The order of breakpoints. -/
def Before (a b : Breakpoint) : Prop := a.address < b.address

end Breakpoint

/-- The breakpoints in the order of their addresses. -/
structure Breakpoints where
  entries : List Breakpoint := []
  sorted : entries.Pairwise Breakpoint.Before := by exact .nil
  deriving DecidableEq

namespace Breakpoints

/-- Put a breakpoint before others, unless it has no mark. -/
def consMarked (b : Breakpoint) (rest : List Breakpoint) : List Breakpoint :=
  if b.isMarked then b :: rest else rest

/-- Set or clear a mark at an address, where an absent breakpoint is one without marks. -/
def alter (address : UInt16) (temporary value : Bool) : List Breakpoint → List Breakpoint
  | [] => consMarked (.mark temporary value { address }) []
  | b :: rest =>
    if address < b.address then consMarked (.mark temporary value { address }) (b :: rest)
    else if address = b.address then consMarked (b.mark temporary value) rest
    else b :: alter address temporary value rest

variable {address : UInt16} {temporary value : Bool} {b c : Breakpoint} {l : List Breakpoint}

theorem mem_of_mem_consMarked (h : b ∈ consMarked c l) : b = c ∨ b ∈ l := by
  unfold consMarked at h
  split at h
  · exact List.mem_cons.mp h
  · exact .inr h

theorem pairwise_consMarked (h : (b :: l).Pairwise Breakpoint.Before) :
    (consMarked b l).Pairwise Breakpoint.Before := by
  unfold consMarked
  split
  · exact h
  · exact h.tail

/-- A change adds no address but its own. -/
theorem address_of_mem_alter (h : b ∈ alter address temporary value l) :
    b.address = address ∨ b ∈ l := by
  induction l with
  | nil =>
    rcases mem_of_mem_consMarked h with rfl | h
    · exact .inl (Breakpoint.address_mark ..)
    · exact absurd h List.not_mem_nil
  | cons c l ih =>
    rw [alter] at h
    split at h
    · rcases mem_of_mem_consMarked h with rfl | h
      · exact .inl (Breakpoint.address_mark ..)
      · exact .inr h
    · split at h
      next hc =>
        rcases mem_of_mem_consMarked h with rfl | h
        · exact .inl ((Breakpoint.address_mark ..).trans hc.symm)
        · exact .inr (List.mem_cons_of_mem _ h)
      next =>
        rcases List.mem_cons.mp h with rfl | h
        · exact .inr List.mem_cons_self
        · exact (ih h).imp_right (List.mem_cons_of_mem _)

/-- A change keeps the order of the addresses. -/
theorem pairwise_alter (h : l.Pairwise Breakpoint.Before) :
    (alter address temporary value l).Pairwise Breakpoint.Before := by
  induction l with
  | nil => exact pairwise_consMarked (List.pairwise_singleton _ _)
  | cons c l ih =>
    obtain ⟨hc, hl⟩ := List.pairwise_cons.mp h
    rw [alter]
    split
    next hlt =>
      refine pairwise_consMarked (List.pairwise_cons.mpr ⟨fun b hb ↦ ?_, h⟩)
      rw [Breakpoint.Before, Breakpoint.address_mark]
      rcases List.mem_cons.mp hb with rfl | hb
      · exact hlt
      · exact UInt16.lt_trans hlt (hc b hb)
    next hle =>
      split
      next =>
        refine pairwise_consMarked (List.pairwise_cons.mpr ⟨fun b hb ↦ ?_, hl⟩)
        rw [Breakpoint.Before, Breakpoint.address_mark]
        exact hc b hb
      next hne =>
        refine List.pairwise_cons.mpr ⟨fun b hb ↦ ?_, ih hl⟩
        rcases address_of_mem_alter hb with hb | hb
        · rw [Breakpoint.Before, hb]
          exact UInt16.lt_of_le_of_ne (UInt16.not_lt.mp hle) (Ne.symm hne)
        · exact hc b hb

/-- The breakpoint at an address. -/
def find? (bs : Breakpoints) (address : UInt16) : Option Breakpoint :=
  bs.entries.find? (·.address == address)

/-- Whether there is a breakpoint at an address. -/
def contains (bs : Breakpoints) (address : UInt16) : Bool := (bs.find? address).isSome

/-- Set a mark at an address. -/
def set (bs : Breakpoints) (address : UInt16) (temporary : Bool) : Breakpoints where
  entries := alter address temporary true bs.entries
  sorted := pairwise_alter bs.sorted

/-- Clear a mark at an address. -/
def clear (bs : Breakpoints) (address : UInt16) (temporary : Bool) : Breakpoints where
  entries := alter address temporary false bs.entries
  sorted := pairwise_alter bs.sorted

end Breakpoints

end Mcs8
