import Mcs8.Flags

/-!
# The carry-lookahead adder

Two bytes and a carry are added by looking ahead: bit `i` of the operands generates a carry when
both bits are set and propagates one when exactly one is, and the carry into a bit is written
directly in terms of the generating bits, the propagating bits and the incoming carry. The main
statements are `carryInto_eq_carry`, that this gives the carries of ordinary addition, and
`toNat_sum_add_carry`, that sum and outgoing carry together are the exact sum.
-/

namespace Mcs8

/-- The output of the adder. -/
structure AdderOutput where
  /-- The low eight bits of the sum. -/
  sum : UInt8
  /-- The carry out of bit 7. -/
  carry : Bool
  deriving DecidableEq

namespace Adder

variable (a b : UInt8) (carryIn : Bool) (i j : Nat)

/-- Bit `i` makes a carry of its own. -/
def generates : Bool := a.toBitVec.getLsbD i && b.toBitVec.getLsbD i

/-- Bit `i` passes an incoming carry on. -/
def propagates : Bool := a.toBitVec.getLsbD i ^^ b.toBitVec.getLsbD i

/-- The bits from `j` up to but not including `i` all pass a carry on. -/
def chain : Nat → Bool
  | 0 => true
  | i + 1 => i < j || (propagates a b i && chain i)

/-- The carry into bit `i`: a lower bit generates one that all bits between pass on, or all lower
bits pass the incoming carry on. -/
def carryInto : Bool :=
  (List.range i).any (fun j ↦ generates a b j && chain a b (j + 1) i) || (chain a b 0 i && carryIn)

/-- Add two bytes and a carry. -/
def add : AdderOutput where
  sum := .ofBitVec <| .ofBoolListLE <|
    [0, 1, 2, 3, 4, 5, 6, 7].map fun i ↦ propagates a b i ^^ carryInto a b carryIn i
  carry := carryInto a b carryIn 8

/-! ### The lookahead carries are the carries of addition -/

@[simp] theorem chain_self : chain a b i i = true := by
  cases i <;> simp [chain]

theorem chain_succ_of_le (h : j ≤ i) :
    chain a b j (i + 1) = (propagates a b i && chain a b j i) := by
  simp [chain, Nat.not_lt.mpr h]

@[simp] theorem carryInto_zero : carryInto a b carryIn 0 = carryIn := by
  simp [carryInto]

/-- A bit sends a carry on when it generates one or passes its own incoming carry on. -/
theorem carryInto_succ :
    carryInto a b carryIn (i + 1) =
      (generates a b i || (propagates a b i && carryInto a b carryIn i)) := by
  have lower : (List.range i).any (fun j ↦ generates a b j && chain a b (j + 1) (i + 1)) =
      (propagates a b i && (List.range i).any fun j ↦ generates a b j && chain a b (j + 1) i) := by
    rw [Bool.eq_iff_iff]
    simp only [List.any_eq_true, List.mem_range, Bool.and_eq_true]
    constructor
    · rintro ⟨j, hj, hg, hc⟩
      rw [chain_succ_of_le _ _ _ _ hj, Bool.and_eq_true] at hc
      exact ⟨hc.1, j, hj, hg, hc.2⟩
    · rintro ⟨hp, j, hj, hg, hc⟩
      refine ⟨j, hj, hg, ?_⟩
      rw [chain_succ_of_le _ _ _ _ hj, hp, hc]
      rfl
  rw [carryInto, List.range_succ, List.any_append, lower, chain_succ_of_le _ _ _ _ (Nat.zero_le _),
    carryInto]
  simp only [List.any_cons, List.any_nil, chain_self]
  cases generates a b i <;> cases propagates a b i <;> simp

theorem carryInto_eq_carry :
    carryInto a b carryIn i = BitVec.carry i a.toBitVec b.toBitVec carryIn := by
  induction i with
  | zero => simp [BitVec.carry_zero]
  | succ i ih =>
    rw [carryInto_succ, ih, BitVec.carry_succ, generates, propagates, Bool.atLeastTwo]
    cases a.toBitVec.getLsbD i <;> cases b.toBitVec.getLsbD i <;> simp

/-- The sum is the sum of the words. -/
theorem toBitVec_sum : (add a b carryIn).sum.toBitVec =
    a.toBitVec + b.toBitVec + BitVec.setWidth 8 (BitVec.ofBool carryIn) := by
  apply BitVec.eq_of_getLsbD_eq
  intro i hi
  rw [BitVec.getLsbD_add_add_bool hi, ← carryInto_eq_carry, ← Bool.xor_assoc]
  simp only [add, List.map_cons, List.map_nil, BitVec.getLsbD_ofBoolListLE, propagates]
  match i, hi with
  | 0, _ | 1, _ | 2, _ | 3, _ | 4, _ | 5, _ | 6, _ | 7, _ => rfl

/-- Sum and outgoing carry are the exact sum of the operands and the incoming carry. -/
theorem toNat_sum_add_carry :
    (add a b carryIn).sum.toNat + 256 * (add a b carryIn).carry.toNat =
      a.toNat + b.toNat + carryIn.toNat := by
  have hc : (add a b carryIn).carry = decide (256 ≤ a.toNat + b.toNat + carryIn.toNat) := by
    show carryInto a b carryIn 8 = _
    rw [carryInto_eq_carry, BitVec.carry]
    have ha := a.toBitVec.isLt
    have hb := b.toBitVec.isLt
    rw [Nat.mod_eq_of_lt ha, Nat.mod_eq_of_lt hb]
    rfl
  have hs : (add a b carryIn).sum.toNat = (a.toNat + b.toNat + carryIn.toNat) % 256 := by
    show (add a b carryIn).sum.toBitVec.toNat = _
    rw [toBitVec_sum]
    cases carryIn <;> simp [BitVec.toNat_add]
  have ha : a.toNat < 256 := a.toBitVec.isLt
  have hb : b.toNat < 256 := b.toBitVec.isLt
  have hi : carryIn.toNat ≤ 1 := Bool.toNat_le carryIn
  rw [hc, hs]
  by_cases h : 256 ≤ a.toNat + b.toNat + carryIn.toNat
  · simp only [h, decide_true, Bool.toNat_true]
    omega
  · simp only [h, decide_false, Bool.toNat_false]
    omega

end Adder

end Mcs8
