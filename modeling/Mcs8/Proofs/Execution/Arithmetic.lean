import Mcs8.Proofs.Execution.Abstraction

/-!
# Arithmetic in numbers

The adder looks ahead bit by bit, a subtraction adds the complement, and the parity is folded; the
reference machine adds, subtracts and counts. Both give the same results and flags. The fields of an
opcode are numbers for the reference machine too, and name the same registers, operations, rotations
and flags.
-/

namespace Mcs8

/-! ### Fields -/

/-- The code of an operation. -/
def BinaryOp.code : BinaryOp → Nat
  | .add => 0
  | .addCarry => 1
  | .sub => 2
  | .subBorrow => 3
  | .and => 4
  | .xor => 5
  | .or => 6
  | .compare => 7

/-- The code of a rotation. -/
def Rotation.code : Rotation → Nat
  | .left => 0
  | .right => 1
  | .leftThroughCarry => 2
  | .rightThroughCarry => 3

/-- The three-bit fields. -/
theorem mod_eight_cases (field : UInt8) : field % 8 = 0 ∨ field % 8 = 1 ∨ field % 8 = 2 ∨
    field % 8 = 3 ∨ field % 8 = 4 ∨ field % 8 = 5 ∨ field % 8 = 6 ∨ field % 8 = 7 := by
  simp only [← UInt8.toNat_inj, UInt8.toNat_mod, UInt8.reduceToNat]
  omega

theorem mod_four_cases (field : UInt8) :
    field % 4 = 0 ∨ field % 4 = 1 ∨ field % 4 = 2 ∨ field % 4 = 3 := by
  simp only [← UInt8.toNat_inj, UInt8.toNat_mod, UInt8.reduceToNat]
  omega

theorem Register.index_ofField (field : UInt8) : (ofField field).index = field.toNat % 8 := by
  have hmod : (field % 8).toNat = field.toNat % 8 := UInt8.toNat_mod field 8
  rw [← hmod, ofField]
  rcases mod_eight_cases field with h | h | h | h | h | h | h | h <;> rw [h] <;> rfl

theorem BinaryOp.code_ofField (field : UInt8) : (ofField field).code = field.toNat % 8 := by
  have hmod : (field % 8).toNat = field.toNat % 8 := UInt8.toNat_mod field 8
  rw [← hmod, ofField]
  rcases mod_eight_cases field with h | h | h | h | h | h | h | h <;> rw [h] <;> rfl

theorem Rotation.code_ofField (field : UInt8) : (ofField field).code = field.toNat % 4 := by
  have hmod : (field % 4).toNat = field.toNat % 4 := UInt8.toNat_mod field 4
  rw [← hmod, ofField]
  rcases mod_four_cases field with h | h | h | h <;> rw [h] <;> rfl

theorem Flag.index_ofField (field : UInt8) : (ofField field).index = field.toNat % 4 := by
  have hmod : (field % 4).toNat = field.toNat % 4 := UInt8.toNat_mod field 4
  rw [← hmod, ofField]
  rcases mod_four_cases field with h | h | h | h <;> rw [h] <;> rfl

/-! ### The adder -/

namespace Adder

variable (a b : UInt8) (carryIn : Bool)

theorem toNat_sum :
    (add a b carryIn).sum.toNat = (a.toNat + b.toNat + carryIn.toNat) % 256 := by
  have htotal := toNat_sum_add_carry a b carryIn
  have hlt := (add a b carryIn).sum.toNat_lt
  omega

theorem carry_eq :
    (add a b carryIn).carry = decide (256 ≤ a.toNat + b.toNat + carryIn.toNat) := by
  have htotal := toNat_sum_add_carry a b carryIn
  have hlt := (add a b carryIn).sum.toNat_lt
  cases hc : (add a b carryIn).carry with
  | true =>
    rw [hc, Bool.toNat_true] at htotal
    exact (decide_eq_true (by omega)).symm
  | false =>
    rw [hc, Bool.toNat_false] at htotal
    exact (decide_eq_false (by omega)).symm

/-- Adding a complement is subtracting. -/
theorem toNat_sum_complement (borrow : Bool) : (add a (~~~b) (!borrow)).sum.toNat =
    (a.toNat + 256 - (b.toNat + borrow.toNat)) % 256 := by
  have hnot : (~~~b).toNat = 255 - b.toNat := UInt8.toNat_not b
  have hlt := b.toNat_lt
  rw [toNat_sum, hnot]
  cases borrow <;> simp only [Bool.not_true, Bool.not_false, Bool.toNat_true, Bool.toNat_false] <;>
    omega

theorem carry_complement (borrow : Bool) :
    (!(add a (~~~b) (!borrow)).carry) = decide (a.toNat < b.toNat + borrow.toNat) := by
  have hnot : (~~~b).toNat = 255 - b.toNat := UInt8.toNat_not b
  have hlt := b.toNat_lt
  rw [carry_eq, hnot, ← decide_not, decide_eq_decide]
  cases borrow <;> simp only [Bool.not_true, Bool.not_false, Bool.toNat_true, Bool.toNat_false] <;>
    omega

end Adder

/-! ### Results and flags -/

/-- Folding the halves of a byte onto each other counts its ones modulo 2. -/
theorem Flags.hasEvenParity_eq (value : UInt8) : hasEvenParity value =
    decide ((List.range 8).countP (fun i ↦ value.toNat / 2 ^ i % 2 = 1) % 2 = 0) := by
  -- the two ways to count agree on each of the 256 bytes
  have hall : ∀ n : Fin 256, hasEvenParity (UInt8.ofNat n) = decide
      ((List.range 8).countP (fun i ↦ (UInt8.ofNat n).toNat / 2 ^ i % 2 = 1) % 2 = 0) := by
    decide +kernel
  have hvalue := hall ⟨value.toNat, value.toNat_lt⟩
  rwa [UInt8.ofNat_toNat] at hvalue

namespace Alu

/-- An operation gives the result and the carry of the reference machine. -/
theorem apply_eq (op : BinaryOp) (accumulator operand : UInt8) (flags : Flags) :
    ∃ value carry,
      Machine.result op.code accumulator.toNat operand.toNat flags.carry = (value.toNat, carry) ∧
      apply op accumulator operand flags =
        { AluOutput.ofSum value carry with isStored := op ≠ .compare } := by
  have hsum (carry : Bool) : ((accumulator.toNat + operand.toNat + carry.toNat) % 256,
      decide (256 ≤ accumulator.toNat + operand.toNat + carry.toNat)) =
      ((Adder.add accumulator operand carry).sum.toNat,
        (Adder.add accumulator operand carry).carry) := by
    rw [Adder.toNat_sum, Adder.carry_eq]
  have hdifference (borrow : Bool) :
      ((accumulator.toNat + 256 - (operand.toNat + borrow.toNat)) % 256,
        decide (accumulator.toNat < operand.toNat + borrow.toNat)) =
      ((Adder.add accumulator (~~~operand) (!borrow)).sum.toNat,
        !(Adder.add accumulator (~~~operand) (!borrow)).carry) := by
    rw [Adder.toNat_sum_complement, Adder.carry_complement]
  cases op with
  | add => exact ⟨_, _, hsum false, rfl⟩
  | addCarry => exact ⟨_, _, hsum flags.carry, rfl⟩
  | sub => exact ⟨_, _, hdifference false, rfl⟩
  | subBorrow => exact ⟨_, _, hdifference flags.carry, rfl⟩
  | and => exact ⟨accumulator &&& operand, false, by rw [UInt8.toNat_and]; rfl, rfl⟩
  | xor => exact ⟨accumulator ^^^ operand, false, by rw [UInt8.toNat_xor]; rfl, rfl⟩
  | or => exact ⟨accumulator ||| operand, false, by rw [UInt8.toNat_or]; rfl, rfl⟩
  | compare => exact ⟨_, _, hdifference false, rfl⟩

theorem toNat_shiftLeft (value : UInt8) (low : Bool) :
    (shiftLeft value low).toNat = value.toNat * 2 % 256 + low.toNat := by
  have hdouble : (value * 2).toNat = value.toNat * 2 % 256 := UInt8.toNat_mul value 2
  have hlow : (if low then (1 : UInt8) else 0).toNat = low.toNat := by cases low <;> rfl
  have hle := Bool.toNat_le low
  rw [shiftLeft, UInt8.toNat_add, hlow, hdouble]
  omega

theorem toNat_shiftRight (value : UInt8) (high : Bool) :
    (shiftRight value high).toNat = value.toNat / 2 + high.toNat * 128 := by
  have hhalf : (value / 2).toNat = value.toNat / 2 := UInt8.toNat_div value 2
  have hhigh : (if high then (0x80 : UInt8) else 0).toNat = high.toNat * 128 := by
    cases high <;> rfl
  have hle := Bool.toNat_le high
  have hlt := value.toNat_lt
  rw [shiftRight, UInt8.toNat_add, hhigh, hhalf]
  omega

theorem topBit_eq (value : UInt8) : topBit value = decide (128 ≤ value.toNat) := rfl

theorem toNat_topBit (value : UInt8) : (topBit value).toNat = value.toNat / 128 := by
  have hlt := value.toNat_lt
  rw [topBit_eq]
  by_cases h : 128 ≤ value.toNat
  · rw [decide_eq_true h, Bool.toNat_true]
    omega
  · rw [decide_eq_false h, Bool.toNat_false]
    omega

theorem bottomBit_eq (value : UInt8) : bottomBit value = decide (value.toNat % 2 = 1) := by
  have hiff : value % 2 = 1 ↔ value.toNat % 2 = 1 := by
    rw [← UInt8.toNat_inj, UInt8.toNat_mod]
    rfl
  exact decide_eq_decide.mpr hiff

theorem toNat_bottomBit (value : UInt8) : (bottomBit value).toNat = value.toNat % 2 := by
  rcases Nat.mod_two_eq_zero_or_one value.toNat with h | h <;> rw [bottomBit_eq, h] <;> rfl

end Alu

namespace Datapath

variable (d : Datapath)

theorem machine_setFlags (value : UInt8) (carry : Bool) :
    { d with flags := .ofResult value carry }.machine = d.machine.setFlags value.toNat carry := by
  have hiff : value = 0 ↔ value.toNat = 0 := UInt8.toNat_inj.symm
  have hzero : (value == 0) = decide (value.toNat = 0) := decide_eq_decide.mpr hiff
  have hsign : decide (0x80 ≤ value) = decide (128 ≤ value.toNat) := rfl
  simp only [machine, Machine.setFlags, Flags.ofResult, hzero, hsign, Flags.hasEvenParity_eq]

/-- Storing the output of an operation is combining the accumulator with the operand. -/
theorem machine_combine (op : BinaryOp) (operand : UInt8) :
    ({ d with
      flags := (Alu.apply op (d.registers.read .A) operand d.flags).flags
      registers :=
        if (Alu.apply op (d.registers.read .A) operand d.flags).isStored then
          d.registers.write .A (Alu.apply op (d.registers.read .A) operand d.flags).value
        else d.registers } : Datapath).machine = d.machine.combine op.code operand.toNat := by
  obtain ⟨value, carry, hresult, happly⟩ :=
    Alu.apply_eq op (d.registers.read .A) operand d.flags
  have hregister : d.machine.register 0 = (d.registers.read .A).toNat :=
    d.register_machine (r := .A) nofun
  have hcarry : d.machine.carry = d.flags.carry := rfl
  have hflags := d.machine_setFlags value carry
  rw [happly, Machine.combine, hregister, hcarry, hresult]
  by_cases hop : op = .compare
  · -- a comparison stores no result
    subst hop
    exact hflags
  · have hcode : op.code ≠ 7 := by
      cases op <;> first | exact absurd rfl hop | decide
    have hstored : decide (op ≠ .compare) = true := decide_eq_true hop
    simp only [AluOutput.ofSum, hstored, if_true, if_neg hcode]
    rw [← hflags]
    exact machine_write { d with flags := .ofResult value carry } .A value

theorem machine_rotate (op : Rotation) :
    ({ d with
      flags := (Alu.rotate op (d.registers.read .A) d.flags).flags
      registers := d.registers.write .A (Alu.rotate op (d.registers.read .A) d.flags).value } :
        Datapath).machine = d.machine.rotate op.code := by
  have hregister : d.machine.register 0 = (d.registers.read .A).toNat :=
    d.register_machine (r := .A) nofun
  have hcarry : d.machine.carry = d.flags.carry := rfl
  have hrotated {value : UInt8} {carry carry' : Bool} {result : Nat} (hvalue : value.toNat = result)
      (hcarry' : carry = carry') : ({ d with
        flags := { d.flags with carry }
        registers := d.registers.write .A value } : Datapath).machine =
          { d.machine.setRegister 0 result with carry := carry' } := by
    have hwrite : { d with registers := d.registers.write .A value }.machine =
        d.machine.setRegister 0 value.toNat := d.machine_write .A value
    rw [← hvalue, ← hcarry', ← hwrite]
    rfl
  cases op with
  | left =>
    refine hrotated ?_ ?_
    · show (Alu.shiftLeft _ _).toNat = _
      rw [hregister, Alu.toNat_shiftLeft, Alu.toNat_topBit]
    · rw [hregister]
      rfl
  | right =>
    refine hrotated ?_ ?_
    · show (Alu.shiftRight _ _).toNat = _
      rw [hregister, Alu.toNat_shiftRight, Alu.toNat_bottomBit]
    · rw [hregister]
      exact Alu.bottomBit_eq _
  | leftThroughCarry =>
    refine hrotated ?_ ?_
    · show (Alu.shiftLeft _ _).toNat = _
      rw [hregister, hcarry, Alu.toNat_shiftLeft]
    · rw [hregister]
      rfl
  | rightThroughCarry =>
    refine hrotated ?_ ?_
    · show (Alu.shiftRight _ _).toNat = _
      rw [hregister, hcarry, Alu.toNat_shiftRight]
    · rw [hregister]
      exact Alu.bottomBit_eq _

end Datapath

end Mcs8
