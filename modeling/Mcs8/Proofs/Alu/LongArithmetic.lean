import Mathlib.Algebra.Group.Nat.Even
import Mathlib.Tactic.Common
import Mcs8.Proofs.Alu.Sweep

/-!
# Sums and differences of long numbers

Numbers of any length are added by adding their bytes with the carry flag, from the lowest byte on,
and subtracted in the same way with the carry flag as the borrow. In one byte nothing is lost
(`toNat_sum_add_carry`, `toNat_difference_add_borrow`), and so nothing is lost in a sweep over the
bytes: result and last carry together are the sum, result and last borrow the difference
(`littleEndian_sums`, `littleEndian_differences`). An operation sees of the flags no more than the
carry, and counting up or down keeps the carry, so both may be done with other bytes in between
(`combined_sweep`).
-/

namespace Mcs8

/-! ### Flags that describe a byte -/

/-- The number of ones in a byte. -/
def ones (value : UInt8) : Nat := (List.range 8).countP fun i ↦ value.toNat.testBit i

/-- All flags but the carry describe a byte. -/
structure Flags.Describe (flags : Flags) (value : UInt8) : Prop where
  zero_iff : flags.zero = true ↔ value = 0
  sign_iff : flags.sign = true ↔ value.toNat.testBit 7 = true
  parity_iff : flags.parity = true ↔ Even (ones value)

theorem Flags.describe_ofResult (value : UInt8) (carry : Bool) :
    (ofResult value carry).Describe value where
  zero_iff := beq_iff_eq
  sign_iff := by
    have hlt := value.toNat_lt
    have hsign : (ofResult value carry).sign = true ↔ 128 ≤ value.toNat := decide_eq_true_iff
    rw [hsign, Nat.testBit_eq_decide_div_mod_eq, decide_eq_true_eq]
    omega
  parity_iff := by
    show hasEvenParity value = true ↔ _
    simp only [hasEvenParity_eq, ones, Nat.testBit_eq_decide_div_mod_eq, decide_eq_true_eq,
      Nat.even_iff]

/-! ### Steps -/

/-- A step of a calculation with long numbers: a byte of one number is combined with a byte of the
other, or some other byte is counted up or down. -/
inductive ByteStep where
  | combine (x y : UInt8)
  | increment (value : UInt8)
  | decrement (value : UInt8)

namespace ByteStep

/-- The bytes that a step combines. -/
def operands? : ByteStep → Option (UInt8 × UInt8)
  | combine x y => some (x, y)
  | increment _ | decrement _ => none

/-- The output of a step in which bytes are combined by the operation `op`. -/
def output (op : BinaryOp) : ByteStep → Flags → AluOutput
  | combine x y, flags => Alu.apply op x y flags
  | increment value, flags => Alu.increment value flags
  | decrement value, flags => Alu.decrement value flags

end ByteStep

namespace Alu

/-- The outputs of the steps that combine bytes, among those of all steps. -/
def combined (steps : List ByteStep) (outputs : List AluOutput) : List AluOutput :=
  ((steps.zip outputs).filter (·.1.operands?.isSome)).map (·.2)

/-- The output of the operation `op` with a pair of bytes. -/
def applyPair (op : BinaryOp) (pair : UInt8 × UInt8) (flags : Flags) : AluOutput :=
  apply op pair.1 pair.2 flags

variable (op : BinaryOp) {flags flags' : Flags}

theorem describe_apply (x y : UInt8) (flags : Flags) :
    (apply op x y flags).flags.Describe (apply op x y flags).value := by
  cases op <;> exact Flags.describe_ofResult ..

theorem describe_output (step : ByteStep) (flags : Flags) :
    (step.output op flags).flags.Describe (step.output op flags).value := by
  cases step with
  | combine x y => exact describe_apply op x y flags
  | increment value | decrement value => exact Flags.describe_ofResult ..

/-! ### Steps in between -/

/-- An operation sees of the flags no more than the carry. -/
theorem apply_congr (h : flags.carry = flags'.carry) (x y : UInt8) :
    apply op x y flags = apply op x y flags' := by
  cases op with
  | addCarry | subBorrow => rw [apply, apply, h]
  | _ => rfl

/-- Steps that count up or down can be left out of a sweep. -/
theorem combined_sweep (h : flags.carry = flags'.carry) (steps : List ByteStep) :
    combined steps (sweep (ByteStep.output op) flags steps) =
      sweep (applyPair op) flags' (steps.filterMap ByteStep.operands?) ∧
    (flagsAfter flags (sweep (ByteStep.output op) flags steps)).carry =
      (flagsAfter flags' (sweep (applyPair op) flags'
        (steps.filterMap ByteStep.operands?))).carry := by
  induction steps generalizing flags flags' with
  | nil => exact ⟨rfl, h⟩
  | cons step steps ih =>
    rw [sweep, flagsAfter_cons]
    cases step with
    | combine x y =>
      have houtput : ByteStep.output op (.combine x y) flags = applyPair op (x, y) flags' :=
        apply_congr op h x y
      have hoperands : (ByteStep.combine x y).operands? = some (x, y) := rfl
      obtain ⟨hrest, hcarry⟩ := @ih (applyPair op (x, y) flags').flags _ rfl
      rw [List.filterMap_cons_some hoperands, sweep, flagsAfter_cons, houtput]
      exact ⟨congrArg (_ :: ·) hrest, hcarry⟩
    | increment value | decrement value =>
      -- no output of this step is kept, and it passes the carry on as it found it
      exact ih h

/-! ### Nothing is lost -/

theorem toNat_sum_add_carry (x y : UInt8) (flags : Flags) :
    (apply .addCarry x y flags).value.toNat + 256 * (apply .addCarry x y flags).flags.carry.toNat =
      x.toNat + y.toNat + flags.carry.toNat :=
  Adder.toNat_sum_add_carry x y flags.carry

theorem toNat_difference_add_borrow (x y : UInt8) (flags : Flags) :
    (apply .subBorrow x y flags).value.toNat + y.toNat + flags.carry.toNat =
      x.toNat + 256 * (apply .subBorrow x y flags).flags.carry.toNat := by
  have hvalue : (apply .subBorrow x y flags).value.toNat =
      (x.toNat + 256 - (y.toNat + flags.carry.toNat)) % 256 := Adder.toNat_sum_complement ..
  have hborrow : (apply .subBorrow x y flags).flags.carry =
      decide (x.toNat < y.toNat + flags.carry.toNat) := Adder.carry_complement ..
  have hx := x.toNat_lt
  have hy := y.toNat_lt
  have hc := Bool.toNat_le flags.carry
  rw [hvalue, hborrow]
  by_cases h : x.toNat < y.toNat + flags.carry.toNat
  · rw [decide_eq_true h, Bool.toNat_true]
    omega
  · rw [decide_eq_false h, Bool.toNat_false]
    omega

/-- The bytes and the last carry of a sweep are the sum of the numbers and of the first carry. -/
theorem littleEndian_sums (pairs : List (UInt8 × UInt8)) (flags : Flags) :
    littleEndian (values (sweep (applyPair .addCarry) flags pairs)) + 256 ^ pairs.length *
        (flagsAfter flags (sweep (applyPair .addCarry) flags pairs)).carry.toNat =
      littleEndian (pairs.map Prod.fst) + littleEndian (pairs.map Prod.snd) +
        flags.carry.toNat := by
  induction pairs generalizing flags with
  | nil => simp [sweep]
  | cons pair pairs ih =>
    have hfirst : (applyPair .addCarry pair flags).value.toNat +
        256 * (applyPair .addCarry pair flags).flags.carry.toNat =
          pair.1.toNat + pair.2.toNat + flags.carry.toNat := toNat_sum_add_carry ..
    have hrest := ih (applyPair .addCarry pair flags).flags
    simp only [sweep, values_cons, flagsAfter_cons, littleEndian_cons, List.map_cons,
      List.length_cons, pow_succ', mul_assoc]
    omega

/-- The bytes of a sweep and the number taken away with the first borrow are the other number and
the last borrow. -/
theorem littleEndian_differences (pairs : List (UInt8 × UInt8)) (flags : Flags) :
    littleEndian (values (sweep (applyPair .subBorrow) flags pairs)) +
        littleEndian (pairs.map Prod.snd) + flags.carry.toNat =
      littleEndian (pairs.map Prod.fst) + 256 ^ pairs.length *
        (flagsAfter flags (sweep (applyPair .subBorrow) flags pairs)).carry.toNat := by
  induction pairs generalizing flags with
  | nil => simp [sweep]
  | cons pair pairs ih =>
    have hfirst : (applyPair .subBorrow pair flags).value.toNat + pair.2.toNat +
        flags.carry.toNat = pair.1.toNat +
          256 * (applyPair .subBorrow pair flags).flags.carry.toNat :=
      toNat_difference_add_borrow ..
    have hrest := ih (applyPair .subBorrow pair flags).flags
    simp only [sweep, values_cons, flagsAfter_cons, littleEndian_cons, List.map_cons,
      List.length_cons, pow_succ', mul_assoc]
    omega

/-! ### Sums and differences -/

/-- The bytes that a calculation gives in the steps that combine bytes. -/
def resultBytes (flags : Flags) (steps : List ByteStep) : List UInt8 :=
  values (combined steps (sweep (ByteStep.output op) flags steps))

/-- The carry that a calculation leaves. -/
def lastCarry (flags : Flags) (steps : List ByteStep) : Bool :=
  (flagsAfter flags (sweep (ByteStep.output op) flags steps)).carry

theorem describe_sweep (steps : List ByteStep) :
    ∀ o ∈ sweep (ByteStep.output op) flags steps, o.flags.Describe o.value :=
  (sweep_invariant (I := fun _ ↦ True) trivial
    (fun step flags _ ↦ ⟨describe_output op step flags, trivial⟩) steps).1

section Combined

variable {x y : List UInt8} {steps : List ByteStep} (hlength : x.length = y.length)
  (hsteps : steps.filterMap ByteStep.operands? = x.zip y) (flags)

include hsteps

/-- Without the steps in between, a calculation is about the bytes of the two numbers. -/
theorem combined_eq : combined steps (sweep (ByteStep.output op) flags steps) =
      sweep (applyPair op) flags (x.zip y) ∧
    lastCarry op flags steps = (flagsAfter flags (sweep (applyPair op) flags (x.zip y))).carry := by
  rw [← hsteps]
  exact combined_sweep op rfl steps

include hlength

theorem length_resultBytes : (resultBytes op flags steps).length = x.length := by
  rw [resultBytes, (combined_eq op flags hsteps).1, length_values, length_sweep, List.length_zip,
    hlength, Nat.min_self]

theorem resultBytes_lt : littleEndian (resultBytes op flags steps) < 256 ^ x.length := by
  rw [← length_resultBytes op flags hlength hsteps]
  exact littleEndian_lt _

theorem resultBytes_sum : littleEndian (resultBytes .addCarry flags steps) +
    256 ^ x.length * (lastCarry .addCarry flags steps).toNat =
      littleEndian x + littleEndian y + flags.carry.toNat := by
  obtain ⟨hbytes, hcarry⟩ := combined_eq .addCarry flags hsteps
  have hsums := littleEndian_sums (x.zip y) flags
  rwa [← hcarry, ← hbytes, List.map_fst_zip hlength.le, List.map_snd_zip hlength.ge,
    List.length_zip, ← hlength, Nat.min_self] at hsums

theorem resultBytes_difference : littleEndian (resultBytes .subBorrow flags steps) +
    littleEndian y + flags.carry.toNat =
      littleEndian x + 256 ^ x.length * (lastCarry .subBorrow flags steps).toNat := by
  obtain ⟨hbytes, hcarry⟩ := combined_eq .subBorrow flags hsteps
  have hdifferences := littleEndian_differences (x.zip y) flags
  rwa [← hcarry, ← hbytes, List.map_fst_zip hlength.le, List.map_snd_zip hlength.ge,
    List.length_zip, ← hlength, Nat.min_self] at hdifferences

/-- There is a last borrow exactly if the number that is taken away is greater. -/
theorem lastCarry_difference_iff : lastCarry .subBorrow flags steps = true ↔
    littleEndian x < littleEndian y + flags.carry.toNat := by
  have hdifference := resultBytes_difference flags hlength hsteps
  have hlt := resultBytes_lt .subBorrow flags hlength hsteps
  cases hborrow : lastCarry .subBorrow flags steps with
  | true =>
    rw [hborrow, Bool.toNat_true, mul_one] at hdifference
    exact iff_of_true rfl (by omega)
  | false =>
    rw [hborrow, Bool.toNat_false, mul_zero] at hdifference
    exact iff_of_false Bool.false_ne_true (by omega)

end Combined

/-- **Arithmetic with numbers of any length is exact.** Let the steps of a calculation combine the
bytes of `x` with those of `y`, from the lowest on, and count other bytes up or down in between:

* with the operation that adds the carry, the bytes of the result are those of the sum, and the last
  carry is what is beyond them;
* with the operation that takes the borrow away, they are those of the difference, and there is a
  last borrow exactly if the number that is taken away is greater;
* with any operation, the steps in between change neither the outputs nor the last carry;
* after each step all flags but the carry describe the byte of that step. -/
theorem long_arithmetic_exact {x y : List UInt8} {steps : List ByteStep}
    (hlength : x.length = y.length) (hsteps : steps.filterMap ByteStep.operands? = x.zip y)
    (flags : Flags) :
    ((resultBytes .addCarry flags steps).length = x.length ∧
      littleEndian (resultBytes .addCarry flags steps) =
        (littleEndian x + littleEndian y + flags.carry.toNat) % 256 ^ x.length ∧
      (lastCarry .addCarry flags steps).toNat =
        (littleEndian x + littleEndian y + flags.carry.toNat) / 256 ^ x.length) ∧
    ((resultBytes .subBorrow flags steps).length = x.length ∧
      (littleEndian (resultBytes .subBorrow flags steps) : Int) =
        ((littleEndian x : Int) - littleEndian y - flags.carry.toNat) % 256 ^ x.length ∧
      (lastCarry .subBorrow flags steps = true ↔
        littleEndian x < littleEndian y + flags.carry.toNat)) ∧
    ∀ op,
      combined steps (sweep (ByteStep.output op) flags steps) =
        sweep (applyPair op) flags (x.zip y) ∧
      lastCarry op flags steps = (flagsAfter flags (sweep (applyPair op) flags (x.zip y))).carry ∧
      ∀ o ∈ sweep (ByteStep.output op) flags steps, o.flags.Describe o.value := by
  refine ⟨⟨length_resultBytes _ flags hlength hsteps, ?_⟩,
    ⟨length_resultBytes _ flags hlength hsteps, ?_, lastCarry_difference_iff flags hlength hsteps⟩,
    fun op ↦ ?_⟩
  · have hsum := resultBytes_sum flags hlength hsteps
    have hlt := resultBytes_lt .addCarry flags hlength hsteps
    obtain ⟨hdiv, hmod⟩ := (Nat.div_mod_unique (Nat.zero_lt_of_lt hlt)).mpr ⟨hsum, hlt⟩
    exact ⟨hmod.symm, hdiv.symm⟩
  · have hdifference := resultBytes_difference flags hlength hsteps
    have hlt := resultBytes_lt .subBorrow flags hlength hsteps
    have hrest : (littleEndian x : Int) - littleEndian y - flags.carry.toNat =
        littleEndian (resultBytes .subBorrow flags steps) -
          256 ^ x.length * (lastCarry .subBorrow flags steps).toNat := by
      zify at hdifference
      linarith
    rw [hrest, Int.sub_mul_emod_self_left]
    exact (Int.emod_eq_of_lt (Int.natCast_nonneg _) (by exact_mod_cast hlt)).symm
  · obtain ⟨houtputs, hcarry⟩ := combined_eq op flags hsteps
    exact ⟨houtputs, hcarry, describe_sweep op steps⟩

/-- Two numbers of two bytes are combined, and between the bytes a loop counter comes to 0. -/
def countedSteps : List ByteStep := [.combine 0xff 0x01, .decrement 1, .combine 0x12 0x34]

theorem countedSteps_exact :
    (littleEndian (resultBytes .addCarry { carry := true } countedSteps) = 0x4701 ∧
      (lastCarry .addCarry { carry := true } countedSteps).toNat = 0) ∧
    (littleEndian (resultBytes .subBorrow { carry := true } countedSteps) : Int) = 0xdefd ∧
      lastCarry .subBorrow { carry := true } countedSteps = true := by
  obtain ⟨⟨-, hsum, hcarry⟩, ⟨-, hdifference, hborrow⟩, -⟩ :=
    @long_arithmetic_exact [0xff, 0x12] [0x01, 0x34] countedSteps rfl rfl { carry := true }
  exact ⟨⟨hsum, hcarry⟩, hdifference, hborrow.mpr (by decide)⟩

end Alu

end Mcs8
