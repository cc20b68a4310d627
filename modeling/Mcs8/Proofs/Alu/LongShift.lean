import Mathlib.Tactic.Common
import Mcs8.Proofs.Alu.Sweep

/-!
# Shifts of long numbers

A number of any length is shifted one place by rotating its bytes through the carry flag: to the
left from the lowest byte on, and to the right from the highest one. A rotation of one byte loses
nothing (`toNat_rotate_left`, `toNat_rotate_right`), and so the number and the carry together are
doubled (`value_left`) or halved (`value_right`). All the rest of `long_shift_exact` is arithmetic:
in particular the two shifts undo each other, since each determines the number and the carry that it
began with.
-/

namespace Mcs8

/-- A number of any length beside the flags. -/
structure LongNumber where
  /-- The bytes of the number, the lowest first. -/
  bytes : List UInt8
  flags : Flags

namespace Alu

variable (op : Rotation) (value : UInt8) (flags : Flags)

/-- A rotation changes no flag but the carry. -/
theorem flags_rotate : (rotate op value flags).flags =
    { flags with carry := (rotate op value flags).flags.carry } := by
  cases op <;> rfl

theorem toNat_rotate_left : (rotate .leftThroughCarry value flags).value.toNat +
    256 * (rotate .leftThroughCarry value flags).flags.carry.toNat =
      2 * value.toNat + flags.carry.toNat := by
  have hlt := value.toNat_lt
  show (shiftLeft value flags.carry).toNat + 256 * (topBit value).toNat = _
  rw [toNat_shiftLeft, toNat_topBit]
  omega

theorem toNat_rotate_right : 2 * (rotate .rightThroughCarry value flags).value.toNat +
    (rotate .rightThroughCarry value flags).flags.carry.toNat =
      value.toNat + 256 * flags.carry.toNat := by
  show 2 * (shiftRight value flags.carry).toNat + (bottomBit value).toNat = _
  rw [toNat_shiftRight, toNat_bottomBit]
  omega

end Alu

namespace LongNumber

open Alu

variable (n : LongNumber)

/-- The value of the number. -/
def value : Nat := littleEndian n.bytes

/-- The outputs of a shift to the left, in the order in which they are made. -/
def leftOutputs : List AluOutput := sweep (rotate .leftThroughCarry) n.flags n.bytes

/-- The outputs of a shift to the right, in the order in which they are made. -/
def rightOutputs : List AluOutput := sweep (rotate .rightThroughCarry) n.flags n.bytes.reverse

/-- Shift the number one place to the left, and the carry in. -/
def left : LongNumber where
  bytes := values n.leftOutputs
  flags := flagsAfter n.flags n.leftOutputs

/-- Shift the number one place to the right, and the carry in. -/
def right : LongNumber where
  bytes := (values n.rightOutputs).reverse
  flags := flagsAfter n.flags n.rightOutputs

@[simp] theorem length_left : n.left.bytes.length = n.bytes.length := by
  rw [left, leftOutputs, length_values, length_sweep]

@[simp] theorem length_right : n.right.bytes.length = n.bytes.length := by
  rw [right, rightOutputs, List.length_reverse, length_values, length_sweep, List.length_reverse]

theorem value_lt : n.value < 256 ^ n.bytes.length := littleEndian_lt n.bytes

/-! ### The other flags -/

/-- The flags are those of `n`, except perhaps for the carry. -/
def KeepsFlags (flags : Flags) : Prop := flags = { n.flags with carry := flags.carry }

variable {n} in
theorem KeepsFlags.rotate {flags : Flags} (h : n.KeepsFlags flags) (op : Rotation) (byte : UInt8) :
    n.KeepsFlags (Alu.rotate op byte flags).flags := by
  rw [KeepsFlags, flags_rotate, h]

theorem keepsFlags_sweep (op : Rotation) (bytes : List UInt8) :
    (∀ o ∈ sweep (rotate op) n.flags bytes, n.KeepsFlags o.flags) ∧
      n.KeepsFlags (flagsAfter n.flags (sweep (rotate op) n.flags bytes)) :=
  sweep_invariant (I := n.KeepsFlags) (rfl : n.flags = n.flags)
    (fun byte _ h ↦ ⟨h.rotate op byte, h.rotate op byte⟩) bytes

/-! ### Nothing is lost -/

/-- A shift to the left doubles the number and takes the carry in. -/
theorem value_left : n.left.value + 256 ^ n.bytes.length * n.left.flags.carry.toNat =
    2 * n.value + n.flags.carry.toNat := by
  obtain ⟨bytes, flags⟩ := n
  simp only [value, left, leftOutputs]
  induction bytes generalizing flags with
  | nil => simp [sweep]
  | cons byte bytes ih =>
    have hfirst := toNat_rotate_left byte flags
    have hrest := ih (rotate .leftThroughCarry byte flags).flags
    simp only [sweep, values_cons, flagsAfter_cons, littleEndian_cons, List.length_cons, pow_succ',
      mul_assoc]
    omega

/-- A shift to the right halves the number with the carry above it, and the carry takes the rest. -/
theorem value_right : 2 * n.right.value + n.right.flags.carry.toNat =
    n.value + 256 ^ n.bytes.length * n.flags.carry.toNat := by
  obtain ⟨bytes, flags⟩ := n
  simp only [value, right, rightOutputs]
  -- the lowest byte comes last, with the carry that the higher ones leave
  induction bytes with
  | nil => simp [sweep]
  | cons byte bytes ih =>
    have hlast := toNat_rotate_right byte
      (flagsAfter flags (sweep (rotate .rightThroughCarry) flags bytes.reverse))
    simp only [List.reverse_cons, sweep_concat, values_concat, List.reverse_concat,
      flagsAfter_concat, littleEndian_cons, List.length_cons, pow_succ', mul_assoc]
    omega

/-! ### The shifts -/

/-- Numbers of one length with the same value, and flags with the same carry, are the same. -/
theorem eq_of_value {m : LongNumber} (hlength : m.bytes.length = n.bytes.length)
    (hvalue : m.value = n.value) (hcarry : m.flags.carry.toNat = n.flags.carry.toNat)
    (hflags : n.KeepsFlags m.flags) : m = n := by
  have hinjective : ∀ b c : Bool, b.toNat = c.toNat → b = c := by decide
  obtain ⟨bytes, flags⟩ := m
  obtain rfl : bytes = n.bytes := littleEndian_injective hlength hvalue
  obtain rfl : flags = n.flags := by
    rw [KeepsFlags, hinjective _ _ hcarry] at hflags
    exact hflags
  rfl

theorem keepsFlags_left : n.KeepsFlags n.left.flags := (n.keepsFlags_sweep _ _).2

theorem keepsFlags_right : n.KeepsFlags n.right.flags := (n.keepsFlags_sweep _ _).2

variable {n} in
theorem KeepsFlags.trans {m : LongNumber} {flags : Flags} (h : n.KeepsFlags m.flags)
    (h' : m.KeepsFlags flags) : n.KeepsFlags flags := by
  rw [KeepsFlags] at h h' ⊢
  rw [h', h]

theorem right_left : n.left.right = n := by
  have hleft := n.value_left
  have hright := n.left.value_right
  have hcarry := Bool.toNat_le n.flags.carry
  have hcarry' := Bool.toNat_le n.left.right.flags.carry
  rw [length_left] at hright
  refine n.eq_of_value ?_ (by omega) (by omega) (n.keepsFlags_left.trans n.left.keepsFlags_right)
  rw [length_right, length_left]

theorem left_right : n.right.left = n := by
  have hright := n.value_right
  have hleft := n.right.value_left
  have hlt := n.value_lt
  have hlt' := n.right.left.value_lt
  rw [length_right] at hleft
  rw [length_left, length_right] at hlt'
  -- value and carry are remainder and quotient of the same number
  obtain ⟨hdiv, hmod⟩ := (Nat.div_mod_unique (Nat.zero_lt_of_lt hlt)).mpr ⟨hright.symm, hlt⟩
  obtain ⟨hdiv', hmod'⟩ := (Nat.div_mod_unique (Nat.zero_lt_of_lt hlt)).mpr ⟨hleft, hlt'⟩
  refine n.eq_of_value ?_ (hmod'.symm.trans hmod) (hdiv'.symm.trans hdiv)
    (n.keepsFlags_right.trans n.right.keepsFlags_left)
  rw [length_left, length_right]

/-- The highest bit of a number of at least one byte counts half of what is beyond its bytes. -/
theorem pow_length (h : n.bytes ≠ []) :
    256 ^ n.bytes.length = 2 * 2 ^ (8 * n.bytes.length - 1) := by
  have hpos := List.length_pos_iff.mpr h
  rw [← pow_succ', Nat.sub_add_cancel (by omega), pow_mul]
  rfl

theorem carry_left (h : n.bytes ≠ []) :
    n.left.flags.carry = n.value.testBit (8 * n.bytes.length - 1) := by
  have hleft := n.value_left
  have hlt := n.value_lt
  have hlt' := n.left.value_lt
  have hcarry := Bool.toNat_le n.flags.carry
  rw [length_left] at hlt'
  rw [n.pow_length h] at hleft hlt hlt'
  cases hout : n.left.flags.carry with
  | true =>
    rw [hout, Bool.toNat_true, mul_one] at hleft
    refine (Nat.testBit_of_two_pow_le_and_two_pow_add_one_gt (by omega) ?_).symm
    rw [pow_succ']
    exact hlt
  | false =>
    rw [hout, Bool.toNat_false, mul_zero] at hleft
    exact (Nat.testBit_lt_two_pow (by omega)).symm

theorem carry_right (h : n.bytes ≠ []) : n.right.flags.carry = n.value.testBit 0 := by
  have hright := n.value_right
  rw [n.pow_length h, mul_assoc] at hright
  rw [Nat.testBit_zero]
  cases hout : n.right.flags.carry with
  | true =>
    rw [hout, Bool.toNat_true] at hright
    exact (decide_eq_true (by omega)).symm
  | false =>
    rw [hout, Bool.toNat_false] at hright
    exact (decide_eq_false (by omega)).symm

/-- **Shifts of numbers of any length are exact and undo each other.** For a number of at least one
byte and any flags:

* the shift to the left, from the lowest byte to the highest, doubles the number, takes the carry in
  at the bottom and leaves the old highest bit in the carry;
* the shift to the right, from the highest byte to the lowest, halves the number, takes the carry in
  at the top and leaves the old lowest bit in the carry;
* after one shift the other one restores the bytes and the carry;
* no step of either changes another flag. -/
theorem long_shift_exact (n : LongNumber) (h : n.bytes ≠ []) :
    (n.left.bytes.length = n.bytes.length ∧
      n.left.value = (2 * n.value + n.flags.carry.toNat) % 256 ^ n.bytes.length ∧
      n.left.flags.carry = n.value.testBit (8 * n.bytes.length - 1)) ∧
    (n.right.bytes.length = n.bytes.length ∧
      n.right.value = n.value / 2 + n.flags.carry.toNat * 2 ^ (8 * n.bytes.length - 1) ∧
      n.right.flags.carry = n.value.testBit 0) ∧
    (n.left.right = n ∧ n.right.left = n) ∧
    (∀ o ∈ n.leftOutputs ++ n.rightOutputs,
      o.flags.zero = n.flags.zero ∧ o.flags.sign = n.flags.sign ∧
        o.flags.parity = n.flags.parity) := by
  refine ⟨⟨n.length_left, ?_, n.carry_left h⟩, ⟨n.length_right, ?_, n.carry_right h⟩,
    ⟨n.right_left, n.left_right⟩, fun o ho ↦ ?_⟩
  · have hlt := n.left.value_lt
    rw [length_left] at hlt
    exact ((Nat.div_mod_unique (Nat.zero_lt_of_lt hlt)).mpr ⟨n.value_left, hlt⟩).2.symm
  · have hright := n.value_right
    have hcarry := Bool.toNat_le n.right.flags.carry
    rw [n.pow_length h, mul_assoc, mul_comm (2 ^ _)] at hright
    omega
  · have hkept : n.KeepsFlags o.flags := by
      rcases List.mem_append.mp ho with ho | ho
      · exact (n.keepsFlags_sweep _ _).1 o ho
      · exact (n.keepsFlags_sweep _ _).1 o ho
    rw [KeepsFlags] at hkept
    rw [hkept]
    exact ⟨rfl, rfl, rfl⟩

/-- A number of two bytes with the highest and the lowest bit set, and a carry beside it. -/
def bordered : LongNumber := ⟨[0x01, 0x80], { carry := true, parity := true }⟩

theorem bordered_shifted : bordered.bytes ≠ [] ∧
    bordered.left.value = 0x0003 ∧ bordered.left.flags.carry = true ∧
    bordered.right.value = 0xc000 ∧ bordered.right.flags.carry = true ∧
    bordered.left.right = bordered := by
  have hbytes : bordered.bytes ≠ [] := by decide
  obtain ⟨⟨-, hleft, hleftCarry⟩, ⟨-, hright, hrightCarry⟩, hback, -⟩ :=
    long_shift_exact bordered hbytes
  exact ⟨hbytes, hleft, hleftCarry, hright, hrightCarry, hback.1⟩

end LongNumber

end Mcs8
