/-!
# The scratchpad registers

Seven byte registers and the register codes of the instruction set. The eighth code, `M`, is no
register: it names the memory byte at the address held in `H` and `L`, and whoever executes an
instruction has to resolve it through `Scratchpad.pointer`.
-/

namespace Mcs8

/-- A register code, in the order of the three-bit register fields. -/
inductive Register where
  | A
  | B
  | C
  | D
  | E
  | H
  | L
  /-- The memory byte addressed by `H` and `L`. -/
  | M
  deriving DecidableEq

namespace Register

/-- All codes in order. -/
def all : List Register := [A, B, C, D, E, H, L, M]

/-- The number of a code. -/
def index : Register → Nat
  | A => 0
  | B => 1
  | C => 2
  | D => 3
  | E => 4
  | H => 5
  | L => 6
  | M => 7

/-- The code in the low three bits of a field. -/
def ofField (field : UInt8) : Register :=
  match field % 8 with
  | 0 => A
  | 1 => B
  | 2 => C
  | 3 => D
  | 4 => E
  | 5 => H
  | 6 => L
  | _ => M

/-- The letter of a code. -/
def letter : Register → Char
  | A => 'A'
  | B => 'B'
  | C => 'C'
  | D => 'D'
  | E => 'E'
  | H => 'H'
  | L => 'L'
  | M => 'M'

/-- The code as text. -/
def name (r : Register) : String := String.singleton r.letter

@[simp] theorem ofField_index (r : Register) : ofField (UInt8.ofNat r.index) = r := by
  cases r <;> rfl

theorem index_lt (r : Register) : r.index < 8 := by
  cases r <;> decide

theorem index_lt_seven {r : Register} (h : r ≠ M) : r.index < 7 := by
  cases r <;> first | decide | exact absurd rfl h

end Register

/-- The width of the address space is 14 bits: addresses are taken modulo this. -/
abbrev addressSpace : UInt16 := 0x4000

/-- The address with the given low byte whose high part is the low six bits of `high`. -/
def addressOf (high low : UInt8) : UInt16 := high.toUInt16 % 64 * 256 + low.toUInt16

theorem toNat_addressOf (high low : UInt8) :
    (addressOf high low).toNat = high.toNat % 64 * 256 + low.toNat := by
  have := high.toNat_lt
  have := low.toNat_lt
  simp [addressOf, UInt16.toNat_add, UInt16.toNat_mul, UInt16.toNat_mod]
  omega

theorem addressOf_lt (high low : UInt8) : (addressOf high low).toNat < 16384 := by
  have := low.toNat_lt
  rw [toNat_addressOf]
  omega

theorem low_addressOf (high low : UInt8) : (addressOf high low % 256).toUInt8 = low := by
  have := low.toNat_lt
  have hmod : (addressOf high low).toNat % 256 = low.toNat := by
    rw [toNat_addressOf]
    omega
  rw [← UInt8.toNat_inj, UInt16.toNat_toUInt8, UInt16.toNat_mod]
  exact (Nat.mod_eq_of_lt (Nat.mod_lt _ (by decide))).trans hmod

theorem high_addressOf (high low : UInt8) : (addressOf high low / 256).toUInt8 = high % 64 := by
  have := low.toNat_lt
  have hdiv : (addressOf high low).toNat / 256 % 256 = high.toNat % 64 := by
    rw [toNat_addressOf]
    omega
  rw [← UInt8.toNat_inj, UInt16.toNat_toUInt8, UInt16.toNat_div]
  exact hdiv

/-- The seven registers in the order `A B C D E H L`. -/
structure Scratchpad where
  bytes : Vector UInt8 7 := .replicate 7 0
  deriving DecidableEq

namespace Scratchpad

/-- The byte in the register with a number, counted cyclically. -/
def select (pad : Scratchpad) (number : Nat) : UInt8 :=
  have : number % 7 < 7 := Nat.mod_lt _ (by decide)
  pad.bytes[number % 7]

/-- The byte in the register `r`. The code `M` is no register and is not meant to be read: it wraps
round to `A`. -/
def read (pad : Scratchpad) (r : Register) : UInt8 := pad.select r.index

/-- Put a byte into the register `r`; a write to `M` changes nothing. -/
def write (pad : Scratchpad) (r : Register) (value : UInt8) : Scratchpad where
  bytes := pad.bytes.setIfInBounds r.index value

/-- The 14-bit address in `H` and `L`; the two high bits of `H` are ignored. -/
def pointer (pad : Scratchpad) : UInt16 := addressOf (pad.read .H) (pad.read .L)

theorem read_write {r s : Register} (hr : r ≠ .M) (hs : s ≠ .M) (pad : Scratchpad)
    (value : UInt8) : (pad.write r value).read s = if r = s then value else pad.read s := by
  cases r <;> cases s <;> simp_all [read, write, select, Register.index]

@[simp] theorem write_M (pad : Scratchpad) (value : UInt8) : pad.write .M value = pad := by
  obtain ⟨bytes⟩ := pad
  simp only [write, mk.injEq]
  ext i hi
  have hM : Register.M.index ≠ i := by
    simp only [Register.index]
    omega
  rw [Vector.getElem_setIfInBounds hi, if_neg hM]

theorem pointer_lt (pad : Scratchpad) : pad.pointer.toNat < 16384 := addressOf_lt _ _

end Scratchpad

end Mcs8
