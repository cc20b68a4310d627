import Mathlib.Algebra.Ring.Nat
import Mathlib.Tactic.Common
import Mcs8.Text.Pen

/-!
# Numbers in fields

A pen in base 16 that fills with zeros writes a number in a field of digits (`hexField`). Zeros on the
left leave it the number that it is, and the digits can be read back (`readHex_hexField`). On the
right they multiply it by the base, so the text is another one unless the number is 0 or needs no
zeros (`hexField_left_iff`).
-/

namespace Mcs8

/-! ### Digits -/

/-- The case that a pen gives to the letters of a number. -/
def letterCase (upper : Bool) : Char → Char := if upper then Char.toUpper else id

/-- The digits of a number in base 16. -/
def hexDigits (upper : Bool) (n : Nat) : List Char := (Nat.toDigits 16 n).map (letterCase upper)

/-- A number in base 16 in a field, with zeros for the digits that it does not have. -/
def hexField (upper alignLeft : Bool) (width n : Nat) : List Char :=
  let digits := hexDigits upper n
  let zeros := List.replicate (width - digits.length) '0'
  if alignLeft then digits ++ zeros else zeros ++ digits

/-- A number in base 10. -/
def decimal (n : Nat) : String := .ofList (Nat.toDigits 10 n)

/-- The value of a digit in base 16, whose letters are capitals. -/
def hexValue? (c : Char) : Option Nat :=
  if c.isDigit then some (c.toNat - 48) else if 'A' ≤ c ∧ c ≤ 'F' then some (c.toNat - 55) else none

/-- Read a number in base 16, behind the number `n` of the digits read before. -/
def readHex? : Nat → List Char → Option Nat
  | n, [] => some n
  | n, c :: rest => (hexValue? c).bind fun digit ↦ readHex? (16 * n + digit) rest

theorem readHex_append {n m : Nat} {digits rest : List Char} (h : readHex? n digits = some m) :
    readHex? n (digits ++ rest) = readHex? m rest := by
  induction digits generalizing n with
  | nil => rw [List.nil_append, Option.some.inj h]
  | cons c digits ih =>
    obtain ⟨digit, hdigit, h⟩ := Option.bind_eq_some_iff.mp h
    rw [List.cons_append, readHex?, hdigit]
    exact ih h

theorem hexValue_digitChar {n : Nat} (h : n < 16) : hexValue? (Nat.digitChar n).toUpper = some n := by
  decide +revert

theorem readHex_hexDigits (n : Nat) : readHex? 0 (hexDigits true n) = some n := by
  induction n using Nat.strongRecOn with
  | ind n ih =>
    rw [hexDigits, Nat.toDigits_eq_if (by decide)]
    split
    next hlt => simp [letterCase, readHex?, hexValue_digitChar hlt]
    next hle =>
      have hdigit := hexValue_digitChar (Nat.mod_lt n (by decide : 0 < 16))
      rw [List.map_append, ← hexDigits, readHex_append (ih (n / 16) (by omega))]
      simp [letterCase, readHex?, hdigit, Nat.div_add_mod]

theorem readHex_replicate_zero (n k : Nat) :
    readHex? n (List.replicate k '0') = some (n * 16 ^ k) := by
  induction k generalizing n with
  | zero => simp [readHex?]
  | succ k ih =>
    rw [List.replicate_succ, readHex?]
    have hzero : hexValue? '0' = some 0 := by decide
    rw [hzero, Option.bind_some, ih, Nat.add_zero, Nat.pow_succ, Nat.mul_comm 16 n, Nat.mul_assoc,
      Nat.mul_comm 16]

/-- Zeros on the left do not change a number. -/
theorem readHex_hexField (width n : Nat) : readHex? 0 (hexField true false width n) = some n := by
  rw [hexField, if_neg Bool.false_ne_true, readHex_append (readHex_replicate_zero 0 _),
    Nat.zero_mul, readHex_hexDigits]

/-- A field consists of digits. -/
theorem not_mem_hexField {c : Char} (h : hexValue? c = none) {alignLeft : Bool} {width n : Nat} :
    c ∉ hexField true alignLeft width n := by
  have hread (digits : List Char) (n : Nat) (hc : c ∈ digits) : readHex? n digits = none := by
    induction digits generalizing n with
    | nil => contradiction
    | cons d digits ih =>
      rw [readHex?]
      rcases List.mem_cons.mp hc with rfl | hc
      · rw [h]
        rfl
      · rw [Option.bind_eq_none_iff]
        exact fun _ _ ↦ ih _ hc
  intro hc
  have hnone := hread _ 0 hc
  cases alignLeft with
  | false =>
    rw [readHex_hexField] at hnone
    contradiction
  | true =>
    rw [hexField, if_pos rfl, readHex_append (readHex_hexDigits n), readHex_replicate_zero] at hnone
    contradiction

/-- A number is known by its field. -/
theorem hexField_injective {width n m : Nat}
    (h : hexField true false width n = hexField true false width m) : n = m := by
  have hread := readHex_hexField width n
  rw [h, readHex_hexField] at hread
  exact (Option.some.inj hread).symm

theorem length_hexDigits (upper : Bool) (n : Nat) :
    (hexDigits upper n).length = (Nat.toDigits 16 n).length := List.length_map _

theorem length_hexField (upper alignLeft : Bool) (width n : Nat) :
    (hexField upper alignLeft width n).length = max width (Nat.toDigits 16 n).length := by
  cases alignLeft <;> simp [hexField, length_hexDigits] <;> omega

/-- A field that the number fits in is as wide as it says. -/
theorem length_hexField_of_lt (upper alignLeft : Bool) {width n : Nat} (hwidth : 0 < width)
    (h : n < 16 ^ width) : (hexField upper alignLeft width n).length = width := by
  have hdigits := (Nat.length_toDigits_le_iff (by decide) hwidth).mpr h
  rw [length_hexField, Nat.max_eq_left hdigits]

/-- The fields in capital letters are those in small ones, put into capitals. -/
theorem map_hexField (upper alignLeft : Bool) (width n : Nat) :
    (hexField false alignLeft width n).map (letterCase upper) =
      hexField upper alignLeft width n := by
  have hdigits : (hexDigits false n).map (letterCase upper) = hexDigits upper n := by
    simp [hexDigits, letterCase]
  have hzero : letterCase upper '0' = '0' := by cases upper <;> rfl
  cases alignLeft <;> simp [hexField, hdigits, hzero, length_hexDigits]

/-- Zeros on the right are those on the left for 0 and where there are none. -/
theorem hexField_left_iff (upper : Bool) (width n : Nat) :
    hexField upper true (width + 2) n = hexField upper false (width + 2) n ↔
      n = 0 ∨ 16 ^ (width + 1) ≤ n := by
  have hmissing : 16 ^ (width + 1) ≤ n ↔ width + 2 - (hexDigits upper n).length = 0 := by
    have hiff := Nat.length_toDigits_le_iff (n := n) (by decide : 1 < 16) width.succ_pos
    rw [length_hexDigits]
    omega
  rw [hmissing]
  constructor
  · intro h
    have hcapitals : hexField true true (width + 2) n = hexField true false (width + 2) n := by
      cases upper with
      | false => rw [← map_hexField, h, map_hexField]
      | true => exact h
    have hread := readHex_hexField (width + 2) n
    rw [← hcapitals, hexField, if_pos rfl, readHex_append (readHex_hexDigits n),
      readHex_replicate_zero, Option.some.injEq, length_hexDigits] at hread
    rw [length_hexDigits]
    rcases n.eq_zero_or_pos with hzero | hpos
    · exact .inl hzero
    · have hpow := Nat.eq_of_mul_eq_mul_left hpos (hread.trans (Nat.mul_one n).symm)
      exact .inr ((Nat.pow_eq_one.mp hpow).resolve_left (by decide))
  · rintro (rfl | hnone)
    · have hzero : hexDigits upper 0 = ['0'] := by cases upper <;> rfl
      simp only [hexField, hzero, if_true, Bool.false_eq_true, if_false]
      exact List.replicate_succ'
    · simp [hexField, hnone]

theorem toUpper_of_isDigit {c : Char} (h : c.isDigit = true) : c.toUpper = c := by
  have hsmall : ¬('a'.val ≤ c.val ∧ c.val ≤ 'z'.val) := by grind [Char.isDigit]
  exact dif_neg hsmall

/-- A number in base 10 has no letters. -/
theorem map_toDigits_ten (upper : Bool) (n : Nat) :
    (Nat.toDigits 10 n).map (letterCase upper) = Nat.toDigits 10 n := by
  have hdigit (c : Char) (hc : c ∈ Nat.toDigits 10 n) : letterCase upper c = id c := by
    cases upper with
    | false => rfl
    | true => exact toUpper_of_isDigit (Nat.isDigit_of_mem_toDigits (by decide) (by decide) hc)
  rw [List.map_congr_left hdigit, List.map_id]

theorem decimal_injective {n m : Nat} (h : decimal n = decimal m) : n = m := by
  have hdigits : Nat.toDigits 10 n = Nat.toDigits 10 m := String.ofList_inj.mp h
  have hread := congrArg (Nat.ofDigitChars 10 · 0) hdigits
  simpa using hread

/-! ### Pens -/

namespace Pen

variable {pen : Pen}

theorem put_eq (h : pen.width = 0) (item : String) :
    pen.put item = { pen with text := pen.text ++ item } := by
  simp [put, padding, h]

theorem field_eq (hhex : pen.hex = true) (hfill : pen.fill = '0') (width n : Nat) :
    pen.field width n =
      { pen with
        text := pen.text ++ .ofList (hexField pen.upper pen.alignLeft width n)
        width := 0 } := by
  have hdigits : digits { pen with width } n = .ofList (hexDigits pen.upper n) := by
    simp [digits, hhex, hexDigits, letterCase]
  have hpadding (item : List Char) : padding { pen with width } (.ofList item) =
      .ofList (.replicate (width - item.length) '0') := by
    simp [padding, hfill]
  rw [field, number, put, hdigits, hpadding, hexField]
  cases pen.alignLeft <;> simp

theorem number_eq (hhex : pen.hex = false) (h : pen.width = 0) (n : Nat) :
    pen.number n = { pen with text := pen.text ++ decimal n } := by
  have hdigits : pen.digits n = decimal n := by
    rw [decimal, ← map_toDigits_ten pen.upper, digits, hhex]
    rfl
  rw [number, put_eq h, hdigits]

end Pen

end Mcs8
