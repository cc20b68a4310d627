import Mathlib.Data.List.Induction
import Mcs8.Disassembly
import Mcs8.Proofs.Text.Fields

/-!
# Printed instructions and the format of a pen

What a pen prints for an instruction is put together from a name, registers and a number in a field
(`Instruction.written`), and its bytes from fields with blanks between them (`hexBytes`). Printing
chooses the base, the letters and the fill character of these fields and leaves only the alignment as
it finds it (`Instruction.print_eq`, `Instruction.printBytes_eq`). So the alignment is all of a format
that shows, and it shows in the numbers that have leading zeros (`Instruction.print_format_iff`).
-/

namespace Mcs8

/-- A number as instructions show it: in base 16, with a letter that says so. -/
def shownNumber (alignLeft : Bool) (n width : Nat) : String :=
  .ofList (hexField true alignLeft width n) ++ "h"

namespace Operation

/-- The name under which an operation is printed. -/
def printedName : Operation → String
  | undefined => "DB"
  | o => o.mnemonic

/-- The operands of an operation, with the given text for a number of so many digits. -/
def operandsText (o : Operation) (number : Nat → String) : String :=
  match o with
  | move dst src => " " ++ dst.name ++ "," ++ src.name
  | moveImmediate dst => " " ++ dst.name ++ "," ++ number 2
  | increment reg | decrement reg => " " ++ reg.name
  | alu _ src => " " ++ src.name
  | aluImmediate _ | undefined => " " ++ number 2
  | jump _ | call _ => " " ++ number 4
  | restart n | input n | output n => " " ++ decimal n.toNat
  | halt | rotate _ | ret _ => ""

end Operation

namespace Instruction

/-- The number that an instruction shows: its operand, or the opcode if that is undefined. -/
def shownValue (i : Instruction) : Nat :=
  if i.operation = .undefined then i.opcode.toNat else i.operand.toNat

/-- An instruction as a pen of the given alignment prints it. -/
def written (i : Instruction) (alignLeft : Bool) : String :=
  i.operation.printedName ++ i.operation.operandsText (shownNumber alignLeft i.shownValue)

end Instruction

section Mnemonics

variable {pen : Pen} (h : pen.width = 0)

include h

theorem printData_eq (opcode : UInt8) : printData opcode pen =
    { pen with text := pen.text ++ ("DB " ++ shownNumber pen.alignLeft opcode.toNat 2) } := by
  rw [printData, Pen.keepFormat, Pen.put_eq h, Pen.field_eq rfl rfl, Pen.put_eq rfl]
  simp [shownNumber, String.append_assoc]

/-- The operands are printed behind each other, with the given text for a number. -/
theorem Operation.text_printOperands {o : Operation} (ho : o ≠ .undefined) {operand : OperandText}
    {number : Nat → String}
    (hnumber : ∀ after : Pen, after.hex = pen.hex → after.upper = pen.upper →
      after.fill = pen.fill → after.alignLeft = pen.alignLeft →
      ∀ width, (operand.print width after).text = after.text ++ number width) :
    (o.printOperands operand pen).text = pen.text ++ o.operandsText number := by
  cases o with
  | undefined => contradiction
  | halt | rotate | ret => exact String.append_empty.symm
  | move | increment | decrement | alu =>
    simp [printOperands, operandsText, Pen.put_eq, h, String.append_assoc]
  | moveImmediate | aluImmediate | jump | call =>
    simp [printOperands, operandsText, Pen.put_eq, h, String.append_assoc, hnumber]
  | restart | input | output =>
    simp [printOperands, operandsText, Pen.put_eq, h, String.append_assoc, Pen.inDecimal,
      Pen.number_eq]

omit h in
theorem OperandText.text_print_value (operand : UInt16) (width : Nat) (hhex : pen.hex = true)
    (hupper : pen.upper = true) (hfill : pen.fill = '0') :
    ((value operand).print width pen).text =
      pen.text ++ shownNumber pen.alignLeft operand.toNat width := by
  rw [print, Pen.field_eq hhex hfill, Pen.put_eq rfl, hupper, shownNumber, String.append_assoc]

/-- A pen without a width prints an instruction as its alignment makes it, and its format stays. -/
theorem Instruction.print_eq (i : Instruction) :
    i.print pen = { pen with text := pen.text ++ i.written pen.alignLeft } := by
  rw [print, Descriptor.printWith, written, shownValue]
  split
  next hundefined =>
    rw [printData_eq h, hundefined]
    rfl
  next hdefined =>
    have hname : i.operation.printedName = i.operation.mnemonic := by
      cases ho : i.operation <;> first | contradiction | rfl
    have hoperands : (i.operation.printOperands (.value i.operand)
        { pen.put i.operation.mnemonic with hex := true, upper := true, fill := '0' }).text =
        (pen.put i.operation.mnemonic).text ++
          i.operation.operandsText (shownNumber pen.alignLeft i.operand.toNat) := by
      refine Operation.text_printOperands rfl hdefined fun after hhex hupper hfill hleft width ↦ ?_
      have hprint := OperandText.text_print_value i.operand width hhex hupper hfill
      rwa [hleft] at hprint
    rw [Pen.text_put_of_width_zero _ _ h, String.append_assoc] at hoperands
    rw [hname, Operation.printMnemonic, Pen.keepFormat]
    exact congrArg (fun text ↦ { pen with text }) hoperands

end Mnemonics

theorem Instruction.text_eq (i : Instruction) : i.text = i.written false := by
  rw [text, print_eq rfl]
  exact String.empty_append

/-! ### Bytes -/

/-- Bytes of two digits each, with blanks between them. -/
def hexBytes (upper alignLeft : Bool) (bytes : List UInt8) : List Char :=
  [' '].intercalate (bytes.map fun byte ↦ hexField upper alignLeft 2 byte.toNat)

/-- The bytes that the opcode and the operand of an instruction tell. -/
def Instruction.shownBytes (i : Instruction) : List UInt8 :=
  [i.opcode, (i.operand % 256).toUInt8, (i.operand / 256).toUInt8].take i.operation.length

namespace ListingItem

/-- The bytes that a line tells. -/
def shownBytes : ListingItem → List UInt8
  | instruction i => i.shownBytes
  | data d => [d.opcode]

end ListingItem

/-- The bytes that an instruction tells are those that it has been decoded from, without the bits
that decoding ignores. -/
theorem Instruction.shownBytes_decode (first second third : UInt8) :
    (decode first second third).shownBytes =
      ([first, second, third].take (Mcs8.decode first).operation.length).modify 2 (· % 64) := by
  have hlength : (decode first second third).operation.length =
      (Mcs8.decode first).operation.length := rfl
  rw [shownBytes, hlength]
  simp only [decode]
  split
  next htwo =>
    have haddress : second.toUInt16 = addressOf 0 second := (UInt16.zero_add _).symm
    rw [htwo, haddress, low_addressOf]
    rfl
  next hthree =>
    rw [hthree, low_addressOf, high_addressOf]
    rfl
  next htwo hthree =>
    have hone : (Mcs8.decode first).operation.length = 1 :=
      (Operation.length_cases _).resolve_right (not_or.mpr ⟨htwo, hthree⟩)
    rw [hone]
    rfl

theorem hexBytes_singleton (upper alignLeft : Bool) (byte : UInt8) :
    hexBytes upper alignLeft [byte] = hexField upper alignLeft 2 byte.toNat :=
  List.intercalate_singleton

theorem hexBytes_cons_cons (upper alignLeft : Bool) (byte next : UInt8) (rest : List UInt8) :
    hexBytes upper alignLeft (byte :: next :: rest) =
      hexField upper alignLeft 2 byte.toNat ++ ' ' :: hexBytes upper alignLeft (next :: rest) := by
  simp [hexBytes, List.intercalate_cons_cons]

theorem Descriptor.printOpcode_eq (d : Descriptor) (pen : Pen) : d.printOpcode pen =
    { pen with
      text := pen.text ++ .ofList (hexField pen.upper pen.alignLeft 2 d.opcode.toNat)
      width := 0
      fill := '0'
      hex := true } := by
  rw [printOpcode, Pen.field_eq rfl rfl]
  rfl

/-- A pen prints the bytes of an instruction as its alignment and its letters make them, and its
format stays. -/
theorem Instruction.printBytes_eq (i : Instruction) (pen : Pen) : i.printBytes pen =
    { pen with
      text := pen.text ++ .ofList (hexBytes pen.upper pen.alignLeft i.shownBytes) } := by
  have hlow : (i.operand % 256).toUInt8.toNat = i.operand.toNat % 256 := by simp
  have hhigh : (i.operand / 256).toUInt8.toNat = i.operand.toNat / 256 := by
    have := i.operand.toNat_lt
    simp
    omega
  rw [printBytes, Pen.keepFormat, shownBytes]
  split
  next hlength =>
    rw [hlength, Descriptor.printOpcode_eq]
    simp [hexBytes_singleton]
  next hlength =>
    rw [hlength, Descriptor.printOpcode_eq, Pen.put_eq rfl, Pen.field_eq rfl rfl]
    simp [hexBytes_singleton, hexBytes_cons_cons, hlow, String.append_assoc]
  next hone htwo =>
    have hlength : i.operation.length = 3 :=
      (i.operation.length_cases.resolve_left hone).resolve_left htwo
    rw [hlength, Descriptor.printOpcode_eq, Pen.put_eq rfl, Pen.field_eq rfl rfl, Pen.put_eq rfl,
      Pen.field_eq rfl rfl]
    simp [hexBytes_singleton, hexBytes_cons_cons, hlow, hhigh, String.append_assoc]

theorem ListingItem.printBytes_eq (item : ListingItem) (pen : Pen) : item.printBytes pen =
    { pen with
      text := pen.text ++ .ofList (hexBytes pen.upper pen.alignLeft item.shownBytes) } := by
  cases item with
  | instruction i => exact i.printBytes_eq pen
  | data d =>
    rw [printBytes, Pen.keepFormat, Descriptor.printOpcode_eq, shownBytes, hexBytes_singleton]

theorem map_hexBytes (upper alignLeft : Bool) (bytes : List UInt8) :
    (hexBytes false alignLeft bytes).map (letterCase upper) = hexBytes upper alignLeft bytes := by
  have hblank : letterCase upper ' ' = ' ' := by cases upper <;> rfl
  induction bytes using List.twoStepInduction with
  | nil => rfl
  | singleton byte => rw [hexBytes_singleton, hexBytes_singleton, map_hexField]
  | cons_cons byte next rest _ ih =>
    rw [hexBytes_cons_cons, hexBytes_cons_cons, List.map_append, List.map_cons, map_hexField,
      hblank, ih]

theorem Instruction.map_bytesText (i : Instruction) (upper : Bool) :
    i.bytesText.map (letterCase upper) = .ofList (hexBytes upper false i.shownBytes) := by
  have htext : i.bytesText = .ofList (hexBytes false false i.shownBytes) := by
    rw [bytesText, printBytes_eq]
    exact String.empty_append
  apply String.toList_inj.mp
  rw [htext, String.toList_map, String.toList_ofList, String.toList_ofList, map_hexBytes]

/-! ### Alignment -/

theorem hexBytes_left_iff (upper : Bool) (bytes : List UInt8) :
    hexBytes upper true bytes = hexBytes upper false bytes ↔
      ∀ byte ∈ bytes, byte = 0 ∨ 16 ≤ byte := by
  have hfield (byte : UInt8) :
      hexField upper true 2 byte.toNat = hexField upper false 2 byte.toNat ↔
        byte = 0 ∨ 16 ≤ byte := by
    rw [hexField_left_iff upper 0, ← UInt8.toNat_inj, UInt8.le_iff_toNat_le]
    rfl
  induction bytes using List.twoStepInduction with
  | nil => simp [hexBytes]
  | singleton byte =>
    rw [hexBytes_singleton, hexBytes_singleton, hfield, List.forall_mem_singleton]
  | cons_cons byte next rest _ ih =>
    have hlength : (hexField upper true 2 byte.toNat).length =
        (hexField upper false 2 byte.toNat).length := by
      rw [length_hexField, length_hexField]
    have hrest : hexBytes upper true (next :: rest) = hexBytes upper false (next :: rest) ↔
        ∀ byte ∈ next :: rest, byte = 0 ∨ 16 ≤ byte := ih next
    rw [hexBytes_cons_cons, hexBytes_cons_cons, List.append_eq_append_iff_of_size_eq_left hlength,
      List.forall_mem_cons, hfield, ← hrest]
    exact and_congr_right' (List.cons_inj_right ' ')

theorem shownNumber_left_iff (n width : Nat) :
    shownNumber true n (width + 2) = shownNumber false n (width + 2) ↔
      n = 0 ∨ 16 ^ (width + 1) ≤ n := by
  rw [shownNumber, shownNumber, String.append_left_inj, String.ofList_inj, hexField_left_iff]

namespace Instruction

/-- An instruction without operand bytes has the operand 0. -/
theorem operand_decode_eq_zero {first second third : UInt8}
    (h : (decode first second third).operation.length = 1) :
    (decode first second third).operand = 0 := by
  have hlength : (Mcs8.decode first).operation.length = 1 := h
  simp only [decode, hlength]

/-- No undefined opcode begins with the digit 0. -/
theorem le_opcode_of_undefined {first second third : UInt8}
    (h : (decode first second third).operation = .undefined) :
    16 ≤ (decode first second third).opcode.toNat := by
  have htable : ∀ n < 256, Operation.ofOpcode (.ofNat n) = .undefined → 16 ≤ n := by
    decide +kernel
  refine htable first.toNat first.toNat_lt ?_
  rw [UInt8.ofNat_toNat]
  exact h

/-- The alignment of the pen shows in an operand that has leading zeros and is not 0. -/
theorem written_left_iff (first second third : UInt8) :
    let i := decode first second third
    i.written true = i.written false ↔
      i.operand = 0 ∨ 16 ^ (2 * i.operation.length - 3) ≤ i.operand.toNat := by
  intro i
  have hzero : i.operation.length = 1 → i.operand = 0 := operand_decode_eq_zero
  have hundefined : i.operation = .undefined → 16 ≤ i.opcode.toNat := le_opcode_of_undefined
  rw [written, written, String.append_right_inj, shownValue, ← UInt16.toNat_inj]
  have hoperand (width : Nat) : shownNumber true i.operand.toNat (width + 2) =
      shownNumber false i.operand.toNat (width + 2) ↔
      i.operand.toNat = 0 ∨ 16 ^ (width + 1) ≤ i.operand.toNat :=
    shownNumber_left_iff _ _
  cases ho : i.operation with
  | moveImmediate dst => exact (String.append_right_inj _).trans (hoperand 0)
  | aluImmediate op => exact (String.append_right_inj _).trans (hoperand 0)
  | jump c => exact (String.append_right_inj _).trans (hoperand 2)
  | call c => exact (String.append_right_inj _).trans (hoperand 2)
  | undefined =>
    have hopcode := (shownNumber_left_iff i.opcode.toNat 0).mpr (.inr (hundefined ho))
    refine iff_of_true ?_ (.inl ?_)
    · rw [if_pos rfl]
      exact congrArg (" " ++ ·) hopcode
    · rw [hzero (by rw [ho]; rfl), UInt16.toNat_zero]
  | _ =>
    refine iff_of_true ?_ (.inl ?_)
    · simp only [Operation.operandsText]
    · rw [hzero (by rw [ho]; rfl), UInt16.toNat_zero]

end Instruction

/-! ### Formats -/

/-- **Printing an instruction and the format of the pen.** A pen that no width is set on keeps its
format. It writes an instruction as a fresh pen does, whatever its fill character, its base and its
case are, and the bytes in the same digits up to the case of the letters. Its alignment makes no
difference either if it is to the right, and otherwise if no number begins with the digit 0, or is 0
altogether; but numbers that do are filled up on the wrong side. -/
theorem Instruction.print_format_iff (first second third : UInt8) (pen : Pen)
    (h : pen.width = 0) :
    let i := decode first second third
    (i.print pen = { pen with text := (i.print pen).text } ∧
      i.printBytes pen = { pen with text := (i.printBytes pen).text }) ∧
    ((i.print pen).text = pen.text ++ i.text ↔ pen.alignLeft = false ∨
      i.operand = 0 ∨ 16 ^ (2 * i.operation.length - 3) ≤ i.operand.toNat) ∧
    ((i.printBytes pen).text = pen.text ++ i.bytesText.map (letterCase pen.upper) ↔
      pen.alignLeft = false ∨ ∀ byte ∈ i.shownBytes, byte = 0 ∨ 16 ≤ byte) := by
  intro i
  rw [i.print_eq h, i.printBytes_eq pen]
  refine ⟨⟨rfl, rfl⟩, ?_, ?_⟩
  · rw [String.append_right_inj, i.text_eq]
    cases hleft : pen.alignLeft with
    | false => simp
    | true => simpa using written_left_iff first second third
  · rw [i.map_bytesText, String.append_right_inj, String.ofList_inj]
    cases hleft : pen.alignLeft with
    | false => simp
    | true => simpa using hexBytes_left_iff pen.upper i.shownBytes

/-- A pen that fills items with stars on the right. -/
def leftPen : Pen := { fill := '*', alignLeft := true }

/-- To the left, the jump to 59h looks like the one to 5900h, and its bytes stay apart. -/
theorem Instruction.lowJump_misprinted :
    leftPen.width = 0 ∧ ((decode 0x44 0x59 0x00).print leftPen).text ≠ "JMP 0059h" ∧
      ((decode 0x44 0x59 0x00).printBytes leftPen).text = "44 59 00" := by
  obtain ⟨-, htext, hbytes⟩ := print_format_iff 0x44 0x59 0x00 leftPen rfl
  rw [map_bytesText] at hbytes
  have hlow : ¬(leftPen.alignLeft = false ∨ (decode 0x44 0x59 0x00).operand = 0 ∨
      16 ^ 3 ≤ (decode 0x44 0x59 0x00).operand.toNat) := by
    decide
  have hbyte : ∀ byte ∈ [0x44, 0x59, 0x00], byte = 0 ∨ (16 : UInt8) ≤ byte := by
    simp
  exact ⟨rfl, mt htext.mp hlow, hbytes.mpr (.inr hbyte)⟩

/-- The text of an instruction is not the same on all pens. -/
theorem Instruction.text_depends_on_alignment :
    ¬ ∀ (first second third : UInt8) (pen : Pen), pen.width = 0 →
      ((decode first second third).print pen).text =
        pen.text ++ (decode first second third).text := by
  intro hall
  have htext := hall 0x06 0x05 0x00 { alignLeft := true } rfl
  exact absurd htext (by decide)

end Mcs8
