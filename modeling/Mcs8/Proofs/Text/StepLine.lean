import Mcs8.Processor.Trace
import Mcs8.Proofs.Text.Meaning

/-!
# The line of a step

The line that a processor writes for a step has a heading, the instruction and the registers
(`Processor.traceLine_eq`). Every item of the heading has a width of its own, so that the items
stand in columns. The instruction is meant to have one too: the pen that prints it is told to fill
up ten characters. But a width belongs to the next item alone, which is the mnemonic, and printing
puts it back for the item that comes after the instruction (`Descriptor.print_eq`). So mnemonic and
blank are filled up, the operands stand between them, and the registers begin where the operands let
them.
-/

namespace Mcs8

/-- An item in a field that is filled up with blanks on the right. -/
def leftField (width : Nat) (item : String) : String :=
  item ++ .ofList (.replicate (width - item.length) ' ')

/-- A text of so many blanks. -/
def blanks (n : Nat) : String := .ofList (.replicate n ' ')

theorem Pen.put_left {pen : Pen} (hleft : pen.alignLeft = true) (hfill : pen.fill = ' ')
    (item : String) :
    pen.put item = { pen with text := pen.text ++ leftField pen.width item, width := 0 } := by
  rw [put, padding, if_pos hleft, hfill]
  rfl

theorem length_leftField {width : Nat} {item : String} (h : item.length ≤ width) :
    (leftField width item).length = width := by
  rw [leftField, String.length_append, String.length_ofList, List.length_replicate]
  omega

/-! ### Descriptors -/

/-- The text for a number of so many digits that is not known. -/
def placeholders (width : Nat) : String := .ofList (.replicate width 'h')

namespace Descriptor

variable (d : Descriptor)

/-- The first item that is printed of a descriptor, the only one that a width is good for. -/
def firstItem : String := if d.operation = .undefined then "DB " else d.operation.mnemonic

/-- What is printed of a descriptor behind its first item. -/
def furtherItems (alignLeft : Bool) : String :=
  if d.operation = .undefined then shownNumber alignLeft d.opcode.toNat 2
  else d.operation.operandsText placeholders

/-- Printing a descriptor fills up its first item, and leaves the pen its format, the width
included. -/
theorem print_eq (pen : Pen) : d.print pen =
    { pen with text := (pen.put d.firstItem).text ++ d.furtherItems pen.alignLeft } := by
  rw [print, printWith, firstItem, furtherItems]
  split
  next =>
    rw [printData, Pen.keepFormat, Pen.field_eq rfl rfl, Pen.put_eq rfl, shownNumber,
      ← String.append_assoc]
    rfl
  next hdefined =>
    have hplaceholder (after : Pen) (hfill : after.fill = 'h') (width : Nat) :
        (OperandText.placeholder.print width after).text = after.text ++ placeholders width := by
      simp [OperandText.print, Pen.put, Pen.padding, placeholders, hfill]
    have htext : (d.operation.printOperands .placeholder
        { pen.put d.operation.mnemonic with hex := true, upper := true, fill := 'h' }).text = _ :=
      Operation.text_printOperands rfl hdefined fun after _ _ hfill _ ↦ hplaceholder after hfill
    rw [Operation.printMnemonic, Pen.keepFormat, OperandText.fill, htext]

end Descriptor

/-! ### Registers -/

namespace Scratchpad

variable (pad : Scratchpad)

/-- A register as a line shows it. -/
def item (r : Register) : String :=
  r.name ++ ":" ++ .ofList (hexField false false 2 (pad.read r).toNat) ++ " "

/-- The registers as a line shows them. -/
def written : String := .join ([Register.A, .B, .C, .D, .E, .H, .L].map pad.item)

/-- A pen that writes numbers in base 16 with leading zeros keeps its format. -/
theorem print_eq (text : String) :
    pad.print { text, fill := '0', hex := true } =
      { text := text ++ pad.written, fill := '0', hex := true } := by
  have hitem (text : String) (r : Register) :
      ((((({ text, fill := '0', hex := true } : Pen).put r.name).put ":").field 2
        (pad.read r).toNat).put " ") =
        { text := text ++ pad.item r, fill := '0', hex := true } := by
    rw [Pen.put_eq rfl, Pen.put_eq rfl, Pen.field_eq rfl rfl, Pen.put_eq rfl, item]
    simp only [String.append_assoc]
  rw [print, written]
  generalize [Register.A, .B, .C, .D, .E, .H, .L] = rs
  induction rs generalizing text with
  | nil => simp
  | cons r rs ih =>
    rw [List.foldl_cons, hitem, ih, List.map_cons, String.join_cons, String.append_assoc]

end Scratchpad

/-! ### Lines -/

namespace Processor

variable (p after : Processor) (bus : UInt8) (ready interrupt : Bool)

/-- The line of a step up to the state. -/
def stepAddress : String := "I8008: @" ++ .ofList (hexField false false 4 p.pc.toNat) ++ " "

/-- The machine cycle as the line of a step shows it. -/
def stepCycle : String :=
  " " ++ after.cycleKind.name ++ "/" ++ toString after.cycleNumber.toInt ++ " "

/-- The pins as the line of a step shows them. -/
def stepPins : String :=
  .ofList (hexField false false 2 bus.toNat) ++ (if interrupt then " INT" else "    ") ++
    (if ready then "  " else " W") ++ " "

/-- The line of a step in front of the instruction. -/
def stepHeading : String :=
  p.stepAddress ++ leftField 7 p.state.name ++ after.stepCycle ++ stepPins bus ready interrupt

/-- The instruction as the line of a step shows it: its first item is filled up to ten characters,
and so is the blank that comes after it. -/
def stepInstruction : String :=
  leftField 10 after.decoded.firstItem ++ after.decoded.furtherItems true ++ blanks 10

/-- The line of a step behind the bracket that opens the registers. -/
def stepRegisters : String :=
  after.registers.written ++ after.flags.letters ++ " SP:" ++ decimal after.stack.pointer.val ++
    "]\n"

theorem traceLine_eq : p.traceLine after bus ready interrupt =
    p.stepHeading after bus ready interrupt ++ after.stepInstruction ++ "[" ++
      after.stepRegisters := by
  unfold traceLine
  extract_lets start pc state kind number byte pins headed printed gap registers flags
  have hpc : pc =
      { text := "I8008: @" ++ .ofList (hexField false false 4 p.pc.toNat) ++ " "
        fill := '0'
        hex := true } := by
    have hstart : start.put "I8008: @" = { start with text := "I8008: @" } := by
      rw [Pen.put_eq rfl, String.empty_append]
    show (((start.put "I8008: @").field 4 p.pc.toNat).put " ") = _
    rw [hstart, Pen.field_eq rfl rfl, Pen.put_eq rfl]
  clear_value start pc
  have hstate : state =
      { text := pc.text ++ leftField 7 p.state.name, alignLeft := true, hex := true } := by
    show Pen.put _ _ = _
    rw [Pen.put_left rfl rfl, hpc]
  clear_value state
  have hkind : kind = { text := state.text ++ " " ++ after.cycleKind.name, hex := true } := by
    show (Pen.put _ " ").put _ = _
    rw [hstate, Pen.put_eq rfl, Pen.put_eq rfl]
  clear_value kind
  have hnumber : number =
      { text := kind.text ++ "/" ++ toString after.cycleNumber.toInt ++ " ", hex := true } := by
    show ((kind.put "/").put _).put " " = _
    rw [hkind, Pen.put_eq rfl, Pen.put_eq rfl, Pen.put_eq rfl]
  clear_value number
  have hbyte : byte =
      { text := number.text ++ .ofList (hexField false false 2 bus.toNat)
        fill := '0'
        hex := true } := by
    show (number.filledWith '0').field 2 bus.toNat = _
    rw [hnumber, Pen.field_eq rfl rfl]
    rfl
  clear_value byte
  have hheaded : headed =
      { text := byte.text ++ (if interrupt then " INT" else "    ") ++
          (if ready then "  " else " W") ++ " "
        fill := '0'
        hex := true } := by
    show ((byte.put _).put _).put " " = _
    rw [hbyte, Pen.put_eq rfl, Pen.put_eq rfl, Pen.put_eq rfl]
  clear_value pins headed
  have hheading : headed.text = p.stepHeading after bus ready interrupt := by
    simp only [hheaded, hbyte, hnumber, hkind, hstate, hpc, stepHeading, stepAddress, stepCycle,
      stepPins, String.append_assoc]
  have hgap : gap =
      { text := headed.text ++ after.stepInstruction, hex := true } := by
    have hprinted : printed =
        { text := headed.text ++ leftField 10 after.decoded.firstItem ++
            after.decoded.furtherItems true
          width := 10
          alignLeft := true
          hex := true } := by
      show after.decoded.print _ = _
      rw [Descriptor.print_eq, Pen.put_left rfl rfl, hheaded]
    clear_value printed
    show Pen.put _ " " = _
    have hblanks : Pen.padding { text := "", width := 10 } " " ++ " " = blanks 10 := by decide
    rw [hprinted, stepInstruction, ← hblanks]
    simp [Pen.put, Pen.padding, String.append_assoc]
  clear_value printed gap
  have hregisters : registers =
      { text := gap.text ++ "[" ++ after.registers.written, fill := '0', hex := true } := by
    show after.registers.print ((gap.filledWith '0').put "[") = _
    rw [hgap, Pen.put_eq rfl]
    exact Scratchpad.print_eq _ _
  clear_value registers
  have hflags : flags =
      { registers with text := registers.text ++ after.flags.letters ++ " SP:" } := by
    show (registers.put _).put _ = _
    rw [hregisters, Pen.put_eq rfl, Pen.put_eq rfl]
  rw [hflags, hregisters, Pen.inDecimal, Pen.number_eq rfl rfl, Pen.put_eq rfl, hgap, hheading]
  simp only [stepRegisters, String.append_assoc]

end Processor

end Mcs8
