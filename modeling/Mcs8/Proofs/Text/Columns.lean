import Mathlib.Tactic.IntervalCases
import Mcs8.Proofs.Processor.WellFormed
import Mcs8.Proofs.Text.StepLine

/-!
# The columns of a line

The heading of the line of a step is 36 characters long, whatever it says: the numbers in it have
fields that they fit in, and the machine cycles of an instruction are numbered by one digit. So
state, kind and number of the machine cycle stand in columns of their own
(`StepLine.state_traceLine`, `StepLine.kind_traceLine`, `StepLine.number_traceLine`). No bracket
stands in front of the registers, and the one that opens them comes behind the 20 columns of
mnemonic and blanks and those of the operands (`StepLine.registersColumn_traceLine`).
-/

namespace Mcs8

/-- The text in so many columns of a line, from the column `start` on. -/
def columns (start width : Nat) (line : String) : String :=
  .ofList ((line.toList.drop start).take width)

/-- An item stands in the columns that the text in front of it leaves. -/
theorem columns_append {before item : String} {start width : Nat} (hstart : before.length = start)
    (hwidth : item.length = width) (rest : String) :
    columns start width (before ++ (item ++ rest)) = item := by
  rw [← String.length_toList] at hstart hwidth
  rw [columns, String.toList_append, String.toList_append, List.drop_left' hstart,
    List.take_left' hwidth, String.ofList_toList]

namespace StepLine

/-- What the line of a step shows as the state. -/
def state (line : String) : String := columns 13 7 line

/-- What the line of a step shows as the kind of the machine cycle. -/
def kind (line : String) : String := columns 21 3 line

/-- What the line of a step shows as the number of the machine cycle. -/
def number (line : String) : String := columns 25 1 line

/-- The column in which the registers begin in the line of a step. -/
def registersColumn (line : String) : Nat := line.toList.idxOf '['

end StepLine

/-! ### Lengths -/

theorem TState.length_name_le (s : TState) : s.name.length ≤ 7 := by
  cases s <;> decide

theorem CycleKind.length_name (k : CycleKind) : k.name.length = 3 := by
  cases k <;> rfl

theorem Register.length_name (r : Register) : r.name.length = 1 := by
  cases r <;> rfl

/-- Mnemonics have four letters at most. -/
theorem Operation.length_printedName_le (o : Operation) : o.printedName.length ≤ 4 := by
  have htable : (bareOperations.all fun o ↦ o.printedName.length ≤ 4) = true := by decide
  rw [List.all_eq_true] at htable
  have hname := htable _ o.bare_mem
  rw [printedName_bare] at hname
  exact of_decide_eq_true hname

theorem length_decimal_le (n : UInt8) : (decimal n.toNat).length ≤ 3 := by
  have hn : n.toNat < 10 ^ 3 := Nat.lt_trans n.toNat_lt (by decide)
  rw [decimal, String.length_ofList]
  exact (Nat.length_toDigits_le_iff (by decide) (by decide)).mpr hn

/-- The number of columns that the operands of an operation take, with placeholders for a number. -/
def Operation.operandsWidth : Operation → Nat
  | halt | rotate _ | ret _ => 0
  | increment _ | decrement _ | alu .. => 2
  | aluImmediate _ | undefined => 3
  | move .. => 4
  | moveImmediate _ | jump _ | call _ => 5
  | restart n | input n | output n => 1 + (decimal n.toNat).length

theorem Operation.operandsWidth_le (o : Operation) : o.operandsWidth ≤ 5 := by
  cases o with
  | restart n | input n | output n =>
    have hdecimal := length_decimal_le n
    rw [operandsWidth]
    omega
  | _ => simp [operandsWidth]

/-- The numbers of machine cycles have one digit. -/
theorem length_toString_of_lt_three {n : Int} (h₀ : 0 ≤ n) (h₃ : n < 3) :
    (toString n).length = 1 := by
  interval_cases n <;> rfl

theorem toString_inj_of_lt_three {n m : Int} (hn₀ : 0 ≤ n) (hn₃ : n < 3) (hm₀ : 0 ≤ m) (hm₃ : m < 3)
    (h : toString n = toString m) : n = m := by
  interval_cases n <;> interval_cases m <;> first | rfl | exact absurd h (by decide)

namespace Descriptor

variable (d : Descriptor)

theorem firstItem_eq : d.firstItem = "DB " ∨ d.firstItem = d.operation.printedName := by
  rw [firstItem]
  split
  next => exact .inl rfl
  next hdefined =>
    right
    cases ho : d.operation <;> first | exact absurd ho hdefined | rfl

theorem length_firstItem_le : d.firstItem.length ≤ 4 := by
  rcases d.firstItem_eq with h | h <;> rw [h]
  · decide
  · exact d.operation.length_printedName_le

/-- The operands of a descriptor take as many columns as its operation says. -/
theorem length_furtherItems (alignLeft : Bool) :
    (d.furtherItems alignLeft).length = d.operation.operandsWidth := by
  have hplaceholders (width : Nat) : (placeholders width).length = width := by
    rw [placeholders, String.length_ofList, List.length_replicate]
  have hblank : " ".length = 1 := rfl
  have hcomma : ",".length = 1 := rfl
  rw [furtherItems]
  split
  next hundefined =>
    have hfield := length_hexField_of_lt true alignLeft (by decide : 0 < 2) d.opcode.toNat_lt
    rw [shownNumber, String.length_append, String.length_ofList, hfield, hundefined]
    rfl
  next =>
    cases d.operation <;>
      simp [Operation.operandsText, Operation.operandsWidth, Register.length_name, hplaceholders,
        hblank, hcomma]

/-- The text of every descriptor fits in nine characters. -/
theorem length_text_le : d.text.length ≤ 9 := by
  have hfirst := d.length_firstItem_le
  have hfurther := d.length_furtherItems false
  have hwidth := d.operation.operandsWidth_le
  have htext : d.text = d.firstItem ++ d.furtherItems false := by
    rw [text, print_eq, Pen.put_eq rfl]
    exact congrArg (· ++ _) String.empty_append
  rw [htext, String.length_append]
  omega

end Descriptor

namespace Processor

variable (p : Processor) {after : Processor} (bus : UInt8) (ready interrupt : Bool)

theorem length_stepAddress : p.stepAddress.length = 13 := by
  have hfield : (String.ofList (hexField false false 4 p.pc.toNat)).length = 4 := by
    rw [String.length_ofList, length_hexField_of_lt _ _ (by decide) p.pc.toNat_lt]
  simp only [stepAddress, String.length_append, hfield]
  rfl

theorem length_stepCycle (h : after.Aligned) : after.stepCycle.length = 7 := by
  have hkind := after.cycleKind.length_name
  have hnumber := length_toString_of_lt_three h.number_nonneg h.number_lt_three
  simp only [stepCycle, String.length_append, hkind, hnumber]
  rfl

theorem length_stepPins : (stepPins bus ready interrupt).length = 9 := by
  have hfield : (String.ofList (hexField false false 2 bus.toNat)).length = 2 := by
    rw [String.length_ofList, length_hexField_of_lt _ _ (by decide) bus.toNat_lt]
  simp only [stepPins, String.length_append, hfield]
  cases ready <;> cases interrupt <;> rfl

theorem length_stepHeading (h : after.Aligned) :
    (p.stepHeading after bus ready interrupt).length = 36 := by
  simp only [stepHeading, String.length_append, length_stepAddress, length_stepPins,
    length_leftField p.state.length_name_le, length_stepCycle h]

theorem length_stepInstruction :
    p.stepInstruction.length = 20 + p.operation.operandsWidth := by
  have hfirst := p.decoded.length_firstItem_le
  have hfurther : (p.decoded.furtherItems true).length = p.operation.operandsWidth :=
    p.decoded.length_furtherItems true
  have hfield : (leftField 10 p.decoded.firstItem).length = 10 := length_leftField (by omega)
  have hblanks : (blanks 10).length = 10 := rfl
  rw [stepInstruction, String.length_append, String.length_append, hfield, hblanks, hfurther]
  omega

end Processor

/-! ### Brackets -/

theorem bracket_not_mem_hexField (upper alignLeft : Bool) (width n : Nat) :
    '[' ∉ hexField upper alignLeft width n := by
  have hnone : hexValue? '[' = none := by decide
  cases upper with
  | true => exact not_mem_hexField hnone
  | false =>
    intro hmem
    have hcapital := List.mem_map_of_mem (f := letterCase true) hmem
    rw [map_hexField] at hcapital
    exact not_mem_hexField hnone hcapital

theorem bracket_not_mem_toString {n : Int} (h₀ : 0 ≤ n) (h₃ : n < 3) :
    '[' ∉ (toString n).toList := by
  interval_cases n <;> decide

theorem bracket_not_mem_leftField {width : Nat} {item : String} (h : '[' ∉ item.toList) :
    '[' ∉ (leftField width item).toList := by
  simp [leftField, h]

theorem Descriptor.bracket_not_mem_firstItem (d : Descriptor) : '[' ∉ d.firstItem.toList := by
  rcases d.firstItem_eq with h | h <;> rw [h]
  · decide
  · intro hmem
    exact absurd (Operation.isUpper_of_mem_printedName hmem) (by decide)

theorem Descriptor.bracket_not_mem_furtherItems (d : Descriptor) (alignLeft : Bool) :
    '[' ∉ (d.furtherItems alignLeft).toList := by
  rw [furtherItems]
  split
  next => simp [shownNumber, bracket_not_mem_hexField]
  next =>
    refine d.operation.not_mem_operandsText (by decide) (by decide) (by decide) fun width ↦ ?_
    simp [placeholders]

namespace Processor

variable (p : Processor) {after : Processor} (bus : UInt8) (ready interrupt : Bool)

theorem bracket_not_mem_stepHeading (h : after.Aligned) :
    '[' ∉ (p.stepHeading after bus ready interrupt).toList := by
  have hstate : '[' ∉ p.state.name.toList := by cases p.state <;> decide
  have hkind : '[' ∉ after.cycleKind.name.toList := by cases after.cycleKind <;> decide
  have hnumber := bracket_not_mem_toString h.number_nonneg h.number_lt_three
  have hinterrupt : '[' ∉ (if interrupt then " INT" else "    ").toList := by
    cases interrupt <;> decide
  have hready : '[' ∉ (if ready then "  " else " W").toList := by
    cases ready <;> decide
  rw [stepHeading, stepAddress, stepCycle, stepPins]
  generalize toString after.cycleNumber.toInt = number at hnumber ⊢
  simp [hstate, hkind, hnumber, hinterrupt, hready, bracket_not_mem_hexField,
    bracket_not_mem_leftField]

theorem bracket_not_mem_stepInstruction : '[' ∉ p.stepInstruction.toList := by
  have hfirst : '[' ∉ (leftField 10 p.decoded.firstItem).toList :=
    bracket_not_mem_leftField p.decoded.bracket_not_mem_firstItem
  simp [stepInstruction, hfirst, blanks, Descriptor.bracket_not_mem_furtherItems]

end Processor

/-- The registers are shown with the accumulator first. -/
theorem Scratchpad.exists_written (pad : Scratchpad) : ∃ rest, pad.written = "A:" ++ rest := by
  have hitem : pad.item .A =
      "A:" ++ (.ofList (hexField false false 2 (pad.read .A).toNat) ++ " ") := by
    rw [item, ← String.append_assoc]
    rfl
  rw [written, List.map_cons, String.join_cons, hitem, String.append_assoc]
  exact ⟨_, rfl⟩

/-! ### The line of a step -/

namespace StepLine

variable (p : Processor) {after : Processor} (bus : UInt8) (ready interrupt : Bool)

theorem state_traceLine :
    state (p.traceLine after bus ready interrupt) = leftField 7 p.state.name := by
  have hwidth := length_leftField p.state.length_name_le
  rw [Processor.traceLine_eq, Processor.stepHeading]
  simp only [String.append_assoc]
  exact columns_append p.length_stepAddress hwidth _

theorem kind_traceLine :
    kind (p.traceLine after bus ready interrupt) = after.cycleKind.name := by
  have hbefore : (p.stepAddress ++ leftField 7 p.state.name ++ " ").length = 21 := by
    simp only [String.length_append, p.length_stepAddress, length_leftField p.state.length_name_le]
    rfl
  have hcolumns := columns_append hbefore after.cycleKind.length_name
  rw [Processor.traceLine_eq, Processor.stepHeading, Processor.stepCycle]
  simp only [String.append_assoc] at hcolumns ⊢
  exact hcolumns _

theorem number_traceLine (h : after.Aligned) :
    number (p.traceLine after bus ready interrupt) = toString after.cycleNumber.toInt := by
  have hbefore : (p.stepAddress ++ leftField 7 p.state.name ++ " " ++ after.cycleKind.name ++
      "/").length = 25 := by
    simp only [String.length_append, p.length_stepAddress, length_leftField p.state.length_name_le,
      after.cycleKind.length_name]
    rfl
  have hnumber := length_toString_of_lt_three h.number_nonneg h.number_lt_three
  have hcolumns := columns_append hbefore hnumber
  rw [Processor.traceLine_eq, Processor.stepHeading, Processor.stepCycle]
  simp only [String.append_assoc] at hcolumns ⊢
  exact hcolumns _

/-- The line is cut in two by the first bracket in it, behind which the registers begin. -/
theorem exists_registers (h : after.Aligned) :
    ∃ before rest, p.traceLine after bus ready interrupt = before ++ ("[A:" ++ rest) ∧
      '[' ∉ before.toList ∧ before.length = 56 + after.operation.operandsWidth := by
  obtain ⟨rest, hregisters⟩ := after.registers.exists_written
  refine ⟨p.stepHeading after bus ready interrupt ++ after.stepInstruction,
    rest ++ after.flags.letters ++ " SP:" ++ decimal after.stack.pointer.val ++ "]\n", ?_, ?_, ?_⟩
  · rw [Processor.traceLine_eq, Processor.stepRegisters, hregisters]
    simp only [String.append_assoc]
    rfl
  · rw [String.toList_append, List.mem_append, not_or]
    exact ⟨p.bracket_not_mem_stepHeading bus ready interrupt h,
      after.bracket_not_mem_stepInstruction⟩
  · rw [String.length_append, p.length_stepHeading _ _ _ h, after.length_stepInstruction]
    omega

theorem registersColumn_traceLine (h : after.Aligned) :
    registersColumn (p.traceLine after bus ready interrupt) =
      56 + after.operation.operandsWidth := by
  obtain ⟨before, rest, hline, hbracket, hlength⟩ := exists_registers p bus ready interrupt h
  have hopens : ("[A:" ++ rest).toList.idxOf '[' = 0 := by
    rw [String.toList_append]
    rfl
  rw [registersColumn, hline, String.toList_append, List.idxOf_append_of_notMem hbracket, hopens,
    String.length_toList, hlength, Nat.add_zero]

/-- The registers begin with the accumulator. -/
theorem columns_registersColumn (h : after.Aligned) :
    columns (registersColumn (p.traceLine after bus ready interrupt)) 3
      (p.traceLine after bus ready interrupt) = "[A:" := by
  rw [registersColumn_traceLine p bus ready interrupt h]
  obtain ⟨before, rest, hline, -, hlength⟩ := exists_registers p bus ready interrupt h
  have hopens : "[A:".length = 3 := rfl
  rw [hline]
  exact columns_append hlength hopens rest

end StepLine

end Mcs8
