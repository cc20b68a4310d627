import Mathlib.Data.List.Nodup
import Mcs8.Proofs.Processor.Encoding
import Mcs8.Proofs.Text.Instruction

/-!
# Printed instructions tell their meaning

A printed instruction is a name in capital letters, and behind a blank its registers and its number.
The name ends with its last capital (`Operation.takeWhile_printed`), and names are distinct up to the
registers and numbers of an operation (`Operation.bare_eq_of_printedName`); these stand in the
operands, and letters and digits can be read back. So the text determines operation and operand
(`Instruction.eq_of_text`). Encodings of one operation make no difference to a processor
(`Processor.SameButEncoding`), which makes the text as good as the bytes
(`Instruction.text_tells_meaning`).
-/

namespace Mcs8

namespace Register

theorem letter_injective {r s : Register} (h : r.letter = s.letter) : r = s := by
  cases r <;> cases s <;> first | rfl | contradiction

/-- A register name is one letter, so it is known with any text behind it. -/
theorem name_append_inj {r s : Register} {t u : String} (h : r.name ++ t = s.name ++ u) :
    r = s ∧ t = u := by
  have hchars := congrArg String.toList h
  simp only [name, String.toList_append, String.toList_singleton, List.singleton_append,
    List.cons.injEq, String.toList_inj] at hchars
  exact ⟨letter_injective hchars.1, hchars.2⟩

theorem name_injective {r s : Register} (h : r.name = s.name) : r = s :=
  (name_append_inj (congrArg (· ++ "") h)).1

end Register

namespace Operation

/-! ### Names -/

/-- The operation with the first register or number in the place of each of its own. -/
def bare : Operation → Operation
  | move _ _ => move .A .A
  | moveImmediate _ => moveImmediate .A
  | increment _ => increment .A
  | decrement _ => decrement .A
  | alu op _ => alu op .A
  | restart _ => restart 0
  | input _ => input 0
  | output _ => output 0
  | o => o

/-- All conditions. -/
def conditions : List Condition :=
  .always :: [Flag.carry, .zero, .sign, .parity].flatMap fun flag ↦
    [.when flag false, .when flag true]

/-- All operations up to their registers and numbers. -/
def bareOperations : List Operation :=
  [halt, move .A .A, moveImmediate .A, increment .A, decrement .A, restart 0, input 0, output 0,
    undefined] ++
  BinaryOp.all.map (alu · .A) ++ BinaryOp.all.map aluImmediate ++ Rotation.all.map rotate ++
  conditions.map jump ++ conditions.map call ++ conditions.map ret

theorem bare_mem (o : Operation) : o.bare ∈ bareOperations := by
  cases o with
  | alu op | aluImmediate op => cases op <;> exact of_decide_eq_true rfl
  | rotate op => cases op <;> exact of_decide_eq_true rfl
  | jump c | call c | ret c =>
    cases c with
    | always => exact of_decide_eq_true rfl
    | when flag sense => cases flag <;> cases sense <;> exact of_decide_eq_true rfl
  | _ => exact of_decide_eq_true rfl

theorem printedName_bare (o : Operation) : o.bare.printedName = o.printedName := by
  cases o <;> rfl

theorem eq_undefined_of_bare {o : Operation} (h : o.bare = undefined) : o = undefined := by
  cases o <;> first | rfl | contradiction

/-- No two operations share their name, unless they differ in registers or numbers only. -/
theorem bare_eq_of_printedName {o o' : Operation} (h : o.printedName = o'.printedName) :
    o.bare = o'.bare := by
  have hnames : (bareOperations.map printedName).Nodup := by decide
  refine List.inj_on_of_nodup_map hnames o.bare_mem o'.bare_mem ?_
  rw [printedName_bare, printedName_bare, h]

/-- A name consists of capital letters. -/
theorem isUpper_of_mem_printedName {o : Operation} {c : Char} (h : c ∈ o.printedName.toList) :
    c.isUpper = true := by
  have htable : (bareOperations.all fun o ↦ o.printedName.toList.all Char.isUpper) = true := by
    decide
  rw [List.all_eq_true] at htable
  have hname := htable _ o.bare_mem
  rw [printedName_bare, List.all_eq_true] at hname
  exact hname c h

/-- A character that is neither a blank, a comma, a letter nor a digit does not stand in operands. -/
theorem not_mem_operandsText (o : Operation) {number : Nat → String} {c : Char} (hblank : c ≠ ' ')
    (hcomma : c ≠ ',') (hplain : c.isAlphanum = false)
    (h : ∀ width, c ∉ (number width).toList) : c ∉ (o.operandsText number).toList := by
  have hletter (r : Register) : c ≠ r.letter := by
    rintro rfl
    cases r <;> contradiction
  have hdecimal (n : Nat) : c ∉ Nat.toDigits 10 n := by
    intro hmem
    have hdigit := Nat.isDigit_of_mem_toDigits (by decide) (by decide) hmem
    rw [Char.isAlphanum, hdigit, Bool.or_true] at hplain
    contradiction
  cases o <;>
    simp [operandsText, Register.name, decimal, hblank, hcomma, hletter, hdecimal, h]

/-! ### Operands -/

variable {o o' : Operation} {number number' : Nat → String}

theorem operandsText_eq (o : Operation) (number : Nat → String) :
    o.operandsText number = "" ∨ ∃ s, o.operandsText number = " " ++ s := by
  cases o with
  | halt | rotate | ret => exact .inl rfl
  | move dst src =>
    refine .inr ⟨dst.name ++ ("," ++ src.name), ?_⟩
    rw [operandsText, String.append_assoc, String.append_assoc]
  | moveImmediate dst =>
    refine .inr ⟨dst.name ++ ("," ++ number 2), ?_⟩
    rw [operandsText, String.append_assoc, String.append_assoc]
  | _ => exact .inr ⟨_, rfl⟩

/-- The name of a printed operation ends before its operands begin. -/
theorem takeWhile_printed (o : Operation) (number : Nat → String) :
    (o.printedName ++ o.operandsText number).toList.takeWhile Char.isUpper =
      o.printedName.toList := by
  rw [String.toList_append, List.takeWhile_append_of_pos fun _ ↦ isUpper_of_mem_printedName]
  obtain h | ⟨s, h⟩ := o.operandsText_eq number
  · rw [h]
    exact List.append_nil _
  · rw [h, String.toList_append]
    exact List.append_nil _

theorem printed_inj (h : o.printedName ++ o.operandsText number =
    o'.printedName ++ o'.operandsText number') :
    o.printedName = o'.printedName ∧ o.operandsText number = o'.operandsText number' := by
  have hname : o.printedName = o'.printedName := by
    rw [← String.toList_inj, ← takeWhile_printed o number, h, takeWhile_printed]
  rw [hname, String.append_right_inj] at h
  exact ⟨hname, h⟩

/-- The operation with other registers and another number. -/
def withOperands (o : Operation) (dst src : Register) (n : UInt8) : Operation :=
  match o with
  | move _ _ => move dst src
  | moveImmediate _ => moveImmediate dst
  | increment _ => increment dst
  | decrement _ => decrement dst
  | alu op _ => alu op src
  | restart _ => restart n
  | input _ => input n
  | output _ => output n
  | o => o

theorem withOperands_bare (o : Operation) :
    o.bare.withOperands o.dst o.src (o.vector + o.port) = o := by
  cases o with
  | restart n | input n | output n => simp [bare, withOperands, vector, port]
  | _ => rfl

/-- The operands tell the registers and the number. -/
theorem withOperands_inj {dst src dst' src' : Register} {n n' : UInt8}
    (h : (o.withOperands dst src n).operandsText number =
      (o.withOperands dst' src' n').operandsText number') :
    o.withOperands dst src n = o.withOperands dst' src' n' := by
  have hname {r r' : Register} (h : " " ++ r.name = " " ++ r'.name) : r = r' :=
    Register.name_injective ((String.append_right_inj _).mp h)
  have hn {n n' : UInt8} (h : " " ++ decimal n.toNat = " " ++ decimal n'.toNat) : n = n' :=
    UInt8.toNat_inj.mp (decimal_injective ((String.append_right_inj _).mp h))
  cases o with
  | move _ _ =>
    simp only [withOperands, operandsText, String.append_assoc, String.append_right_inj] at h ⊢
    obtain ⟨hdst, h⟩ := Register.name_append_inj h
    rw [hdst, Register.name_injective ((String.append_right_inj _).mp h)]
  | moveImmediate _ =>
    simp only [withOperands, operandsText, String.append_assoc, String.append_right_inj] at h ⊢
    rw [(Register.name_append_inj h).1]
  | increment _ | decrement _ | alu _ _ => exact congrArg _ (hname h)
  | restart _ | input _ | output _ => exact congrArg _ (hn h)
  | _ => rfl

/-- A printed operation tells what it is, and the number that it takes. -/
theorem eq_of_printed (h : o.printedName ++ o.operandsText number =
    o'.printedName ++ o'.operandsText number') : o = o' := by
  obtain ⟨hname, hoperands⟩ := printed_inj h
  have hbare := bare_eq_of_printedName hname
  rw [← o.withOperands_bare, ← o'.withOperands_bare, ← hbare] at hoperands ⊢
  exact withOperands_inj hoperands

end Operation

/-- The number that an operation takes is known by its text. -/
theorem shownNumber_injective {n m width : Nat}
    (h : shownNumber false n width = shownNumber false m width) : n = m :=
  hexField_injective (String.ofList_inj.mp ((String.append_left_inj _).mp h))

theorem Operation.number_eq_of_operandsText {o : Operation} {n m : Nat} (hlength : o.length ≠ 1)
    (h : o.operandsText (shownNumber false n) = o.operandsText (shownNumber false m)) : n = m := by
  cases o with
  | moveImmediate | aluImmediate | jump | call =>
    exact shownNumber_injective ((String.append_right_inj _).mp h)
  | _ => exact absurd rfl hlength

namespace Instruction

variable {x₀ x₁ x₂ y₀ y₁ y₂ : UInt8}

theorem eq_of_text (h : (decode x₀ x₁ x₂).text = (decode y₀ y₁ y₂).text) :
    (decode x₀ x₁ x₂).operation = (decode y₀ y₁ y₂).operation ∧
      (decode x₀ x₁ x₂).operand = (decode y₀ y₁ y₂).operand := by
  rw [text_eq, text_eq] at h
  have hoperation := Operation.eq_of_printed h
  refine ⟨hoperation, ?_⟩
  by_cases hlength : (decode x₀ x₁ x₂).operation.length = 1
  · rw [operand_decode_eq_zero hlength, operand_decode_eq_zero (hoperation ▸ hlength)]
  · have hdefined : (decode x₀ x₁ x₂).operation ≠ .undefined := by
      intro hundefined
      rw [hundefined] at hlength
      exact hlength rfl
    have hoperands := (Operation.printed_inj h).2
    rw [← hoperation, shownValue, shownValue, if_neg hdefined, if_neg (hoperation ▸ hdefined)]
      at hoperands
    exact UInt16.toNat_inj.mp (Operation.number_eq_of_operandsText hlength hoperands)

theorem text_eq_DB_iff (x₀ x₁ x₂ : UInt8) :
    (∃ s, (decode x₀ x₁ x₂).text = "DB " ++ s) ↔ (decode x₀ x₁ x₂).operation = .undefined := by
  rw [text_eq, written]
  constructor
  · rintro ⟨s, h⟩
    have hname : (decode x₀ x₁ x₂).operation.printedName = Operation.undefined.printedName := by
      rw [← String.toList_inj, ← Operation.takeWhile_printed, h, String.toList_append]
      rfl
    exact Operation.eq_undefined_of_bare (Operation.bare_eq_of_printedName hname)
  · intro h
    rw [h]
    exact ⟨_, rfl⟩

/-- **The text of an instruction tells its meaning.** Instructions that are printed alike are the
same operation with the same operand, and agree in whatever follows from these. They may differ in
bits of the opcode that it does not look at, and then a processor does the same with either of them
in its instruction register, or fetched into it, apart from that register. The undefined opcodes are
those that are printed as data. -/
theorem text_tells_meaning (h : (decode x₀ x₁ x₂).text = (decode y₀ y₁ y₂).text) :
    (decode x₀ x₁ x₂).operation = (decode y₀ y₁ y₂).operation ∧
    (decode x₀ x₁ x₂).operand = (decode y₀ y₁ y₂).operand ∧
    (∀ (p : Processor) (pins : List Pins),
      let a := (p.setIr x₀).run pins
      let b := (p.setIr y₀).run pins
      a.SameButEncoding b ∧
        ((a.cycleKind = .pcc → a.operation.access = .io) → a.offer = b.offer)) ∧
    (∀ p : Processor, p.state = .t3 → p.fetchesOpcode → ∀ (x next : Pins) (pins : List Pins),
      (p.run ({ x with bus := x₀ } :: next :: pins)).SameButEncoding
        (p.run ({ x with bus := y₀ } :: next :: pins))) ∧
    ((∃ s, (decode x₀ x₁ x₂).text = "DB " ++ s) ↔ (decode x₀ x₁ x₂).operation = .undefined) := by
  obtain ⟨hoperation, hoperand⟩ := eq_of_text h
  refine ⟨hoperation, hoperand, fun p pins ↦ ?_, fun p hs hfetch x next pins ↦ ?_,
    text_eq_DB_iff x₀ x₁ x₂⟩
  · have hsame := (p.sameButEncoding_setIr hoperation).run pins
    exact ⟨hsame, hsame.offer_eq⟩
  · exact p.sameButEncoding_run_fetch hs hfetch hoperation x next pins

/-- Two encodings of the jump to 1234h, which differ in three bits of the opcode and in the two bits
of the address that are not looked at. -/
theorem jumps_mean_same :
    (decode 0x44 0x34 0x12).text = (decode 0x7c 0x34 0xd2).text ∧
    (decode 0x44 0x34 0x12).operand = (decode 0x7c 0x34 0xd2).operand ∧
    ∀ (p : Processor) (pins : List Pins),
      ((p.setIr 0x44).run pins).SameButEncoding ((p.setIr 0x7c).run pins) := by
  have htext : (decode 0x44 0x34 0x12).text = (decode 0x7c 0x34 0xd2).text := rfl
  obtain ⟨-, hoperand, hrun, -⟩ := text_tells_meaning htext
  exact ⟨htext, hoperand, fun p pins ↦ (hrun p pins).1⟩

end Instruction

end Mcs8
