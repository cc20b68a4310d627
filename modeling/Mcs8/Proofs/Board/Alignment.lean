import Mcs8.Proofs.Board.Watched

/-!
# The alignment of the lines

The lines that a watched processor writes one below the other have their headings in the same
columns, but not their registers. Every instruction would fit in the ten columns that it is given,
and still the registers begin where its operands let them, at column 56 for an instruction without
operands and at column 61 for one that shows a register and a byte, or an address
(`Board.registers_aligned_iff`).
-/

namespace Mcs8

namespace Board

theorem Watched.registersColumn_stepLine {b : Board} (h : b.Watched) :
    StepLine.registersColumn b.stepLine = 56 + b.tick.cpu.operation.operandsWidth :=
  StepLine.registersColumn_traceLine _ _ _ _ h.tick.coherent.toAligned

theorem Watched.columns_stepLine {b : Board} (h : b.Watched) :
    columns (StepLine.registersColumn b.stepLine) 3 b.stepLine = "[A:" :=
  StepLine.columns_registersColumn _ _ _ _ h.tick.coherent.toAligned

/-- **Where the registers begin.** Each line that a processor writes at level 3 or higher has its
registers behind 56 columns and those of the operands that it shows, for each instruction as many
as its operation says. So the registers of two lines are aligned exactly if their operands take the
same number of columns. All this though no text of an instruction is longer than the ten columns
that it is meant to stand in. -/
theorem registers_aligned_iff {b c : Board} (hb : b.Watched) (hc : c.Watched)
    (hblevel : 3 ≤ b.messageLevel) (hclevel : 3 ≤ c.messageLevel) :
    (∀ opcode, (decode opcode).text.length ≤ 10) ∧
    (∀ d ∈ [b, c], (∃ more, d.tickMessages = d.stepLine ++ more) ∧
      columns (StepLine.registersColumn d.stepLine) 3 d.stepLine = "[A:" ∧
      StepLine.registersColumn d.stepLine = 56 + d.tick.cpu.operation.operandsWidth) ∧
    (StepLine.registersColumn b.stepLine = StepLine.registersColumn c.stepLine ↔
      b.tick.cpu.operation.operandsWidth = c.tick.cpu.operation.operandsWidth) := by
  have hline {d : Board} (hd : d.Watched) (hlevel : 3 ≤ d.messageLevel) :
      ∃ more, d.tickMessages = d.stepLine ++ more := by
    refine tickMessages_eq ?_
    rw [hd.announces_eq, decide_eq_true hlevel]
  refine ⟨fun opcode ↦ ?_, ?_, ?_⟩
  · exact Nat.le_succ_of_le (decode opcode).length_text_le
  · rw [List.forall_mem_cons, List.forall_mem_singleton]
    exact ⟨⟨hline hb hblevel, hb.columns_stepLine, hb.registersColumn_stepLine⟩,
      ⟨hline hc hclevel, hc.columns_stepLine, hc.registersColumn_stepLine⟩⟩
  · rw [hb.registersColumn_stepLine, hc.registersColumn_stepLine, Nat.add_right_inj]

/-- In one run, the first line shows the halt that a fresh processor holds, and the line that takes
a move shows two registers. -/
theorem requestMove_registers :
    let c := observed.performAll requestMove
    3 ≤ observed.messageLevel ∧ 3 ≤ c.messageLevel ∧
    StepLine.registersColumn observed.stepLine = 56 ∧ StepLine.registersColumn c.stepLine = 60 ∧
    StepLine.registersColumn observed.stepLine ≠ StepLine.registersColumn c.stepLine := by
  intro c
  have hblevel : 3 ≤ observed.messageLevel := by decide +kernel
  have hclevel : 3 ≤ c.messageLevel := by decide +kernel
  have hbwidth : observed.tick.cpu.operation.operandsWidth = 0 := by decide +kernel
  have hcwidth : c.tick.cpu.operation.operandsWidth = 4 := by decide +kernel
  obtain ⟨-, hcolumns, haligned⟩ :=
    registers_aligned_iff (c := c) watched_observed watched_requestMove hblevel hclevel
  rw [List.forall_mem_cons, List.forall_mem_singleton, hbwidth, hcwidth] at hcolumns
  rw [hbwidth, hcwidth] at haligned
  obtain ⟨⟨-, -, hb⟩, -, -, hc⟩ := hcolumns
  exact ⟨hblevel, hclevel, hb, hc, fun hsame ↦ absurd (haligned.mp hsame) (by decide)⟩

/-- So the registers do not always begin in the same column. -/
theorem registers_not_aligned :
    ¬∀ (b : Board) (actions : List Action), b.Watched → 3 ≤ b.messageLevel →
      (∀ a ∈ actions, a.setsIr = false) →
      StepLine.registersColumn b.stepLine =
        StepLine.registersColumn (b.performAll actions).stepLine := by
  intro haligned
  have hsame := haligned observed requestMove watched_observed (by decide +kernel) (by decide)
  rw [watched_observed.registersColumn_stepLine, watched_requestMove.registersColumn_stepLine]
    at hsame
  revert hsame
  decide +kernel

end Board

end Mcs8
