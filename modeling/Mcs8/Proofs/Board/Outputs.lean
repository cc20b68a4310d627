import Mcs8.Proofs.Board.Addressing
import Mcs8.Proofs.Board.Delivery

/-!
# The record of outputs

The record of writes is the history of the output instructions. A tick adds to it exactly if it is
the `T3` of an output cycle, and what it adds is the accumulator, with the port of the instruction
and the number of the tick (`log_tick`), although the board has these from its latch, which took
them from the bus in earlier ticks. The ports themselves never see more than writes, so they hold
what was last recorded for them (`PortBank.Faithful`).

A board that takes over a snapshot takes over the past of the board that was saved. `Past` are the
pasts that come about in this way, and `Past.ticked` are the ticks since the latest reset in them.
-/

namespace Mcs8

/-- The action sets the byte at an input port. -/
def Action.setsInput : Action → Bool
  | setInput .. => true
  | _ => false

/-! ### Ports and their record -/

/-- The byte that was last written to a port, as a record of writes has it; 0 if none was. -/
def lastWritten (log : List OutputRecord) (port : Int) : UInt8 :=
  ((log.filter (·.port.toInt = port)).getLast?.map (·.value)).getD 0

@[simp] theorem lastWritten_concat (log : List OutputRecord) (r : OutputRecord) (port : Int) :
    lastWritten (log ++ [r]) port =
      if r.port.toInt = port then r.value else lastWritten log port := by
  unfold lastWritten
  by_cases h : r.port.toInt = port <;> simp [List.filter_append, h]

namespace PortBank

variable {s : PortBank} {port : Int} {value : UInt8} {tick : UInt64}

theorem toInt_ofInt_of_isOutput (h : isOutput port = true) : (Int32.ofInt port).toInt = port := by
  rw [isOutput, Bool.and_eq_true, decide_eq_true_eq, decide_eq_true_eq] at h
  exact Int32.toInt_ofInt_of_le (by omega) (by omega)

theorem log_write (h : isOutput port = true) : (s.write port value tick).log.toList =
    s.log.toList ++ [{ port := .ofInt port, value, tick }] := by
  rw [write, if_pos h, Array.toList_push]

theorem inputs_write : (s.write port value tick).inputs = s.inputs := by
  unfold write
  split <;> rfl

theorem log_setInput : (s.setInput port value).log = s.log := by
  unfold setInput
  split <;> rfl

theorem outputs_setInput : (s.setInput port value).outputs = s.outputs := by
  unfold setInput
  split <;> rfl

/-- A write changes the port that it is to, if that is an output. -/
theorem output_write {other : Int} (hother : isOutput other = true) :
    (s.write port value tick).output other =
      if isOutput port = true ∧ port = other then value else s.output other := by
  unfold write
  split
  next h =>
    have hindex : port.toNat - 8 = other.toNat - 8 ↔ port = other := by
      simp only [isOutput, Bool.and_eq_true, decide_eq_true_eq] at h hother
      omega
    have hlt : port.toNat - 8 < 24 := by
      simp only [isOutput, Bool.and_eq_true, decide_eq_true_eq] at h
      omega
    rw [output, output, if_pos hother, if_pos hother, Vector.getElem?_setIfInBounds, if_pos hlt]
    simp only [hindex, h, true_and]
    split <;> rfl
  next h => rw [if_neg fun hboth ↦ h hboth.1]

/-- The output ports hold what was last recorded for them, and nothing else is recorded. -/
structure Faithful (s : PortBank) : Prop where
  isOutput_port : ∀ r ∈ s.log.toList, isOutput r.port.toInt = true
  output_eq : ∀ port, isOutput port = true → s.output port = lastWritten s.log.toList port

namespace Faithful

theorem congr {t : PortBank} (h : s.Faithful) (hlog : t.log = s.log)
    (houtputs : t.outputs = s.outputs) : t.Faithful := by
  constructor
  · rw [hlog]
    exact h.isOutput_port
  · intro port hport
    rw [hlog, output, houtputs]
    exact h.output_eq port hport

theorem empty : Faithful {} where
  isOutput_port := nofun
  output_eq port h := by
    have hzero : (Vector.replicate 24 (0 : UInt8))[port.toNat - 8]?.getD 0 = 0 := by
      rw [Vector.getElem?_replicate]
      split <;> rfl
    rw [output, if_pos h, hzero]
    rfl

theorem write (h : s.Faithful) : (s.write port value tick).Faithful := by
  by_cases hport : isOutput port = true
  · have htoInt := toInt_ofInt_of_isOutput hport
    constructor
    · intro r hr
      rw [log_write hport] at hr
      rcases List.mem_append.mp hr with hr | hr
      · exact h.isOutput_port r hr
      · rw [List.mem_singleton.mp hr, htoInt, hport]
    · intro other hother
      rw [output_write hother, log_write hport, lastWritten_concat, htoInt, h.output_eq other hother]
      simp only [hport, true_and]
  · rw [PortBank.write, if_neg hport]
    exact h

end Faithful

end PortBank

namespace Board

variable {b c : Board} {a : Action} {ticks : List Board}

/-! ### What a tick records -/

/-- The record that a tick makes: in the `T3` of the output cycle of an output instruction, the
accumulator is sent to the port of the instruction. -/
def outputMade (b : Board) : Option OutputRecord :=
  match b.cpu.state, b.cpu.cycleKind, b.cpu.operation with
  | .t3, .pcc, .output port =>
    some { port := .ofInt port.toNat, value := b.cpu.registers.read .A, tick := b.ticks }
  | _, _, _ => none

theorem tick_of_outputMade {r : OutputRecord} (h : r ∈ b.outputMade) : r.tick = b.ticks := by
  unfold outputMade at h
  split at h
  · obtain rfl := Option.some.inj h
    rfl
  · contradiction

/-- The ports see no more of a tick than a write. -/
theorem ports_tick_cases (b : Board) : b.tick.ports.toPortBank = b.ports.toPortBank ∨
    ∃ port value tick, b.tick.ports.toPortBank = b.ports.write port value tick := by
  rw [ports_tick]
  split
  · exact .inr ⟨_, _, _, rfl⟩
  · exact .inl rfl

theorem outputMade_of_output {port : UInt8} (hs : b.cpu.state = .t3) (hk : b.cpu.cycleKind = .pcc)
    (ho : b.cpu.operation = .output port) : b.outputMade =
      some { port := .ofInt port.toNat, value := b.cpu.registers.read .A, tick := b.ticks } := by
  rw [outputMade, hs, hk, ho]

theorem outputMade_eq_none (h : ∀ port, b.cpu.state = .t3 → b.cpu.cycleKind = .pcc →
    b.cpu.operation ≠ .output port) : b.outputMade = none := by
  unfold outputMade
  split
  next port hs hk ho => exact absurd ho (h port hs hk)
  next => rfl

theorem isOutput_of_output {port : UInt8} (h : b.Consistent) (ho : b.cpu.operation = .output port) :
    PortBank.isOutput port.toNat = true := by
  obtain ⟨hport, hle⟩ := Operation.port_of_output (h.wellFormed.operation_eq.symm.trans ho)
  have hlt : port.toNat < 32 := by
    rw [hport, Opcode.port, UInt8.toNat_mod]
    exact Nat.mod_lt _ (by decide)
  have hle' : 8 ≤ port.toNat := UInt8.le_iff_toNat_le.mp hle
  rw [PortBank.isOutput, Bool.and_eq_true, decide_eq_true_eq, decide_eq_true_eq]
  omega

/-- A tick records what the output instruction sends, and nothing else. -/
theorem log_tick (h : b.Consistent) :
    b.tick.ports.log.toList = b.ports.log.toList ++ b.outputMade.toList := by
  by_cases hs : b.cpu.state = .t3
  · -- what the latch has the board write is what the decoded instruction names
    rw [ports_tick_of_t3 h hs, namedPorts]
    split
    next port hk ho =>
      rw [outputMade_of_output hs hk ho]
      exact PortBank.log_write (isOutput_of_output h ho)
    next hother =>
      rw [outputMade_eq_none fun port _ hk ↦ hother port hk]
      exact (List.append_nil _).symm
  · rw [ports_tick, if_neg fun hwrites ↦ hs hwrites.1,
      outputMade_eq_none fun _ hstate ↦ absurd hstate hs]
    exact (List.append_nil _).symm

/-! ### What the ticks since a reset leave -/

/-- The record of writes, the ports and the count of ticks are what the ticks that began at the
given boards make of a board that was reset. -/
structure Recorded (b : Board) (ticks : List Board) : Prop where
  log_eq : b.ports.log.toList = ticks.filterMap outputMade
  faithful : b.ports.Faithful
  ticks_eq : b.ticks = .ofNat ticks.length
  /-- The ticks are counted from 0 on. -/
  counted : ticks.map (·.ticks) = (List.range ticks.length).map .ofNat

namespace Recorded

theorem congr (h : b.Recorded ticks) (hlog : c.ports.log = b.ports.log)
    (houtputs : c.ports.outputs = b.ports.outputs) (hticks : c.ticks = b.ticks) :
    c.Recorded ticks where
  log_eq := hlog ▸ h.log_eq
  faithful := h.faithful.congr hlog houtputs
  ticks_eq := hticks.trans h.ticks_eq
  counted := h.counted

theorem reset (b : Board) : b.reset.Recorded [] where
  log_eq := rfl
  faithful := .empty
  ticks_eq := rfl
  counted := rfl

theorem tick (h : b.Recorded ticks) (hb : b.Consistent) : b.tick.Recorded (ticks ++ [b]) where
  log_eq := by
    have hlast : [b].filterMap outputMade = b.outputMade.toList := by
      cases hmade : b.outputMade <;> simp [hmade]
    rw [log_tick hb, h.log_eq, List.filterMap_append, hlast]
  faithful := by
    rcases b.ports_tick_cases with heq | ⟨port, value, tick, heq⟩
    · exact heq ▸ h.faithful
    · exact heq ▸ h.faithful.write
  ticks_eq := by
    rw [ticks_tick, h.ticks_eq, List.length_append, List.length_singleton, UInt64.ofNat_add]
    rfl
  counted := by
    rw [List.map_append, h.counted, List.length_append, List.length_singleton, List.range_succ,
      List.map_append, List.map_singleton, List.map_singleton, h.ticks_eq]

theorem iterate_tick (h : b.Recorded ticks) (hb : b.Consistent) (n : Nat) :
    (Board.tick^[n] b).Recorded (ticks ++ List.iterate Board.tick b n) := by
  induction n generalizing b ticks with
  | zero => simpa using h
  | succ n ih =>
    rw [List.iterate, Function.iterate_succ_apply, List.append_cons]
    exact ih (h.tick hb) hb.tick

/-- An action adds its ticks to those since the latest reset, unless it is a reset itself. -/
theorem perform (h : b.Recorded ticks) (hb : b.Consistent) (ha : a.setsIr = false) :
    (b.perform a).Recorded (if a.resets then [] else ticks ++ b.ticked a) := by
  have hedit {c : Board} (hlog : c.ports.log = b.ports.log)
      (houtputs : c.ports.outputs = b.ports.outputs) (hticks : c.ticks = b.ticks) :
      c.Recorded (ticks ++ []) := (List.append_nil ticks).symm ▸ h.congr hlog houtputs hticks
  cases a with
  | tick => exact h.tick hb
  | run budget =>
    have hend := h.iterate_tick hb (b.ticksOf budget)
    show (b.run budget).board.Recorded (ticks ++ List.iterate Board.tick b (b.ticksOf budget))
    rw [run_frame]
    exact hend.congr rfl rfl rfl
  | reset => exact .reset b
  | load bytes origin =>
    rw [perform_load_frame]
    exact hedit rfl rfl rfl
  | poke address value =>
    rw [perform_poke_frame]
    exact hedit rfl rfl rfl
  | setInput port value => exact hedit PortBank.log_setInput PortBank.outputs_setInput rfl
  | setReady level => exact hedit rfl rfl rfl
  | requestInterrupt opcode => exact hedit rfl rfl rfl
  | requestRestart vector => exact hedit rfl rfl rfl
  | setIr ir => exact absurd ha Bool.noConfusion

/-- A board that takes over another one takes over its record. -/
theorem takeOver (h : b.Recorded ticks) (c : Board) : (c.takeOver b).Recorded ticks :=
  h.congr rfl rfl rfl

/-! ### The count of ticks -/

theorem toNat_ticks (h : b.Recorded ticks) (hlt : ticks.length < 2 ^ 64) :
    b.ticks.toNat = ticks.length := by
  rw [h.ticks_eq, UInt64.toNat_ofNat_of_lt' hlt]

/-- Before the count wraps around, the ticks are counted one by one. -/
theorem toNat_counted (h : b.Recorded ticks) (hlt : ticks.length < 2 ^ 64) :
    ticks.map (·.ticks.toNat) = List.range ticks.length := by
  have hmap := congrArg (List.map UInt64.toNat) h.counted
  rw [List.map_map, List.map_map] at hmap
  refine hmap.trans (List.map_congr_left fun i hi ↦ ?_) |>.trans (List.map_id _)
  exact UInt64.toNat_ofNat_of_lt' ((List.mem_range.mp hi).trans hlt)

/-- The records are made one after the other. -/
theorem pairwise_lt (h : b.Recorded ticks) (hlt : ticks.length < 2 ^ 64) :
    b.ports.log.toList.Pairwise (·.tick < ·.tick) := by
  have hticks : ticks.Pairwise (·.ticks < ·.ticks) := by
    have hrange := h.toNat_counted hlt ▸ List.pairwise_lt_range
    exact (List.pairwise_map.mp hrange).imp UInt64.lt_iff_toNat_lt.mpr
  rw [h.log_eq, List.pairwise_filterMap]
  refine hticks.imp fun {c d} hlt r hr r' hr' ↦ ?_
  rw [tick_of_outputMade hr, tick_of_outputMade hr']
  exact hlt

/-- The records were made before now. -/
theorem tick_lt (h : b.Recorded ticks) (hlt : ticks.length < 2 ^ 64) :
    ∀ r ∈ b.ports.log.toList, r.tick < b.ticks := by
  intro r hr
  rw [h.log_eq] at hr
  obtain ⟨c, hc, hr⟩ := List.mem_filterMap.mp hr
  have hmem := List.mem_map_of_mem (f := (·.ticks.toNat)) hc
  rw [h.toNat_counted hlt, List.mem_range] at hmem
  rw [tick_of_outputMade hr, UInt64.lt_iff_toNat_lt, h.toNat_ticks hlt]
  exact hmem

end Recorded

/-! ### Pasts -/

/-- What led to a board: what was done with a fresh one, and the pasts of the boards that were saved
and taken over on the way. -/
inductive Past where
  | fresh
  | perform (before : Past) (a : Action) (ha : a.setsIr = false)
  | restore (before saved : Past)

namespace Past

/-- The board that a past leads to. -/
def board : Past → Board
  | fresh => {}
  | perform before a _ => before.board.perform a
  | restore before saved => before.board.orKeep (before.board.restore saved.board.snapshot)

/-- The boards at which the ticks since the latest reset began. With a snapshot a board takes over
the ticks of the board that was saved, in place of its own. -/
def ticked : Past → List Board
  | fresh => []
  | perform before a _ => if a.resets then [] else before.ticked ++ before.board.ticked a
  | restore _ saved => saved.ticked

theorem board_restore (before saved : Past) :
    (restore before saved).board = before.board.takeOver saved.board := by
  rw [board, restore_snapshot, orKeep]

theorem reachable (past : Past) : past.board.Reachable := by
  induction past with
  | fresh => exact .fresh
  | perform before a ha ih => exact ih.perform ha
  | restore before saved ih ihsaved =>
    rw [board_restore]
    exact ih.restore ihsaved (restore_snapshot ..)

theorem recorded (past : Past) : past.board.Recorded past.ticked := by
  induction past with
  | fresh => exact .reset {}
  | perform before a ha ih => exact ih.perform before.reachable.consistent ha
  | restore before saved _ ihsaved =>
    rw [board_restore]
    exact ihsaved.takeOver _

end Past

/-- Only a byte that is set at an input port, and a reset, change input ports. -/
theorem inputs_perform (ha : a.setsInput = false ∧ a.resets = false) :
    (b.perform a).ports.inputs = b.ports.inputs := by
  have htick (c : Board) : c.tick.ports.inputs = c.ports.inputs := by
    rcases c.ports_tick_cases with heq | ⟨port, value, tick, heq⟩
    · rw [heq]
    · rw [heq, PortBank.inputs_write]
  cases a with
  | tick => exact htick b
  | run budget =>
    have hticks (n : Nat) : (Board.tick^[n] b).ports.inputs = b.ports.inputs := by
      induction n with
      | zero => rfl
      | succ n ih => rw [Function.iterate_succ_apply', htick, ih]
    show (b.run budget).board.ports.inputs = b.ports.inputs
    rw [run_frame]
    exact hticks _
  | reset => exact absurd ha.2 (by decide)
  | load bytes origin => rw [perform_load_frame]
  | poke address value => rw [perform_poke_frame]
  | setInput port value => exact absurd ha.1 (by simp [Action.setsInput])
  | setReady level => rfl
  | requestInterrupt opcode => rfl
  | requestRestart vector => rfl
  | setIr ir => rfl

/-- **The record of writes is the history of the outputs.** Whatever led to a board:

* its record has one entry for each `T3` of an output cycle since the latest reset, in order, with
  the port of the instruction, the accumulator and the number of the tick;
* an output port holds what was last recorded for it, or 0;
* as long as the count of ticks does not wrap around, the ticks are numbered one by one, the entries
  are strictly increasing in their ticks, and all of them lie before the present count;
* nothing the host does next changes an input port, but for setting one and for a reset. -/
theorem outputs_recorded (past : Past) :
    (past.board.ports.log.toList = past.ticked.filterMap outputMade ∧
      ∀ r ∈ past.board.ports.log.toList, 8 ≤ r.port.toInt ∧ r.port.toInt < 32) ∧
    (∀ port, PortBank.isOutput port = true →
      past.board.ports.output port = lastWritten past.board.ports.log.toList port) ∧
    (past.ticked.length < 2 ^ 64 →
      past.ticked.map (·.ticks.toNat) = List.range past.ticked.length ∧
      past.board.ticks.toNat = past.ticked.length ∧
      past.board.ports.log.toList.Pairwise (·.tick < ·.tick) ∧
      ∀ r ∈ past.board.ports.log.toList, r.tick < past.board.ticks) ∧
    ∀ a : Action, a.setsInput = false ∧ a.resets = false →
      (past.board.perform a).ports.inputs = past.board.ports.inputs := by
  have hrecorded := past.recorded
  refine ⟨⟨hrecorded.log_eq, fun r hr ↦ ?_⟩, hrecorded.faithful.output_eq, fun hlt ↦ ?_,
    fun a ha ↦ inputs_perform ha⟩
  · have houtput := hrecorded.faithful.isOutput_port r hr
    rwa [PortBank.isOutput, Bool.and_eq_true, decide_eq_true_eq, decide_eq_true_eq] at houtput
  · exact ⟨hrecorded.toNat_counted hlt, hrecorded.toNat_ticks hlt, hrecorded.pairwise_lt hlt,
      hrecorded.tick_lt hlt⟩

/-- A program loads 2a into the accumulator, sends it to port 8 and halts. -/
def sendsOnce : Past :=
  Past.fresh |>.perform (.load [0x06, 0x2a, 0x51, 0x00] 0) rfl |>.perform (.requestRestart 0) rfl
    |>.perform (.run 30) rfl

/-- Another board takes this over, and an interrupt has it send the accumulator to port 9, with
waits in the output cycle. -/
def sendsAgain : Past :=
  (Past.fresh.perform (.setInput 3 0x55) rfl).restore sendsOnce
    |>.perform (.requestInterrupt 0x53) rfl |>.perform (.run 6) rfl
    |>.perform (.setReady false) rfl |>.perform (.run 4) rfl |>.perform (.setReady true) rfl
    |>.perform (.run 4) rfl

theorem sendsAgain_recorded :
    sendsAgain.board.ports.log.toList = [⟨8, 0x2a, 20⟩, ⟨9, 0x2a, 37⟩] ∧
      sendsAgain.board.ports.output 9 = 0x2a ∧
      (PortBank.isOutput 9 = true ∧ sendsAgain.board.ports.output 9 =
        lastWritten sendsAgain.board.ports.log.toList 9) ∧
      (sendsAgain.ticked.length < 2 ^ 64 ∧
        sendsAgain.board.ports.log.toList.Pairwise (·.tick < ·.tick)) ∧
      ((Action.run 9).setsInput = false ∧ (Action.run 9).resets = false) ∧
      (sendsAgain.board.perform (.run 9)).ports.inputs = sendsAgain.board.ports.inputs :=
  have h := outputs_recorded sendsAgain
  have hlt : sendsAgain.ticked.length < 2 ^ 64 := by decide +kernel
  ⟨by decide +kernel, by decide +kernel, ⟨by decide, h.2.1 9 (by decide)⟩,
    ⟨hlt, (h.2.2.1 hlt).2.2.1⟩, by decide, h.2.2.2 (.run 9) (by decide)⟩

end Board

end Mcs8
