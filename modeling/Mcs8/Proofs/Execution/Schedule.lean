import Mcs8.Proofs.Execution.Completion

/-!
# Schedules

While an instruction takes its ticks, interrupts are requested and the ready line goes up and down.
None of it reaches the instruction under way: a stimulus leaves its completion as it is
(`completion_meet`), and so at the next boundary, whenever that is reached, the instruction has done
its work (`datapath_driveAll`).
-/

namespace Mcs8

/-- What a board meets from outside before a tick. -/
structure Stimulus where
  /-- The opcodes of the interrupts that are requested, one after the other. -/
  requests : List UInt8 := []
  /-- The level of the ready line. -/
  ready : Bool := true

namespace Board

variable (b : Board)

/-- The board that a stimulus finds its tick with. -/
def meet (x : Stimulus) : Board := (x.requests.foldl requestInterrupt b).setReady x.ready

/-- One tick with a stimulus. -/
def drive (x : Stimulus) : Board := (b.meet x).tick

/-- One tick for each stimulus. -/
def driveAll (schedule : List Stimulus) : Board := schedule.foldl drive b

@[simp] theorem driveAll_nil : b.driveAll [] = b := rfl

@[simp] theorem driveAll_cons (x : Stimulus) (schedule : List Stimulus) :
    b.driveAll (x :: schedule) = (b.drive x).driveAll schedule := rfl

/-- A schedule takes a board to its next boundary and no further. -/
structure ReachesBoundary (schedule : List Stimulus) : Prop where
  ne_nil : schedule ≠ []
  atBoundary : (b.driveAll schedule).atBoundary
  not_before : ∀ n < schedule.length, 0 < n → ¬(b.driveAll (schedule.take n)).atBoundary

instance (schedule : List Stimulus) : Decidable (b.ReachesBoundary schedule) :=
  decidable_of_iff (schedule ≠ [] ∧ (b.driveAll schedule).atBoundary ∧
      ∀ n < schedule.length, 0 < n → ¬(b.driveAll (schedule.take n)).atBoundary)
    ⟨fun ⟨hne, hboundary, hbefore⟩ ↦ ⟨hne, hboundary, hbefore⟩,
      fun h ↦ ⟨h.ne_nil, h.atBoundary, h.not_before⟩⟩

/-- One tick for each level of the ready line, and no requests. -/
def driveReady (levels : List Bool) : Board := b.driveAll (levels.map fun ready ↦ { ready })

/-- The boards with which the ticks of a schedule begin. -/
def stages (b : Board) : List Stimulus → List Board
  | [] => []
  | x :: rest => b.meet x :: (b.drive x).stages rest

/-- A stimulus reaches the interrupting device and the ready line only. -/
theorem meet_eq (x : Stimulus) : b.meet x =
    { b with
      interrupter := x.requests.foldl Interrupter.request b.interrupter
      readyLevel := x.ready } := by
  have hrequests (opcodes : List UInt8) : opcodes.foldl requestInterrupt b =
      { b with interrupter := opcodes.foldl Interrupter.request b.interrupter } := by
    induction opcodes generalizing b with
    | nil => rfl
    | cons opcode opcodes ih => exact ih (b.requestInterrupt opcode)
  rw [meet, hrequests]
  rfl

theorem driveAll_append (schedule more : List Stimulus) :
    b.driveAll (schedule ++ more) = (b.driveAll schedule).driveAll more := by
  simp [driveAll]

theorem driveReady_concat (levels : List Bool) (ready : Bool) :
    b.driveReady (levels ++ [ready]) = (b.driveReady levels).drive { ready } := by
  simp [driveReady, driveAll_append]

variable {b}

theorem ReachesBoundary.tail {x y : Stimulus} {schedule : List Stimulus}
    (h : b.ReachesBoundary (x :: y :: schedule)) : (b.drive x).ReachesBoundary (y :: schedule) where
  ne_nil := List.cons_ne_nil y schedule
  atBoundary := h.atBoundary
  not_before n hlt _ := h.not_before (n + 1) (Nat.succ_lt_succ hlt) (Nat.succ_pos n)

/-! ### Stimuli do not reach the instruction -/

/-- The opcode that is going to be taken does not change with a request, since it is on the line
already if it answers one. -/
theorem incoming_requestInterrupt (h : b.Consistent) (opcode : UInt8) :
    (b.requestInterrupt opcode).incoming = b.incoming := by
  show (if b.cpu.isAcknowledge then
      if b.cpu.state = .t1i then (b.interrupter.request opcode).opcode
      else (b.interrupter.request opcode).answer
    else b.datapath.byteAt b.cpu.pc) = b.incoming
  rw [incoming, Interrupter.answer_request]
  by_cases hs : b.cpu.state = .t1i
  · rw [Interrupter.opcode_request_of_line _ (h.handshake.line_of_t1i hs).1]
  · rw [if_neg hs, if_neg hs]

/-- Requests and the ready line leave the processor and the opcode for it alone. -/
theorem meet_frame (h : b.Consistent) (x : Stimulus) :
    (b.meet x).Consistent ∧ (b.meet x).cpu = b.cpu ∧ (b.meet x).incoming = b.incoming := by
  have hrequests (opcodes : List UInt8) : (opcodes.foldl requestInterrupt b).Consistent ∧
      (opcodes.foldl requestInterrupt b).cpu = b.cpu ∧
      (opcodes.foldl requestInterrupt b).incoming = b.incoming := by
    induction opcodes generalizing b with
    | nil => exact ⟨h, rfl, rfl⟩
    | cons opcode opcodes ih =>
      obtain ⟨hconsistent, hcpu, hincoming⟩ :=
        ih (invariant_consistent.requestInterrupt opcode h)
      exact ⟨hconsistent, hcpu, hincoming.trans (incoming_requestInterrupt h opcode)⟩
  obtain ⟨hconsistent, hcpu, hincoming⟩ := hrequests x.requests
  exact ⟨invariant_consistent.congr hconsistent rfl rfl rfl, hcpu, hincoming⟩

theorem completion_meet (h : b.Consistent) (x : Stimulus) :
    (b.meet x).completion = b.completion := by
  have hincoming := (meet_frame h x).2.2
  have hcycles : (b.meet x).throughCycles = b.throughCycles := by
    rw [throughCycles, hincoming, meet_eq]
    rfl
  rw [completion, hcycles, meet_eq]
  rfl

theorem Consistent.drive (h : b.Consistent) (x : Stimulus) : (b.drive x).Consistent :=
  (meet_frame h x).1.tick

theorem Consistent.driveAll (h : b.Consistent) (schedule : List Stimulus) :
    (b.driveAll schedule).Consistent := by
  induction schedule generalizing b with
  | nil => exact h
  | cons x schedule ih => exact ih (h.drive x)

theorem outcome_drive (h : b.Consistent) (hs : b.cpu.state ≠ .stopped) (x : Stimulus) :
    (b.drive x).outcome = b.completion := by
  obtain ⟨hconsistent, hcpu, -⟩ := meet_frame h x
  rw [← completion_meet h x]
  exact outcome_tick hconsistent (hcpu ▸ hs)

/-- Under any schedule an instruction does what it was going to do. -/
theorem datapath_driveAll (h : b.Consistent) (hs : b.cpu.state ≠ .stopped)
    {schedule : List Stimulus} (hreach : b.ReachesBoundary schedule) :
    (b.driveAll schedule).datapath = b.completion := by
  -- the completion of `b` is the invariant: each tick leaves it to the board that follows
  induction schedule generalizing b with
  | nil => exact absurd rfl hreach.ne_nil
  | cons x rest ih =>
    have houtcome := outcome_drive h hs x
    rw [outcome] at houtcome
    cases rest with
    | nil =>
      have hboundary : (b.drive x).atBoundary := hreach.atBoundary
      rwa [if_pos hboundary] at houtcome
    | cons y rest =>
      -- the instruction is still under way
      have hnot : ¬(b.drive x).atBoundary :=
        hreach.not_before 1 (Nat.succ_lt_succ (Nat.succ_pos _)) Nat.one_pos
      have hs' : (b.drive x).cpu.state ≠ .stopped := fun hstopped ↦ hnot (.inr hstopped)
      rw [if_neg hnot] at houtcome
      rw [driveAll_cons, ← houtcome]
      exact ih (h.drive x) hs' hreach.tail

/-- An instruction under way is one that starts with its opcode, which comes from memory or answers
an acknowledge. -/
theorem completion_of_startsInstruction (h : b.Consistent) (hs : b.startsInstruction) :
    b.completion =
      if b.cpu.state = .t1i then b.datapath.instruction (.ofOpcode b.interrupter.opcode) true
      else b.datapath.instruction (.ofOpcode (b.datapath.byteAt b.cpu.pc)) false := by
  obtain ⟨hstarts, hnumber⟩ := hs
  have hprecedes := TState.precedesT3_of_startsCycle hstarts
  rw [completion_of_precedesT3 hprecedes, throughCycles, if_pos hnumber, incoming]
  cases hstate : b.cpu.state with
  | t1 =>
    rw [h.wellFormed.isAcknowledge_of_t1 hstate]
    rfl
  | t1i =>
    rw [h.wellFormed.isAcknowledge_of_t1i hstate]
    rfl
  | _ => rw [hstate] at hstarts; contradiction

end Board

end Mcs8
