import Mathlib.Data.Nat.Find
import Mathlib.Order.Bounds.Defs
import Mcs8.Board.Snapshot
import Mcs8.Proofs.Board.Action

/-!
# Where a run stops

A run asks after each tick whether to go on. So it makes the fewest ticks after which there is a
reason to stop, and it reports all the reasons that there are then (`run_stops_at_first`). Ticks
leave the breakpoints alone, so the reasons can be told from the board with which the run began.
What a run does to breakpoints is to take away the temporary mark at the instruction that it stopped
at (`Breakpoints.find?_clear_temporary`).
-/

namespace Mcs8

/-! ### Breakpoints as a map -/

namespace Breakpoints

variable {address a : UInt16} {temporary value : Bool} {b : Breakpoint} {l : List Breakpoint}

/-- A breakpoint, if it has a mark. -/
def keepMarked (b : Breakpoint) : Option Breakpoint := if b.isMarked then some b else none

theorem find?_consMarked : (consMarked b l).find? (·.address == a) =
    if a = b.address then (keepMarked b).or (l.find? (·.address == a))
    else l.find? (·.address == a) := by
  unfold consMarked keepMarked
  by_cases h : a = b.address
  · cases b.isMarked <;> simp [h]
  · have hne : (b.address == a) = false := beq_eq_false_iff_ne.mpr (Ne.symm h)
    cases b.isMarked <;> simp [h, hne]

theorem find?_cons : (b :: l).find? (·.address == a) =
    if a = b.address then some b else l.find? (·.address == a) := by
  by_cases h : a = b.address
  · simp [h]
  · have hne : (b.address == a) = false := beq_eq_false_iff_ne.mpr (Ne.symm h)
    simp [h, hne]

/-- No address comes before the first one, or twice. -/
theorem find?_eq_none_of_le (h : (b :: l).Pairwise Breakpoint.Before) (ha : a ≤ b.address) :
    l.find? (·.address == a) = none := by
  rw [List.find?_eq_none]
  intro c hc heq
  have hbefore : b.address < c.address := (List.pairwise_cons.mp h).1 c hc
  rw [beq_iff_eq] at heq
  rw [heq] at hbefore
  exact UInt16.not_lt.mpr ha hbefore

/-- Changing a mark at an address changes the breakpoint there, and no other one. -/
theorem find?_alter (h : l.Pairwise Breakpoint.Before) :
    (alter address temporary value l).find? (·.address == a) =
      if a = address then
        keepMarked (((l.find? (·.address == a)).getD { address }).mark temporary value)
      else l.find? (·.address == a) := by
  induction l with
  | nil =>
    rw [alter, find?_consMarked, Breakpoint.address_mark]
    split <;> simp
  | cons c l ih =>
    obtain ⟨-, hl⟩ := List.pairwise_cons.mp h
    rw [alter]
    split
    next hlt =>
      rw [find?_consMarked, Breakpoint.address_mark]
      split
      next ha =>
        have hnone : (c :: l).find? (·.address == a) = none := by
          have hle : a ≤ c.address := by
            rw [ha]
            exact UInt16.le_of_lt hlt
          have hne : a ≠ c.address := by
            rw [ha]
            exact UInt16.ne_of_lt hlt
          rw [find?_cons, if_neg hne, find?_eq_none_of_le h hle]
        rw [hnone, Option.or_none, Option.getD_none]
      next => rfl
    next =>
      split
      next heq =>
        rw [find?_consMarked, Breakpoint.address_mark, find?_cons, ← heq]
        split
        next ha =>
          rw [find?_eq_none_of_le h (by rw [ha, heq]; exact UInt16.le_refl _), Option.or_none,
            Option.getD_some]
        next => rfl
      next hne =>
        rw [find?_cons, find?_cons, ih hl]
        by_cases ha : a = c.address
        · rw [if_pos ha, if_pos ha, if_neg (by rw [ha]; exact Ne.symm hne)]
        · rw [if_neg ha, if_neg ha]

/-- Clearing the temporary mark at an address leaves the persistent one, and every other
breakpoint. -/
theorem find?_clear_temporary (bs : Breakpoints) : (bs.clear address true).find? a =
    if a = address then
      ((bs.find? a).filter (·.persistent)).map fun b ↦ { b with temporary := false }
    else bs.find? a := by
  rw [find?, find?, clear, find?_alter bs.sorted]
  split
  next =>
    cases bs.entries.find? (·.address == a) with
    | none => rfl
    | some b =>
      cases h : b.persistent <;>
        simp [keepMarked, Breakpoint.mark, Breakpoint.isMarked, Option.filter_some, h]
  next => rfl

theorem contains_iff (bs : Breakpoints) :
    bs.contains a = true ↔ a ∈ bs.entries.map (·.address) := by
  rw [contains, find?, List.find?_isSome, List.mem_map]
  simp only [beq_iff_eq]

end Breakpoints

namespace Board

variable (b : Board)

/-! ### Reasons to stop -/

/-- The `n`-th tick from now on halts the processor. -/
def haltsAt (n : Nat) : Prop :=
  (tick^[n] b).cpu.state = .stopped ∧ (tick^[n - 1] b).cpu.state ≠ .stopped

/-- After `n` ticks the processor is about to fetch an instruction that the board has to stop at. -/
def breaksAt (n : Nat) : Prop :=
  ((tick^[n] b).cpu.state = .t1 ∧ (tick^[n] b).cpu.cycleNumber = 0) ∧
    (b.breakOnNext = true ∨ (tick^[n] b).cpu.pc ∈ b.breakpoints.entries.map (·.address))

/-- A reason to stop after `n` ticks. -/
def stopsAt (budget n : Nat) : Prop := n = budget ∨ b.haltsAt n ∨ b.breaksAt n

/-- The next tick gives a reason to stop other than the budget. -/
def stopsNext : Bool := b.tick.haltedFrom b.cpu.state || b.tick.meetsBreakpoint

/-! ### Ticks and breakpoints -/

theorem breakpoints_tick : b.tick.breakpoints = b.breakpoints ∧
    b.tick.breakOnNext = b.breakOnNext := by
  rw [tick_eq, carryOut_frame, clocked_frame]
  exact ⟨rfl, rfl⟩

theorem breakpoints_iterate (n : Nat) : (tick^[n] b).breakpoints = b.breakpoints ∧
    (tick^[n] b).breakOnNext = b.breakOnNext := by
  induction n with
  | zero => exact ⟨rfl, rfl⟩
  | succ n ih =>
    obtain ⟨hbreakpoints, hnext⟩ := (tick^[n] b).breakpoints_tick
    rw [Function.iterate_succ_apply']
    exact ⟨hbreakpoints.trans ih.1, hnext.trans ih.2⟩

theorem meetsBreakpoint_iff : b.meetsBreakpoint = true ↔ b.breaksAt 0 := by
  rw [meetsBreakpoint, atInstruction, breaksAt, Bool.and_eq_true, Bool.and_eq_true, Bool.or_eq_true,
    Breakpoints.contains_iff, decide_eq_true_eq, decide_eq_true_eq]
  rfl

theorem breaksAt_iff (n : Nat) : b.breaksAt n ↔ (tick^[n] b).meetsBreakpoint = true := by
  obtain ⟨hbreakpoints, hnext⟩ := b.breakpoints_iterate n
  rw [meetsBreakpoint_iff, breaksAt, breaksAt, hbreakpoints, hnext]
  rfl

theorem haltsAt_succ_iff (n : Nat) :
    b.haltsAt (n + 1) ↔ (tick^[n] b).tick.haltedFrom (tick^[n] b).cpu.state = true := by
  rw [haltsAt, haltedFrom, Bool.and_eq_true, decide_eq_true_eq, decide_eq_true_eq,
    Function.iterate_succ_apply', Nat.add_sub_cancel]

theorem stopsNext_iterate (n : Nat) :
    (tick^[n] b).stopsNext = true ↔ b.haltsAt (n + 1) ∨ b.breaksAt (n + 1) := by
  rw [haltsAt_succ_iff, breaksAt_iff, stopsNext, Bool.or_eq_true, Function.iterate_succ_apply']

/-! ### Runs -/

/-- What a run writes for the next tick. -/
def runMessages : String :=
  b.tickMessages ++ if b.tick.haltedFrom b.cpu.state then b.tick.haltMessage else ""

/-- A run stops after the next tick, or goes on with the rest of its budget. -/
theorem runFrom_succ (written : String) (budget : Nat) : b.runFrom written (budget + 1) =
    if b.stopsNext then
      ⟨b.tick.consumeBreakpoint, {
          halted := b.tick.haltedFrom b.cpu.state
          breakpoint := b.tick.meetsBreakpoint
          budgetSpent := budget == 0 }, budget, written ++ b.runMessages⟩
    else b.tick.runFrom (written ++ b.runMessages) budget := by
  rw [runMessages, ← String.append_assoc]
  rfl

variable {b} {budget : Nat}

/-- A run goes on through ticks that give no reason to stop. -/
theorem runFrom_add {n : Nat} (h : ∀ m < n, (tick^[m] b).stopsNext = false) (written : String)
    (budget : Nat) :
    ∃ later, b.runFrom written (n + budget) = (tick^[n] b).runFrom later budget := by
  induction n generalizing b written with
  | zero => exact ⟨written, by rw [Nat.zero_add]; rfl⟩
  | succ n ih =>
    have hfirst : b.stopsNext = false := h 0 (Nat.succ_pos n)
    have hsucc := b.runFrom_succ written (n + budget)
    rw [hfirst, if_neg Bool.false_ne_true] at hsucc
    obtain ⟨later, hrest⟩ := ih (b := b.tick) (fun m hm ↦ h (m + 1) (Nat.succ_lt_succ hm))
      (written ++ b.runMessages)
    refine ⟨later, ?_⟩
    rw [Nat.succ_add, Function.iterate_succ_apply, ← hrest]
    exact hsucc

/-- The result of a run that comes to its end with a tick. -/
structure EndsAt (b : Board) (budget n : Nat) (result : RunResult) : Prop where
  remaining_eq : result.remaining + n = budget
  budgetSpent_iff : result.reasons.budgetSpent = true ↔ n = budget
  halted_iff : result.reasons.halted = true ↔ b.haltsAt n
  breakpoint_iff : result.reasons.breakpoint = true ↔ b.breaksAt n
  board_eq : result.board =
    if result.reasons.breakpoint then (tick^[n] b).consumeBreakpoint else tick^[n] b

/-- A halted board has no breakpoint to use up. -/
theorem consumeBreakpoint_of_haltedFrom {before : TState} (h : b.haltedFrom before = true) :
    b.consumeBreakpoint = b := by
  rw [haltedFrom, Bool.and_eq_true, decide_eq_true_eq] at h
  rw [consumeBreakpoint, atInstruction, h.1]
  rfl

theorem endsAt_runFrom (written : String) {n : Nat} (hn : n < budget)
    (hbefore : ∀ m < n, (tick^[m] b).stopsNext = false)
    (hend : n + 1 = budget ∨ (tick^[n] b).stopsNext = true) :
    b.EndsAt budget (n + 1) (b.runFrom written budget) := by
  obtain ⟨rest, rfl⟩ := Nat.exists_eq_add_of_lt hn
  obtain ⟨later, hfirst⟩ := runFrom_add hbefore written (rest + 1)
  have hlast := (tick^[n] b).runFrom_succ later rest
  rw [← hfirst, ← Nat.add_assoc] at hlast
  rw [hlast]
  have hticked : (tick^[n] b).tick = tick^[n + 1] b := (Function.iterate_succ_apply' ..).symm
  have hhalts := b.haltsAt_succ_iff n
  have hbreaks := b.breaksAt_iff (n + 1)
  rw [hticked] at hhalts ⊢
  cases hstop : (tick^[n] b).stopsNext with
  | true =>
    rw [if_pos rfl]
    refine ⟨?_, ?_, hhalts.symm, hbreaks.symm, ?_⟩
    · show rest + (n + 1) = n + rest + 1
      omega
    · rw [beq_iff_eq]
      omega
    · show (tick^[n + 1] b).consumeBreakpoint = _
      cases hmeets : (tick^[n + 1] b).meetsBreakpoint with
      | true => rfl
      | false =>
        rw [stopsNext, hticked, hmeets, Bool.or_false] at hstop
        exact consumeBreakpoint_of_haltedFrom hstop
  | false =>
    -- the budget is spent
    have hnone := (b.stopsNext_iterate n).not.mp (Bool.eq_false_iff.mp hstop)
    rw [not_or] at hnone
    obtain rfl : rest = 0 := by
      have := hend.resolve_right (Bool.eq_false_iff.mp hstop)
      omega
    rw [if_neg Bool.false_ne_true]
    exact ⟨Nat.zero_add _, by simp [runFrom], by simp [runFrom, hnone], by simp [runFrom, hnone],
      rfl⟩

/-- There is a first tick after which a run stops. -/
theorem exists_endsAt (b : Board) (written : String) (hpos : 0 < budget) : ∃ n,
    IsLeast {n | 1 ≤ n ∧ b.stopsAt budget n} n ∧ b.EndsAt budget n (b.runFrom written budget) := by
  classical
  have hstops : ∃ n, n + 1 = budget ∨ (tick^[n] b).stopsNext = true :=
    ⟨budget - 1, .inl (Nat.succ_pred_eq_of_pos hpos)⟩
  have hiff (n : Nat) : b.stopsAt budget (n + 1) ↔
      n + 1 = budget ∨ (tick^[n] b).stopsNext = true := by
    rw [stopsAt, stopsNext_iterate]
  have hbefore (m : Nat) (hm : m < Nat.find hstops) :
      ¬(m + 1 = budget ∨ (tick^[m] b).stopsNext = true) := Nat.find_min hstops hm
  refine ⟨Nat.find hstops + 1, ⟨⟨Nat.succ_pos _, ?_⟩, ?_⟩, endsAt_runFrom written ?_ ?_ ?_⟩
  · exact (hiff _).mpr (Nat.find_spec hstops)
  · rintro n ⟨hn, hstopsAt⟩
    obtain ⟨m, rfl⟩ := Nat.exists_eq_add_of_le' hn
    by_contra hlt
    exact hbefore m (by omega) ((hiff m).mp hstopsAt)
  · have hle : Nat.find hstops ≤ budget - 1 :=
      Nat.find_min' hstops (.inl (Nat.succ_pred_eq_of_pos hpos))
    omega
  · intro m hm
    exact Bool.eq_false_iff.mpr fun hstop ↦ hbefore m hm (.inr hstop)
  · exact Nat.find_spec hstops

/-- Using up a breakpoint concerns the address of the next instruction only. -/
theorem find?_consumeBreakpoint (address : UInt16) : b.consumeBreakpoint.breakpoints.find? address =
    if b.atInstruction = true ∧ address = b.cpu.pc then
      ((b.breakpoints.find? address).filter (·.persistent)).map fun p ↦ { p with temporary := false }
    else b.breakpoints.find? address := by
  unfold consumeBreakpoint
  split
  next h =>
    rw [Breakpoints.find?_clear_temporary]
    simp only [h, true_and]
  next h => simp [h]

/-- A run makes the fewest ticks after which the budget is spent, the processor has just halted or a
breakpoint is met. It reports which of these hold, and takes away nothing but what stops a board at
the instruction that it has come to only once. -/
theorem run_stops_at_first (b : Board) (budget : UInt64) :
    (b.run budget).remaining ≤ budget.toNat ∧
    (b.run budget).board.snapshot = (tick^[b.ticksOf budget] b).snapshot ∧
    (budget = 0 → b.run budget = ⟨b, { budgetSpent := true }, 0, ""⟩) ∧
    (budget ≠ 0 →
      IsLeast {n | 1 ≤ n ∧ b.stopsAt budget.toNat n} (b.ticksOf budget) ∧
      ((b.run budget).reasons.budgetSpent = true ↔ b.ticksOf budget = budget.toNat) ∧
      ((b.run budget).reasons.halted = true ↔ b.haltsAt (b.ticksOf budget)) ∧
      ((b.run budget).reasons.breakpoint = true ↔ b.breaksAt (b.ticksOf budget))) ∧
    (b.run budget).board.breakOnNext = (b.breakOnNext && !(b.run budget).reasons.breakpoint) ∧
    ∀ address, (b.run budget).board.breakpoints.find? address =
      if (b.run budget).reasons.breakpoint = true ∧
          address = (tick^[b.ticksOf budget] b).cpu.pc then
        ((b.breakpoints.find? address).filter (·.persistent)).map fun p ↦
          { p with temporary := false }
      else b.breakpoints.find? address := by
  obtain rfl | hne := eq_or_ne budget 0
  · have hrun : b.run 0 = ⟨b, { budgetSpent := true }, 0, ""⟩ := rfl
    rw [ticksOf, hrun]
    simp
  obtain ⟨n, hleast, hend⟩ := b.exists_endsAt ""
    (Nat.pos_of_ne_zero fun h ↦ hne (UInt64.toNat_inj.mp h))
  change b.EndsAt budget.toNat n (b.run budget) at hend
  have hn : b.ticksOf budget = n := by
    rw [ticksOf, ← hend.remaining_eq, Nat.add_sub_cancel_left]
  rw [hn]
  refine ⟨hend.remaining_eq ▸ Nat.le_add_right .., ?_, fun h ↦ absurd h hne,
    fun _ ↦ ⟨hleast, hend.budgetSpent_iff, hend.halted_iff, hend.breakpoint_iff⟩, ?_⟩
  · rw [hend.board_eq]
    split
    · rw [consumeBreakpoint_frame]
      rfl
    · rfl
  obtain ⟨hbreakpoints, hnext⟩ := b.breakpoints_iterate n
  rw [hend.board_eq]
  cases hreason : (b.run budget).reasons.breakpoint with
  | false => simp [hbreakpoints, hnext]
  | true =>
    have hmeets := (b.breaksAt_iff n).mp (hend.breakpoint_iff.mp hreason)
    have hat : (tick^[n] b).atInstruction = true := (Bool.and_eq_true_iff.mp hmeets).1
    constructor
    · simp [consumeBreakpoint, hat]
    · intro address
      rw [if_pos rfl, find?_consumeBreakpoint, hbreakpoints]
      simp only [hat]

/-- A halted board that is interrupted by an instruction of one machine cycle, with both kinds of
breakpoint at the instruction that comes after it. -/
def marked : Board :=
  { ({} : Board).requestInterrupt 0xc0 with
    breakpoints := (Breakpoints.set {} 0 true).set 0 false }

theorem marked_stops : (marked.run 7).reasons = { breakpoint := true, budgetSpent := true } ∧
    IsLeast {n | 1 ≤ n ∧ marked.stopsAt 7 n} 7 ∧
    (marked.run 7).board.breakpoints.find? 0 = some { address := 0, persistent := true } := by
  have hticks : marked.ticksOf 7 = 7 := by decide +kernel
  have hreasons : (marked.run 7).reasons = { breakpoint := true, budgetSpent := true } := by
    decide +kernel
  have hpc : (tick^[7] marked).cpu.pc = 0 := by decide +kernel
  obtain ⟨-, -, -, hstop, -, hbreakpoints⟩ := run_stops_at_first marked 7
  rw [hticks] at hstop hbreakpoints
  refine ⟨hreasons, (hstop (by decide)).1, ?_⟩
  rw [hbreakpoints 0, hreasons, hpc]
  decide

end Board

end Mcs8
