import Mcs8.Proofs.Board.Delivery
import Mcs8.Proofs.Execution.Frames
import Mcs8.Proofs.Execution.Itinerary

/-!
# Returns go back to their calls

A call or restart keeps the program counter in `T4` and moves it in `T5`, some cycles after the
instruction began, and an interrupt can come in after any instruction. `Processor.Underway` says
what is settled at each tick of an instruction, seen from its first state: how far the program
counter has moved on, and what has become of the return stack. So each instruction does to the
stack what its transfer says (`Board.play_transfer`), and over a whole run the transfers pair off
as on any stack of eight slots (`Board.returns_paired`).
-/

namespace Mcs8

namespace Operation

/-- What the operation makes of the return stack in `T4`. -/
def exchange (o : Operation) (s : ReturnStack) (pc : UInt16) : ReturnStack :=
  match o with
  | call _ | restart _ => s.push pc
  | ret _ => s.pop
  | _ => s

/-- Machine cycles that fetch bytes of the program come first. -/
theorem cycleKind_of_succ {o : Operation} {cycle : Int} (h₀ : 0 ≤ cycle)
    (hlt : cycle + 1 < o.cycleCount) (h : o.cycleKind (cycle + 1) = .pci) :
    o.cycleKind cycle = .pci := by
  have hle := o.cycleCount_le
  have hne : cycle + 1 ≠ 0 := by omega
  unfold cycleKind at h ⊢
  rw [if_neg hne] at h
  split at h <;> grind

end Operation

namespace Processor

variable (start p : Processor)

/-- The address that comes after so many bytes of an instruction, seen from its first state. An
opcode that answers an acknowledge does not count. -/
def addressAfter (length : Nat) : UInt16 :=
  (start.pc + .ofNat (if start.state = .t1i then length - 1 else length)) % addressSpace

/-- The transfer that an instruction makes, from the processor in its first state and the one after
its last state. A call that is taken is to return behind its three bytes, a restart behind its
one. -/
def transfer? (finish : Processor) : Option Transfer :=
  match finish.operation with
  | .call condition =>
    if condition.holds start.flags then some (.call (start.addressAfter 3)) else none
  | .restart _ => some (.call (start.addressAfter 1))
  | .ret condition => if condition.holds start.flags then some (.ret finish.pc) else none
  | _ => none

/-- The number of bytes that a fetch cycle finds taken, and its own byte after `T3`. -/
def bytesTaken : Nat := p.cycleNumber.toInt.toNat + p.executes.toNat

/-- The processor is somewhere in the instruction that began with `start`. -/
structure Placed : Prop where
  flags_eq : p.flags = start.flags
  isAcknowledge_iff : p.cycleNumber = 0 → (p.isAcknowledge = true ↔ start.state = .t1i)
  pc_eq : p.cycleKind = .pci → p.pc = start.addressAfter p.bytesTaken
  hasExecutePhase : p.executes = true →
    p.operation.hasExecutePhase p.cycleNumber.toInt (p.operation.condition.holds p.flags) = true

/-- The processor is somewhere in the instruction that began with `start`, and its return stack is
as the instruction has found it, or as `T4` has left it. -/
structure Underway : Prop extends Placed start p where
  stack_eq : p.state ≠ .t5 → p.stack = start.stack
  stack_of_t5 : p.state = .t5 → p.stack = p.operation.exchange start.stack p.pc
  top_eq : p.state = .t5 → ∀ condition, p.operation = .ret condition →
    addressOf p.tempA p.tempB = start.stack.top

variable {start p} in
/-- Up to `T4` the return stack stays. -/
theorem Placed.underway (h : start.Placed p) (hs : p.state ≠ .t5) (hstack : p.stack = start.stack) :
    start.Underway p where
  toPlaced := h
  stack_eq _ := hstack
  stack_of_t5 hfive := absurd hfive hs
  top_eq hfive := absurd hfive hs

variable {p} in
/-- At the start of a machine cycle there is no execute phase to come yet. -/
theorem WellFormed.executes_of_startsCycle (h : p.WellFormed) (hs : p.state.startsCycle = true) :
    p.executes = false ∧ p.state ≠ .t5 := by
  rcases TState.startsCycle_iff.mp hs with hs | hs
  · refine ⟨h.executes_eq_false ?_ ?_, ?_⟩ <;> rw [hs] <;> decide
  · refine ⟨h.executes_eq_false ?_ ?_, ?_⟩ <;> rw [hs] <;> decide

theorem stack_prepareResult : p.prepareResult.stack = p.operation.exchange p.stack p.pc := by
  unfold prepareResult Operation.exchange
  cases p.operation <;> first | rfl | (simp only; split <;> rfl)

theorem address_prepareResult (h : p.Aligned) {condition : Condition}
    (ho : p.operation = .ret condition) :
    addressOf p.prepareResult.tempA p.prepareResult.tempB = p.stack.top := by
  rw [prepareResult, ho]
  exact Datapath.addressOf_halves (h.slots_lt _)

theorem toNat_addressAfter (length : Nat) : (start.addressAfter length).toNat =
    (start.pc.toNat + if start.state = .t1i then length - 1 else length) % 16384 := by
  have hspace : addressSpace.toNat = 16384 := rfl
  rw [addressAfter, UInt16.toNat_mod, UInt16.toNat_add, UInt16.toNat_ofNat', hspace]
  omega

theorem addressAfter_mod (length : Nat) :
    start.addressAfter length % addressSpace = start.addressAfter length := by
  rw [addressAfter, ← UInt16.toNat_inj, UInt16.toNat_mod, UInt16.toNat_mod, Nat.mod_mod]

theorem mod_of_transfer? {finish : Processor} {address : UInt16}
    (h : start.transfer? finish = some (.call address)) : address % addressSpace = address := by
  rw [transfer?] at h
  split at h
  · split at h
    · obtain rfl := Transfer.call.inj (Option.some.inj h)
      exact start.addressAfter_mod 3
    · contradiction
  · obtain rfl := Transfer.call.inj (Option.some.inj h)
    exact start.addressAfter_mod 1
  · split at h
    · exact Transfer.noConfusion (Option.some.inj h)
    · contradiction
  · contradiction

theorem addressAfter_zero (h : start.pc.toNat < 16384) : start.addressAfter 0 = start.pc := by
  rw [← UInt16.toNat_inj, toNat_addressAfter, Nat.zero_sub, ite_self, Nat.add_zero]
  exact Nat.mod_eq_of_lt h

/-- Each byte moves the address on by one, but for a jammed opcode. -/
theorem addressAfter_succ (n : Nat) : start.addressAfter (n + 1) =
    if n = 0 ∧ start.state = .t1i then start.addressAfter n
    else (start.addressAfter n + 1) % addressSpace := by
  have hspace : addressSpace.toNat = 16384 := rfl
  have hone : (1 : UInt16).toNat = 1 := rfl
  split
  next h => rw [addressAfter, addressAfter, if_pos h.2, if_pos h.2, h.1]
  next h =>
    rw [← UInt16.toNat_inj, UInt16.toNat_mod, UInt16.toNat_add, toNat_addressAfter,
      toNat_addressAfter, hspace, hone]
    split
    next hs =>
      have hpos : n ≠ 0 := fun hn ↦ h ⟨hn, hs⟩
      omega
    next => omega

/-- An instruction is under way in its first state. -/
theorem underway_self {p : Processor} (h : p.WellFormed) (hs : p.state.startsCycle = true)
    (hn : p.cycleNumber = 0) : Underway p p := by
  obtain ⟨hexecutes, hfive⟩ := h.executes_of_startsCycle hs
  have hplaced : Placed p p := {
    flags_eq := rfl
    isAcknowledge_iff := fun _ ↦ by
      rcases TState.startsCycle_iff.mp hs with hs | hs
      · rw [h.isAcknowledge_of_t1 hs, hs]
        decide
      · rw [h.isAcknowledge_of_t1i hs, hs]
        decide
    pc_eq := fun _ ↦ by
      rw [bytesTaken, hn, hexecutes]
      exact (p.addressAfter_zero h.pc_lt).symm
    hasExecutePhase := fun htrue ↦ by
      rw [hexecutes] at htrue
      contradiction }
  exact hplaced.underway hfive rfl

end Processor

namespace Board

variable {b : Board} {start : Processor}

open Processor

/-! ### Ticks before `T3` -/

theorem underway_tick_of_precedesT3 (hstart : start.Underway b.cpu)
    (hs : b.cpu.state.precedesT3 = true) : start.Underway b.tick.cpu := by
  have hfive : b.tick.cpu.state ≠ .t5 := by
    intro hfive
    rcases (reaches_tick_of_precedesT3 hs).1 with hnext | hnext <;> rw [hfive] at hnext <;>
      contradiction
  have hne : b.cpu.state ≠ .t5 := by
    intro hfive
    rw [hfive] at hs
    contradiction
  -- the step changes the state and what is sampled, and nothing that the instruction is told by
  rw [cpu_tick, stepWith_of_precedesT3 hs] at hfive ⊢
  have hplaced := hstart.toPlaced
  exact Placed.underway { hplaced with } hfive (hstart.stack_eq hne)

/-! ### The tick of `T3` -/

section

variable (h : b.Consistent) (hstart : start.Underway b.cpu) (hs : b.cpu.state = .t3)

include hstart hs in
theorem stack_tick_of_t3 : b.tick.cpu.stack = start.stack := by
  have hfour : b.cpu.stack = start.stack := hstart.stack_eq (by rw [hs]; decide)
  rw [← hfour, cpu_tick, stepWith_eq, stack_enter, worked_of_t3 hs, takeByte_eq, latchByte_frame]
  rfl

include hs in
theorem pc_tick_of_t3 : b.tick.cpu.pc =
    if b.cpu.cycleKind = .pci ∧ (b.cpu.cycleNumber = 0 → b.cpu.isAcknowledge = false) then
      (b.cpu.pc + 1) % addressSpace
    else b.cpu.pc := by
  rw [cpu_tick, stepWith_eq, pc_enter, worked_of_t3 hs, takeByte_eq]
  exact pc_latchByte _ _

include h hstart hs

/-- A fetch takes one more byte of the program. -/
theorem pc_tick_of_fetch (hk : b.cpu.cycleKind = .pci) :
    b.tick.cpu.pc = start.addressAfter (b.cpu.cycleNumber.toInt.toNat + 1) := by
  have hexecutes : b.cpu.executes = false := by
    apply h.wellFormed.executes_eq_false <;> rw [hs] <;> decide
  have hpc := hstart.pc_eq hk
  rw [bytesTaken, hexecutes] at hpc
  have hzero : b.cpu.cycleNumber.toInt.toNat = 0 ↔ b.cpu.cycleNumber = 0 := by
    have hnumber := h.toNat_number
    rw [cycleNumber_eq_zero_iff]
    omega
  have hmoves : (b.cpu.cycleNumber = 0 → b.cpu.isAcknowledge = false) ↔
      ¬(b.cpu.cycleNumber = 0 ∧ start.state = .t1i) := by
    rw [not_and]
    refine forall_congr' fun hn ↦ ?_
    rw [← hstart.isAcknowledge_iff hn, Bool.not_eq_true]
  rw [pc_tick_of_t3 hs, addressAfter_succ, hpc]
  simp only [hk, true_and, hmoves, hzero, ite_not]
  rfl

/-- Where the machine cycle goes on to `T4`, the instruction is still under way. -/
theorem underway_tick_of_executes (hhalts : (b.cpu.worked b.pins).halts = false)
    (hexecutes : (b.cpu.worked b.pins).executes = true) : start.Underway b.tick.cpu := by
  have hstate : b.tick.cpu.state = .t4 := by
    rw [state_tick]
    exact TState.next_eq_t4_iff.mpr ⟨hs, hhalts, hexecutes⟩
  obtain ⟨hkind, hnumber, hack, hexecutes'⟩ := place_tick (b := b) (by rw [hstate]; rfl)
  have hphase := (executes_worked_of_t3 hs).symm.trans hexecutes
  have hplaced : start.Placed b.tick.cpu := {
    flags_eq := (flags_datapath_tick_of_t3 hs).trans hstart.flags_eq
    isAcknowledge_iff := by
      rw [hnumber, hack]
      exact hstart.isAcknowledge_iff
    pc_eq := by
      rw [hkind, bytesTaken, hnumber, hexecutes', hexecutes]
      exact pc_tick_of_fetch h hstart hs
    hasExecutePhase := fun _ ↦ by
      rw [hnumber]
      exact hphase }
  exact hplaced.underway (by rw [hstate]; decide) (stack_tick_of_t3 hstart hs)

omit hstart in
/-- A machine cycle that fetches follows others that do. -/
theorem cycleKind_of_not_last
    (hends : b.cpu.state.endsCycle ((b.cpu.worked b.pins).boundarySignals b.pins.ready))
    (hmore : ¬b.tick.cpu.operation.cycleCount ≤ b.cpu.cycleNumber.toInt + 1)
    (hk : b.tick.cpu.cycleKind = .pci) : b.cpu.cycleKind = .pci := by
  obtain ⟨-, hnumber⟩ := number_tick_of_not_last h hs hends hmore
  have hnonneg := h.wellFormed.number_nonneg
  by_cases hn : b.cpu.cycleNumber = 0
  · exact (h.wellFormed.fetchesOpcode_iff.mpr hn).1
  · have hoperation := operation_tick_of_t3 h hs
    rw [if_neg hn] at hoperation
    rw [h.tick.wellFormed.cycleKind_eq, hnumber, hoperation] at hk
    rw [h.wellFormed.cycleKind_eq]
    rw [hoperation] at hmore
    exact Operation.cycleKind_of_succ hnonneg (by omega) hk

/-- Where another machine cycle follows, the instruction is still under way. -/
theorem underway_tick_of_not_last
    (hends : b.cpu.state.endsCycle ((b.cpu.worked b.pins).boundarySignals b.pins.ready))
    (hmore : ¬b.tick.cpu.operation.cycleCount ≤ b.cpu.cycleNumber.toInt + 1) :
    start.Underway b.tick.cpu := by
  obtain ⟨hstarts, hnumber⟩ := number_tick_of_not_last h hs hends hmore
  obtain ⟨hexecutes, hfive⟩ := h.tick.wellFormed.executes_of_startsCycle hstarts
  have hnonneg := h.wellFormed.number_nonneg
  have hfetch := cycleKind_of_not_last h hs hends hmore
  have hplaced : start.Placed b.tick.cpu := {
    flags_eq := (flags_datapath_tick_of_t3 hs).trans hstart.flags_eq
    isAcknowledge_iff := fun hn ↦ by
      -- only the first machine cycle of an instruction has the number 0
      rw [cycleNumber_eq_zero_iff] at hn
      omega
    pc_eq := fun hk ↦ by
      have hnext : (b.cpu.cycleNumber.toInt + 1).toNat = b.cpu.cycleNumber.toInt.toNat + 1 := by
        omega
      rw [pc_tick_of_fetch h hstart hs (hfetch hk), bytesTaken, hnumber, hexecutes, hnext]
      rfl
    hasExecutePhase := fun htrue ↦ by
      rw [hexecutes] at htrue
      contradiction }
  exact hplaced.underway hfive (stack_tick_of_t3 hstart hs)

end

/-! ### The execute phase -/

/-- `T4` works on the return stack and the temporary registers only. -/
theorem cpu_tick_of_t4 (hs : b.cpu.state = .t4) :
    b.tick.cpu.flags = b.cpu.flags ∧ b.tick.cpu.pc = b.cpu.pc ∧
      b.tick.cpu.operation = b.cpu.operation ∧
      b.tick.cpu.stack = b.cpu.operation.exchange b.cpu.stack b.cpu.pc := by
  have hframe := prepareResult_frame (b.cpu.sample b.pins.bus b.pins.ready b.pins.interrupt)
  have hstack := stack_prepareResult (b.cpu.sample b.pins.bus b.pins.ready b.pins.interrupt)
  rw [cpu_tick, stepWith_eq, operation_enter, stack_enter, pc_enter, worked_of_t4 hs, hstack,
    hframe, hs]
  exact ⟨rfl, rfl, rfl, rfl⟩

theorem address_tick_of_t4 (h : b.Consistent) (hs : b.cpu.state = .t4) {condition : Condition}
    (ho : b.cpu.operation = .ret condition) :
    addressOf b.tick.cpu.tempA b.tick.cpu.tempB = b.cpu.stack.top := by
  have haligned := h.wellFormed.toAligned.sample b.pins.bus b.pins.ready b.pins.interrupt
  have haddress := address_prepareResult _ haligned ho
  rw [cpu_tick, stepWith_eq, worked_of_t4 hs, hs]
  exact haddress

theorem underway_tick_of_t4 (h : b.Consistent) (hstart : start.Underway b.cpu)
    (hs : b.cpu.state = .t4) : start.Underway b.tick.cpu := by
  have hstate : b.tick.cpu.state = .t5 := by rw [state_tick, hs, TState.next]
  obtain ⟨hkind, hnumber, hack, -⟩ := place_tick (b := b) (by rw [hstate]; rfl)
  obtain ⟨hflags, hpc, hoperation, hstack⟩ := cpu_tick_of_t4 hs
  have hbefore := h.wellFormed.executes_iff.mpr (.inl hs)
  have hexecutes := h.tick.wellFormed.executes_iff.mpr (.inr hstate)
  have hfour : b.cpu.stack = start.stack := hstart.stack_eq (by rw [hs]; decide)
  exact {
    flags_eq := hflags.trans hstart.flags_eq
    isAcknowledge_iff := by
      rw [hnumber, hack]
      exact hstart.isAcknowledge_iff
    pc_eq := by
      rw [hkind, hpc, bytesTaken, hnumber, hexecutes, ← hbefore]
      exact hstart.pc_eq
    hasExecutePhase := fun _ ↦ by
      rw [hoperation, hnumber, hflags]
      exact hstart.hasExecutePhase hbefore
    stack_eq := fun hne ↦ absurd hstate hne
    stack_of_t5 := fun _ ↦ by rw [hstack, hoperation, hpc, hfour]
    top_eq := fun _ condition ho ↦ by
      rw [address_tick_of_t4 h hs (hoperation.symm.trans ho), hfour] }

/-- `T5` leaves the return stack alone, and ends a return at the address that was popped. -/
theorem stack_tick_of_t5 (hs : b.cpu.state = .t5) : b.tick.cpu.stack = b.cpu.stack := by
  rw [cpu_tick, stepWith_eq, stack_enter, worked_of_t5 hs, storeResult_frame]
  rfl

theorem pc_tick_of_ret (hs : b.cpu.state = .t5) {condition : Condition}
    (ho : b.cpu.operation = .ret condition) :
    b.tick.cpu.pc = addressOf b.cpu.tempA b.cpu.tempB := by
  have hsample : (b.cpu.sample b.pins.bus b.pins.ready b.pins.interrupt).operation =
      .ret condition := ho
  rw [cpu_tick, stepWith_eq, pc_enter, worked_of_t5 hs, storeResult, hsample]
  rfl

/-! ### Whole instructions -/

/-- An instruction whose last machine cycle has no execute phase makes no transfer. -/
theorem transfer?_eq_none {finish : Processor} {cycle : Int}
    (hlt : cycle < finish.operation.cycleCount) (hlast : finish.operation.cycleCount ≤ cycle + 1)
    (hphase : finish.operation.hasExecutePhase cycle
      (finish.operation.condition.holds start.flags) = false) :
    start.transfer? finish = none := by
  rw [transfer?]
  cases ho : finish.operation with
  | call condition =>
    rw [ho] at hlt hlast hphase
    have hcycle : cycle = 2 := by
      simp only [Operation.cycleCount] at hlt hlast
      omega
    have hnot : condition.holds start.flags = false := by
      simpa [Operation.hasExecutePhase, Operation.condition, hcycle] using hphase
    exact if_neg (Bool.eq_false_iff.mp hnot)
  | ret condition =>
    have hnot : condition.holds start.flags = false := by
      rw [ho] at hphase
      exact hphase
    exact if_neg (Bool.eq_false_iff.mp hnot)
  | restart vector =>
    rw [ho] at hphase
    contradiction
  | _ => rfl

/-- An instruction that ends with `T3` makes no transfer. -/
theorem transfer_of_t3 (h : b.Consistent) (hstart : start.Underway b.cpu)
    (hs : b.cpu.state = .t3) (hboundary : b.tick.atBoundary) :
    b.tick.cpu.stack = start.stack ∧ start.transfer? b.tick.cpu = none := by
  have hexecutes : (b.cpu.worked b.pins).executes = false ∧
      b.tick.cpu.operation.cycleCount ≤ b.cpu.cycleNumber.toInt + 1 := by
    cases hhalts : (b.cpu.worked b.pins).halts with
    | true =>
      have hoperation : b.tick.cpu.operation = .halt := by
        rw [cpu_tick, operation_stepWith, operation_of_halts _ hhalts]
      have hnonneg := h.wellFormed.number_nonneg
      rw [executes_worked_of_t3 hs, hoperation, Operation.cycleCount_halt]
      exact ⟨Operation.hasExecutePhase_halt, by omega⟩
    | false =>
      cases hexecutes : (b.cpu.worked b.pins).executes with
      | true => exact absurd hboundary (ahead_tick_of_executes h hs hhalts hexecutes []).1
      | false =>
        refine ⟨rfl, ?_⟩
        by_contra hmore
        obtain ⟨hstate, hne, -⟩ :=
          cyclesLeft_tick_of_not_last h hs (.inr ⟨hs, hhalts, hexecutes⟩) hmore
        rcases hboundary with hstarts | hstopped
        · exact hne hstarts.2
        · rw [hstate] at hstopped
          contradiction
  have hphase := (executes_worked_of_t3 hs).symm.trans hexecutes.1
  have hflags : b.tick.datapath.flags = start.flags :=
    (flags_datapath_tick_of_t3 hs).trans hstart.flags_eq
  have hlt := (h.wellFormed.aligned_worked (x := b.pins)).number_lt
  rw [cycleNumber_worked, ← operation_stepWith, ← cpu_tick] at hlt
  rw [hflags] at hphase
  exact ⟨stack_tick_of_t3 hstart hs, transfer?_eq_none hlt hexecutes.2 hphase⟩

/-- An instruction that ends with `T5` makes the transfer that its operation asks for. -/
theorem transfer_of_t5 (h : b.Consistent) (hstart : start.Underway b.cpu)
    (hs : b.cpu.state = .t5) :
    b.tick.cpu.stack = start.stack.play (start.transfer? b.tick.cpu).toList ∧
      start.stack.Serves (start.transfer? b.tick.cpu).toList := by
  have hexecutes := h.wellFormed.executes_iff.mpr (.inr hs)
  have hphase := hstart.hasExecutePhase hexecutes
  have hstack := hstart.stack_of_t5 hs
  have hlt := h.wellFormed.number_lt
  have hnonneg := h.wellFormed.number_nonneg
  have hkind := h.wellFormed.cycleKind_eq
  have hpc (hfetch : b.cpu.cycleKind = .pci) :
      b.cpu.pc = start.addressAfter (b.cpu.cycleNumber.toInt.toNat + 1) := by
    have hpc := hstart.pc_eq hfetch
    rw [bytesTaken, hexecutes] at hpc
    exact hpc
  rw [hstart.flags_eq] at hphase
  rw [stack_tick_of_t5 hs, transfer?, operation_tick_of_t5 hs, hstack]
  cases ho : b.cpu.operation with
  | call condition =>
    rw [ho] at hphase hkind
    obtain ⟨hcycle, hholds⟩ : b.cpu.cycleNumber.toInt = 2 ∧ condition.holds start.flags = true := by
      simpa [Operation.hasExecutePhase, Operation.condition] using hphase
    have hthird : b.cpu.pc = start.addressAfter 3 := by
      rw [hpc (by rw [hkind, hcycle]; rfl), hcycle]
      rfl
    simp only [hholds, if_true, hthird]
    exact ⟨rfl, fun target heq ↦ by contradiction, trivial⟩
  | restart vector =>
    rw [ho] at hkind hlt
    have hcycle : b.cpu.cycleNumber.toInt = 0 := by
      simp only [Operation.cycleCount] at hlt
      omega
    have hfirst : b.cpu.pc = start.addressAfter 1 := by
      rw [hpc (by rw [hkind, hcycle]; rfl), hcycle]
      rfl
    simp only [hfirst]
    exact ⟨rfl, fun target heq ↦ by contradiction, trivial⟩
  | ret condition =>
    rw [ho] at hphase
    have hholds : condition.holds start.flags = true := hphase
    have htarget : b.tick.cpu.pc = start.stack.top :=
      (pc_tick_of_ret hs ho).trans (hstart.top_eq hs condition ho)
    simp only [hholds, if_true, htarget]
    refine ⟨rfl, fun target heq ↦ ?_, trivial⟩
    exact (Transfer.ret.inj heq).symm
  | _ => exact ⟨rfl, trivial⟩

/-- An instruction does to the return stack what its transfer says. -/
theorem play_transfer (h : b.Consistent) (hstart : start.Underway b.cpu)
    (hs : b.cpu.state ≠ .stopped) (hboundary : b.tick.atBoundary) :
    b.tick.cpu.stack = start.stack.play (start.transfer? b.tick.cpu).toList ∧
      start.stack.Serves (start.transfer? b.tick.cpu).toList := by
  cases hstate : b.cpu.state with
  | stopped => exact absurd hstate hs
  | t3 =>
    obtain ⟨hstack, htransfer⟩ := transfer_of_t3 h hstart hstate hboundary
    rw [htransfer]
    exact ⟨hstack, trivial⟩
  | t4 => exact absurd hboundary (ahead_tick_of_t4 hstate []).1
  | t5 => exact transfer_of_t5 h hstart hstate
  | t1 | t1i | t2 | wait =>
    have hprecedes : b.cpu.state.precedesT3 = true := by rw [hstate]; rfl
    exact absurd hboundary (reaches_tick_of_precedesT3 hprecedes).2

/-- An instruction stays under way until the next boundary. -/
theorem underway_tick (h : b.Consistent) (hstart : start.Underway b.cpu)
    (hs : b.cpu.state ≠ .stopped) (hboundary : ¬b.tick.atBoundary) :
    start.Underway b.tick.cpu := by
  cases hstate : b.cpu.state with
  | stopped => exact absurd hstate hs
  | t4 => exact underway_tick_of_t4 h hstart hstate
  | t5 => exact absurd (.inl (startsInstruction_tick_of_t5 h hstate)) hboundary
  | t1 | t1i | t2 | wait => exact underway_tick_of_precedesT3 hstart (by rw [hstate]; rfl)
  | t3 =>
    cases hhalts : (b.cpu.worked b.pins).halts with
    | true => exact absurd (ahead_tick_of_halts h hstate hhalts []).1 hboundary
    | false =>
      cases hexecutes : (b.cpu.worked b.pins).executes with
      | true => exact underway_tick_of_executes h hstart hstate hhalts hexecutes
      | false =>
        have hends : b.cpu.state.endsCycle ((b.cpu.worked b.pins).boundarySignals b.pins.ready) :=
          .inr ⟨hstate, hhalts, hexecutes⟩
        refine underway_tick_of_not_last h hstart hstate hends fun hlast ↦ ?_
        exact hboundary (.inl (startsInstruction_tick h hends hlast))

/-! ### Runs -/

/-- The first state of the instruction that runs when the next tick begins, where `start` is that of
the one before. -/
def originOf (b : Board) (start : Processor) : Processor :=
  if b.startsInstruction then b.cpu else start

/-- The transfer of the instruction that ends with the next tick, if one ends there. -/
def finishing (b : Board) (start : Processor) : List Transfer :=
  if b.cpu.state ≠ .stopped ∧ b.tick.atBoundary then
    ((b.originOf start).transfer? b.tick.cpu).toList
  else []

/-- The transfers that instructions make during ticks that begin at the boards of a list, where
`start` is the first state of the instruction that is under way at first. -/
def transfersFrom (start : Processor) : List Board → List Transfer
  | [] => []
  | b :: rest => b.finishing start ++ transfersFrom (b.originOf start) rest

/-- The transfers that are made during actions, from a board at a boundary on. -/
def transfers (b : Board) (actions : List Action) : List Transfer :=
  transfersFrom b.cpu (b.timeline actions)

/-- The instruction under way, if there is one, began with `start`. -/
def Tracks (b : Board) (start : Processor) : Prop := b.atBoundary ∨ start.Underway b.cpu

/-- The return stack as the instruction under way has found it. -/
def stackBefore (b : Board) (start : Processor) : ReturnStack :=
  if b.atBoundary then b.cpu.stack else start.stack

/-- The return stack serves the transfers made during ticks. -/
def Served (b : Board) (start : Processor) (ticks : List Board) : Prop :=
  (b.stackBefore start).Serves (transfersFrom start ticks)

/-- A halted processor stays so, or starts to answer an interrupt. -/
theorem tick_of_stopped (h : b.Consistent) (hs : b.cpu.state = .stopped) :
    b.tick.atBoundary ∧ b.tick.cpu.stack = b.cpu.stack := by
  have hworked : b.cpu.worked b.pins = b.cpu.sample b.pins.bus b.pins.ready b.pins.interrupt := by
    apply worked_of_idle <;> rw [hs] <;> decide
  have hnext := b.state_tick
  rw [hs, TState.next] at hnext
  constructor
  · split at hnext
    next =>
      have hwellFormed := h.tick.wellFormed
      have hnumber := hwellFormed.number_of_isAcknowledge (hwellFormed.isAcknowledge_of_t1i hnext)
      exact .inl ⟨by rw [hnext]; rfl, hnumber⟩
    next => exact .inr hnext
  · rw [cpu_tick, stepWith_eq, stack_enter, hworked]
    rfl

/-- The instruction that runs began where it is said to have begun. -/
theorem Tracks.underway (h : b.Consistent) (htracks : b.Tracks start) (hs : b.cpu.state ≠ .stopped) :
    (b.originOf start).Underway b.cpu ∧ b.stackBefore start = (b.originOf start).stack := by
  rw [originOf, stackBefore]
  by_cases hstarts : b.startsInstruction
  · rw [if_pos hstarts, if_pos (.inl hstarts)]
    exact ⟨underway_self h.wellFormed hstarts.1 hstarts.2, rfl⟩
  · have hnot : ¬b.atBoundary := not_or.mpr ⟨hstarts, hs⟩
    rw [if_neg hstarts, if_neg hnot]
    exact ⟨htracks.resolve_left hnot, rfl⟩

/-- What a tick adds to the transfers is served by the stack that the instruction has found, and
leads to the stack that is found after it. -/
theorem finishing_served (h : b.Consistent) (htracks : b.Tracks start) :
    b.tick.Tracks (b.originOf start) ∧ (b.stackBefore start).Serves (b.finishing start) ∧
      b.tick.stackBefore (b.originOf start) = (b.stackBefore start).play (b.finishing start) := by
  by_cases hs : b.cpu.state = .stopped
  · obtain ⟨hboundary, hstack⟩ := tick_of_stopped h hs
    have hfound : b.stackBefore start = b.cpu.stack := if_pos (.inr hs)
    have hleft : b.tick.stackBefore (b.originOf start) = b.tick.cpu.stack := if_pos hboundary
    rw [finishing, if_neg fun hrunning ↦ hrunning.1 hs, hfound, hleft, hstack]
    exact ⟨.inl hboundary, trivial, rfl⟩
  obtain ⟨horigin, hfound⟩ := htracks.underway h hs
  rw [hfound, finishing, stackBefore.eq_def b.tick]
  by_cases hboundary : b.tick.atBoundary
  · obtain ⟨hplay, hserves⟩ := play_transfer h horigin hs hboundary
    rw [if_pos ⟨hs, hboundary⟩, if_pos hboundary]
    exact ⟨.inl hboundary, hserves, hplay⟩
  · rw [if_neg fun hfinish ↦ hboundary hfinish.2, if_neg hboundary]
    exact ⟨.inr (underway_tick h horigin hs hboundary), trivial, rfl⟩

theorem served_cons {rest : List Board} (h : b.Consistent) (htracks : b.Tracks start)
    (hrest : b.tick.Tracks (b.originOf start) → b.tick.Served (b.originOf start) rest) :
    b.Served start (b :: rest) := by
  obtain ⟨htick, hserves, hplay⟩ := finishing_served h htracks
  have hlater := hrest htick
  rw [Served, hplay] at hlater
  exact ReturnStack.serves_append.mpr ⟨hserves, hlater⟩

/-- Ticks one after the other, and what comes after them. -/
theorem served_iterate {rest : List Board} (h : b.Consistent) (htracks : b.Tracks start) (n : Nat)
    (hrest : ∀ origin, (tick^[n] b).Tracks origin → (tick^[n] b).Served origin rest) :
    b.Served start (List.iterate tick b n ++ rest) := by
  induction n generalizing b start with
  | zero => exact hrest start htracks
  | succ n ih => exact served_cons h htracks fun htick ↦ ih h.tick htick hrest

theorem tracks_congr {c : Board} (hcpu : c.cpu = b.cpu) : c.Tracks start ↔ b.Tracks start := by
  simp only [Tracks, atBoundary, startsInstruction, hcpu]

/-- What the host does between ticks does not matter: transfers depend on the processor only. -/
theorem served_congr {c : Board} {ticks : List Board} (hcpu : c.cpu = b.cpu) :
    c.Served start ticks ↔ b.Served start ticks := by
  have hiff : c.atBoundary ↔ b.atBoundary := by simp only [atBoundary, startsInstruction, hcpu]
  simp only [Served, stackBefore, hiff, hcpu]

theorem served_perform {a : Action} {rest : List Board} (h : b.Consistent)
    (ha : a.setsIr = false ∧ a.resets = false) (htracks : b.Tracks start)
    (hrest : ∀ origin, (b.perform a).Tracks origin → (b.perform a).Served origin rest) :
    b.Served start (b.ticked a ++ rest) := by
  have hkept (hcpu : (b.perform a).cpu = b.cpu) : b.Served start rest :=
    (served_congr hcpu).mp (hrest start ((tracks_congr hcpu).mpr htracks))
  cases a with
  | tick => exact served_cons h htracks (hrest _)
  | run budget =>
    have hcpu : (b.run budget).board.cpu = (tick^[b.ticksOf budget] b).cpu := by rw [run_frame]
    refine served_iterate h htracks _ fun origin horigin ↦ ?_
    exact (served_congr hcpu).mp (hrest origin ((tracks_congr hcpu).mpr horigin))
  | load bytes origin => exact hkept (by rw [perform_load_frame])
  | poke address value => exact hkept (by rw [perform_poke_frame])
  | reset => exact absurd ha.2 (by decide)
  | setIr ir => exact absurd ha.1 (by simp [Action.setsIr])
  | _ => exact hkept rfl

/-- The transfers made during actions are those that the return stack serves. -/
theorem served_timeline {actions : List Action} (h : b.Consistent)
    (ha : ∀ a ∈ actions, a.setsIr = false ∧ a.resets = false) (htracks : b.Tracks start) :
    b.Served start (b.timeline actions) := by
  induction actions generalizing b start with
  | nil => exact trivial
  | cons a actions ih =>
    obtain ⟨hfirst, hrest⟩ := List.forall_mem_cons.mp ha
    exact served_perform h hfirst htracks fun origin horigin ↦
      ih (invariant_consistent.perform h hfirst.1) hrest horigin

/-- The return addresses of calls have 14 bits. -/
theorem mod_of_mem_transfersFrom {ticks : List Board} {address : UInt16}
    (h : .call address ∈ transfersFrom start ticks) : address % addressSpace = address := by
  induction ticks generalizing start with
  | nil => contradiction
  | cons c ticks ih =>
    rcases List.mem_append.mp h with h | h
    · rw [finishing] at h
      split at h
      · exact mod_of_transfer? _ (Option.mem_toList.mp h)
      · contradiction
    · exact ih h

/-- **Every return goes back to its own call.** From a fresh board on, or from any other that can be
reached and is at a boundary, let actions of the host lead to a call and a return that belongs to
it, with any memory, waits and interrupts. If no more than eight frames are open in between, that of
the call included, the return goes to the address that the call stood for. Otherwise the slot of the
call has been used again, and the return goes to the address of the last call that used it. -/
theorem returns_paired {b : Board} (h : b.Reachable) (hb : b.atBoundary) {actions : List Action}
    (ha : ∀ a ∈ actions, a.setsIr = false ∧ a.resets = false)
    {before between after : List Transfer} {address target : UInt16}
    (htransfers : b.transfers actions =
      before ++ .call address :: (between ++ .ret target :: after))
    (hbalanced : Transfer.Balanced between) :
    ((∀ p, p <+: between → Transfer.framesOpen p ≤ 8) → target = address) ∧
    ((∃ p, p <+: between ∧ 8 < Transfer.framesOpen p) →
      (Transfer.overwriting 1 between).getLast? = some target) := by
  have hserved : (b.stackBefore b.cpu).Serves (b.transfers actions) :=
    served_timeline h.consistent ha (.inl hb)
  have hmod (a : UInt16) (hmem : .call a ∈ b.transfers actions) : a % addressSpace = a :=
    mod_of_mem_transfersFrom hmem
  rw [htransfers] at hserved hmod
  -- the return finds on top what the transfers before it have left there
  obtain ⟨-, -, hafterCall⟩ := ReturnStack.serves_append.mp hserved
  have htarget := (ReturnStack.serves_append.mp hafterCall).2.1 target rfl
  rw [ReturnStack.after, ReturnStack.top_play (hmod address (by simp)) hbalanced
    fun a hmem ↦ hmod a (by simp [hmem])] at htarget
  have hnil : Transfer.overwriting 1 between = [] ↔
      ∀ p, p <+: between → Transfer.framesOpen p ≤ 8 :=
    Transfer.overwriting_eq_nil_iff (by decide) fun p hp ↦
      Int.le_add_of_nonneg_right (hbalanced.nonneg p hp)
  constructor
  · intro hle
    rw [hnil.mpr hle] at htarget
    exact htarget
  · rintro ⟨p, hp, hninth⟩
    have hne : Transfer.overwriting 1 between ≠ [] := fun hnone ↦
      Int.not_lt.mpr (hnil.mp hnone p hp) hninth
    rw [List.getLast?_eq_some_getLast hne] at htarget ⊢
    rw [htarget]
    rfl

/-- On a fresh board, with a memory of halt instructions, nine restarts and as many returns, each
the answer to an interrupt of its own. -/
def nineRestarts : List Action :=
  [1, 2, 3, 4, 5, 6, 7, 1, 2].flatMap (fun vector ↦ [.requestRestart vector, .run 30]) ++
    (List.replicate 9 [.requestInterrupt 0x07, .run 30]).flatten

/-- What happens between the first restart and the last return. -/
def withinFirst : List Transfer :=
  [.call 9, .call 17, .call 25, .call 33, .call 41, .call 49, .call 57, .call 9,
    .ret 9, .ret 57, .ret 49, .ret 41, .ret 33, .ret 25, .ret 17, .ret 9]

/-- The first restart was to return to address 0, but the ninth one has overwritten it. -/
theorem nineRestarts_returned :
    ({} : Board).transfers nineRestarts = [] ++ .call 0 :: (withinFirst ++ .ret 9 :: []) ∧
      (Transfer.overwriting 1 withinFirst).getLast? = some 9 := by
  have htransfers : ({} : Board).transfers nineRestarts =
      [] ++ .call 0 :: (withinFirst ++ .ret 9 :: []) := by decide +kernel
  have hbalanced : Transfer.Balanced withinFirst := by
    refine ⟨fun p hp ↦ ?_, by decide⟩
    have hall : ∀ n < 17, 0 ≤ Transfer.depth (withinFirst.take n) := by decide
    rw [List.prefix_iff_eq_take.mp hp]
    exact hall _ (Nat.lt_succ_of_le hp.length_le)
  have hpaired := returns_paired Reachable.fresh (by decide) (by decide) htransfers hbalanced
  exact ⟨htransfers, hpaired.2 ⟨withinFirst.take 8, List.take_prefix .., by decide⟩⟩

end Board

end Mcs8
