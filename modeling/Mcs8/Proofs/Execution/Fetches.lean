import Mcs8.Proofs.Execution.Calls

/-!
# Fetched bytes

The machine cycles that fetch bytes of the program are the first ones of an instruction, and there
are as many of them as the instruction has bytes (`Operation.cycleKind_eq_pci_iff`). So from any
state of an instruction it is settled which of its bytes are still to be fetched
(`Board.bytesLeft`), and a tick fetches the first of them or none (`bytesLeft_tick`). Each is found
at the address that comes after those before it, and in memory as the instruction has found it, for
a write is never followed by a fetch (`fetches_driveAll`).
-/

namespace Mcs8

namespace Operation

theorem length_le_cycleCount (o : Operation) : o.length ≤ o.cycleCount := by
  have hpos := o.cycleCount_pos
  cases o with
  | moveImmediate dst => cases dst <;> decide
  | aluImmediate | jump | call => exact Nat.le_refl _
  | _ => exact hpos

/-- The fetches come first, one for each byte. -/
theorem cycleKind_eq_pci_iff {o : Operation} {cycle : Nat} (h : cycle < o.cycleCount) :
    o.cycleKind cycle = .pci ↔ cycle < o.length := by
  rcases cycle.eq_zero_or_pos with rfl | hpos
  · exact iff_of_true rfl o.length_pos
  have hne : (cycle : Int) ≠ 0 := by omega
  have hnot : ¬cycle < 1 := by omega
  unfold cycleKind
  rw [if_neg hne]
  cases o with
  | move dst _ => cases dst <;> exact iff_of_false nofun hnot
  | alu | input | output => exact iff_of_false nofun hnot
  | moveImmediate dst =>
    have hle : cycle < 3 := Nat.lt_of_lt_of_le h (cycleCount_le _)
    show (if (cycle : Int) = 2 then CycleKind.pcw else .pci) = .pci ↔ cycle < 2
    split
    · exact iff_of_false nofun (by omega)
    · exact iff_of_true rfl (by omega)
  | aluImmediate | jump | call => exact iff_of_true rfl h
  | _ => exact absurd h hnot

end Operation

namespace Board

open Processor

variable {b : Board} {start : Processor}

/-- The bytes of the running instruction that are still to be fetched, by their numbers. -/
def bytesLeft (b : Board) : List Nat :=
  if b.cpu.state.precedesT3 = true ∨ b.cpu.state = .t3 then
    (List.range b.runningOperation.length).drop b.cpu.cycleNumber.toInt.toNat
  else []

/-- A tick fetches a byte of the program. -/
def isFetch (b : Board) : Prop := b.cpu.state = .t3 ∧ b.cpu.cycleKind = .pci

instance : Decidable b.isFetch := inferInstanceAs (Decidable (_ ∧ _))

/-- The fetches among ticks, each with its address and the byte on the bus. -/
def fetches (ticks : List Board) : List (UInt16 × UInt8) :=
  (ticks.filter fun b ↦ b.isFetch).map fun b ↦ (b.latch.address, b.settle.bus)

theorem fetches_cons (ticks : List Board) : fetches (b :: ticks) =
    (if b.isFetch then [(b.latch.address, b.settle.bus)] else []) ++ fetches ticks := by
  simp only [fetches, List.filter_cons]
  split <;> simp_all

/-! ### The bytes that are left -/

/-- The running machine cycle fetches the first byte that is left, if it fetches any. -/
theorem drop_of_running (h : b.Consistent) :
    (List.range b.runningOperation.length).drop b.cpu.cycleNumber.toInt.toNat =
      (if b.cpu.cycleKind = .pci then [b.cpu.cycleNumber.toInt.toNat] else []) ++
        (List.range b.runningOperation.length).drop (b.cpu.cycleNumber.toInt.toNat + 1) := by
  obtain ⟨hlt, hkind⟩ := cycleKind_running h
  have hiff := Operation.cycleKind_eq_pci_iff hlt
  rw [h.toNat_number, hkind] at hiff
  by_cases hk : b.cpu.cycleKind = .pci
  · have hrange := hiff.mp hk
    rw [if_pos hk, List.drop_eq_getElem_cons (by rwa [List.length_range]), List.getElem_range]
    rfl
  · have hle := Nat.not_lt.mp (hiff.not.mp hk)
    rw [if_neg hk, List.drop_eq_nil_of_le (by rwa [List.length_range]),
      List.drop_eq_nil_of_le (by rw [List.length_range]; omega)]
    rfl

/-- In the execute phase all bytes are fetched. -/
theorem bytesLeft_of_executing (hs : b.cpu.state = .t4 ∨ b.cpu.state = .t5) : b.bytesLeft = [] := by
  refine if_neg ?_
  rcases hs with hs | hs <;> rw [hs] <;> decide

theorem bytesLeft_tick_of_precedesT3 (h : b.Consistent) (hs : b.cpu.state.precedesT3 = true) :
    ¬b.tick.atBoundary ∧ b.tick.bytesLeft = b.bytesLeft := by
  obtain ⟨hreaches, hnot⟩ := reaches_tick_of_precedesT3 hs
  obtain ⟨-, -, hnumber, -⟩ := cpu_tick_of_precedesT3 hs
  refine ⟨hnot, ?_⟩
  rw [bytesLeft, if_pos hreaches, bytesLeft, if_pos (.inl hs), hnumber, runningOperation,
    runningOpcode_tick_of_precedesT3 h hs, runningOperation]

/-- The last machine cycle leaves no bytes, whether an execute phase follows or not. -/
theorem drop_of_last (h : b.Consistent) (hs : b.cpu.state = .t3)
    (hlast : b.tick.cpu.operation.cycleCount ≤ b.cpu.cycleNumber.toInt + 1) :
    (List.range b.runningOperation.length).drop (b.cpu.cycleNumber.toInt.toNat + 1) = [] := by
  have hnumber := h.toNat_number
  have hlength := b.runningOperation.length_le_cycleCount
  rw [operation_tick_eq_runningOperation h hs] at hlast
  exact List.drop_eq_nil_of_le (by rw [List.length_range]; omega)

/-- Any other machine cycle leaves the bytes after its own to the next one. -/
theorem bytesLeft_tick_of_not_last (h : b.Consistent) (hs : b.cpu.state = .t3)
    (hends : b.cpu.state.endsCycle ((b.cpu.worked b.pins).boundarySignals b.pins.ready))
    (hmore : ¬b.tick.cpu.operation.cycleCount ≤ b.cpu.cycleNumber.toInt + 1) :
    ¬b.tick.atBoundary ∧ b.tick.bytesLeft =
      (List.range b.runningOperation.length).drop (b.cpu.cycleNumber.toInt.toNat + 1) := by
  obtain ⟨hstate, hne, -⟩ := cyclesLeft_tick_of_not_last h hs hends hmore
  obtain ⟨-, hnext⟩ := number_tick_of_not_last h hs hends hmore
  have hnumber := h.toNat_number
  have hopcode := runningOpcode_tick h
  have hnot : ¬b.tick.atBoundary := by
    rintro (hstarts | hstopped)
    · exact hne hstarts.2
    · rw [hstate] at hstopped
      contradiction
  have htoNat : b.tick.cpu.cycleNumber.toInt.toNat = b.cpu.cycleNumber.toInt.toNat + 1 := by omega
  rw [if_neg hnot] at hopcode
  refine ⟨hnot, ?_⟩
  rw [bytesLeft, if_pos (.inl (by rw [hstate]; rfl)), runningOperation, hopcode, htoNat,
    runningOperation]

/-- After `T3` the bytes are left that come after the one of the machine cycle. -/
theorem bytesLeft_tick_of_t3 (h : b.Consistent) (hs : b.cpu.state = .t3) :
    (if b.tick.atBoundary then [] else b.tick.bytesLeft) =
      (List.range b.runningOperation.length).drop (b.cpu.cycleNumber.toInt.toNat + 1) := by
  cases hhalts : (b.cpu.worked b.pins).halts with
  | true =>
    have hhalt : b.tick.cpu.operation = .halt := by
      rw [cpu_tick, operation_stepWith, operation_of_halts _ hhalts]
    have hnonneg := h.wellFormed.number_nonneg
    have hlast : b.tick.cpu.operation.cycleCount ≤ b.cpu.cycleNumber.toInt + 1 := by
      rw [hhalt, Operation.cycleCount_halt]
      omega
    rw [if_pos (ahead_tick_of_halts h hs hhalts []).1, drop_of_last h hs hlast]
  | false =>
    cases hexecutes : (b.cpu.worked b.pins).executes with
    | true =>
      have hstate : b.tick.cpu.state = .t4 := by
        rw [state_tick]
        exact TState.next_eq_t4_iff.mpr ⟨hs, hhalts, hexecutes⟩
      have hlast := Int.le_of_eq (cycleCount_tick_of_executes h hs hexecutes).symm
      rw [drop_of_last h hs hlast, bytesLeft_of_executing (.inl hstate), ite_self]
    | false =>
      have hends : b.cpu.state.endsCycle ((b.cpu.worked b.pins).boundarySignals b.pins.ready) :=
        .inr ⟨hs, hhalts, hexecutes⟩
      by_cases hlast : b.tick.cpu.operation.cycleCount ≤ b.cpu.cycleNumber.toInt + 1
      · rw [if_pos (.inl (startsInstruction_tick h hends hlast)), drop_of_last h hs hlast]
      · obtain ⟨hnot, hleft⟩ := bytesLeft_tick_of_not_last h hs hends hlast
        rw [if_neg hnot, hleft]

/-- A tick fetches the first byte that is left, or none, and leaves the others. -/
theorem bytesLeft_tick (h : b.Consistent) (hs : b.cpu.state ≠ .stopped) : b.bytesLeft =
    (if b.isFetch then [b.cpu.cycleNumber.toInt.toNat] else []) ++
      if b.tick.atBoundary then [] else b.tick.bytesLeft := by
  have hother (hne : b.cpu.state ≠ .t3) : ¬b.isFetch := fun hfetch ↦ hne hfetch.1
  cases hstate : b.cpu.state with
  | stopped => exact absurd hstate hs
  | t3 =>
    rw [bytesLeft_tick_of_t3 h hstate, bytesLeft, if_pos (.inr hstate), drop_of_running h]
    simp only [isFetch, hstate, true_and]
  | t4 =>
    have hnext : b.tick.cpu.state = .t5 := by rw [state_tick, hstate, TState.next]
    rw [if_neg (hother (by rw [hstate]; decide)), bytesLeft_of_executing (.inl hstate),
      bytesLeft_of_executing (.inr hnext), ite_self, List.nil_append]
  | t5 =>
    rw [if_neg (hother (by rw [hstate]; decide)),
      if_pos (.inl (startsInstruction_tick_of_t5 h hstate)), bytesLeft_of_executing (.inr hstate),
      List.nil_append]
  | t1 | t1i | t2 | wait =>
    have hprecedes : b.cpu.state.precedesT3 = true := by rw [hstate]; rfl
    obtain ⟨hnot, hleft⟩ := bytesLeft_tick_of_precedesT3 h hprecedes
    rw [if_neg (hother (by rw [hstate]; decide)), if_neg hnot, hleft, List.nil_append]

/-! ### What is fetched -/

/-- A fetch finds its byte at the address that comes after the bytes before it. -/
theorem fetch_eq (h : b.Consistent) (hstart : start.Underway b.cpu) (hs : start.state = .t1)
    (hfetch : b.isFetch) : (b.latch.address, b.settle.bus) =
      (start.addressAfter b.cpu.cycleNumber.toInt.toNat,
        b.byteAt (start.addressAfter b.cpu.cycleNumber.toInt.toNat).toNat) := by
  obtain ⟨hstate, hk⟩ := hfetch
  have hexecutes : b.cpu.executes = false := by
    apply h.wellFormed.executes_eq_false <;> rw [hstate] <;> decide
  have hpc := hstart.pc_eq hk
  rw [bytesTaken, hexecutes, Bool.toNat_false, Nat.add_zero] at hpc
  -- only an instruction that starts with `T1I` is brought in by an acknowledge
  have hack : b.cpu.isAcknowledge = false := by
    rw [Bool.eq_false_iff]
    intro hack
    have hjammed := (hstart.isAcknowledge_iff (h.wellFormed.number_of_isAcknowledge hack)).mp hack
    rw [hs] at hjammed
    contradiction
  have haddress : b.latch.address = b.cpu.pc := by
    rw [h.latched.address_eq h.wellFormed (by rw [hstate]; rfl), h.wellFormed.sentAddress_eq, hk]
  have hbus : b.settle.bus = b.byteAt b.cpu.pc.toNat := by
    rw [settle_bus_of_t3 h hstate, hk, hack]
    rfl
  rw [haddress, hbus, hpc]

/-- Where the instruction goes on with a fetch, it has only fetched so far. -/
theorem cycleKind_of_tick (h : b.Consistent) (hs : b.cpu.state ≠ .stopped)
    (hnot : ¬b.tick.atBoundary) (hk : b.tick.cpu.cycleKind = .pci) : b.cpu.cycleKind = .pci := by
  cases hstate : b.cpu.state with
  | stopped => exact absurd hstate hs
  | t3 =>
    cases hhalts : (b.cpu.worked b.pins).halts with
    | true => exact absurd (ahead_tick_of_halts h hstate hhalts []).1 hnot
    | false =>
      cases hexecutes : (b.cpu.worked b.pins).executes with
      | true =>
        have hnext : b.tick.cpu.state = .t4 := by
          rw [state_tick]
          exact TState.next_eq_t4_iff.mpr ⟨hstate, hhalts, hexecutes⟩
        rwa [cycleKind_tick (by rw [hnext]; rfl)] at hk
      | false =>
        have hends : b.cpu.state.endsCycle ((b.cpu.worked b.pins).boundarySignals b.pins.ready) :=
          .inr ⟨hstate, hhalts, hexecutes⟩
        exact cycleKind_of_not_last h hstate hends
          (fun hlast ↦ hnot (.inl (startsInstruction_tick h hends hlast))) hk
  | t4 =>
    have hnext : b.tick.cpu.state = .t5 := by rw [state_tick, hstate, TState.next]
    rwa [cycleKind_tick (by rw [hnext]; rfl)] at hk
  | t5 => exact absurd (.inl (startsInstruction_tick_of_t5 h hstate)) hnot
  | t1 | t1i | t2 | wait =>
    rwa [(cpu_tick_of_precedesT3 (by rw [hstate]; rfl)).2.1] at hk

/-- A machine cycle that fetches leaves memory alone. -/
theorem memory_tick_of_pci (h : b.Consistent) (hk : b.cpu.cycleKind = .pci) :
    b.tick.memory = b.memory := by
  rw [memory_tick]
  refine if_neg fun ⟨hs, hlatch⟩ ↦ ?_
  rw [h.latched.kind_eq (by rw [hs]; rfl), hk] at hlatch
  contradiction

/-- From any state of an instruction on the bytes are fetched that are left, in order and once
each. -/
theorem fetches_driveAll {memory : Vector UInt8 memoryCapacity} (h : b.Consistent)
    (hstart : start.Underway b.cpu) (hs : start.state = .t1) (hrunning : b.cpu.state ≠ .stopped)
    (hmemory : b.cpu.cycleKind = .pci → b.memory = memory) {schedule : List Stimulus}
    (hreach : b.ReachesBoundary schedule) :
    fetches (b.stages schedule) = b.bytesLeft.map fun n ↦
      (start.addressAfter n, memory[(start.addressAfter n).toNat]?.getD 0) := by
  -- the bytes that are left are the invariant: each tick fetches the first of them or none
  induction schedule generalizing b with
  | nil => exact absurd rfl hreach.ne_nil
  | cons x rest ih =>
    obtain ⟨hconsistent, hcpu, -⟩ := meet_frame h x
    have hmet : (b.meet x).memory = b.memory := by rw [meet_eq]
    have hleft : b.bytesLeft = (b.meet x).bytesLeft := by
      rw [bytesLeft, bytesLeft, runningOperation, runningOperation, (ahead_meet h x).1, hcpu]
    rw [← hcpu] at hstart hrunning hmemory
    rw [← hmet] at hmemory
    rw [hleft, bytesLeft_tick hconsistent hrunning, List.map_append, stages, fetches_cons]
    congr 1
    · split
      next hfetch =>
        rw [fetch_eq hconsistent hstart hs hfetch, byteAt, hmemory hfetch.2]
        rfl
      next => rfl
    · cases rest with
      | nil =>
        have hboundary : (b.meet x).tick.atBoundary := hreach.atBoundary
        rw [if_pos hboundary]
        rfl
      | cons y rest =>
        have hnot : ¬(b.meet x).tick.atBoundary :=
          hreach.not_before 1 (Nat.succ_lt_succ (Nat.succ_pos _)) Nat.one_pos
        rw [if_neg hnot]
        refine ih (h.drive x) (underway_tick hconsistent hstart hrunning hnot)
          (fun hstopped ↦ hnot (.inr hstopped)) (fun hk ↦ ?_) hreach.tail
        have hbefore := cycleKind_of_tick hconsistent hrunning hnot hk
        exact (memory_tick_of_pci hconsistent hbefore).trans (hmemory hbefore)

end Board

end Mcs8
