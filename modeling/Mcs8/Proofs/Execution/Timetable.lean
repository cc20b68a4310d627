import Mathlib
import Mcs8.Instruction.Decode
import Mcs8.MachineCycle

/-!
# The timetable

For each opcode the timetable says which machine cycles its instruction has, and which of them have
five states rather than three. It is looked up by the fields of the opcode, as a manual prints it,
and agrees with what the sequencer is told about the operations (`Timetable.cycles_eq`). From the
cycles and the levels of the ready line follows the sequence of states, the itinerary, with a wait
for each time that the line is found low.
-/

namespace Mcs8

/-- A machine cycle in the timetable: its kind, and whether it has five states or three. -/
structure TimedCycle where
  kind : CycleKind
  isLong : Bool
  deriving DecidableEq

namespace TimedCycle

/-- A machine cycle of three states. -/
def short (kind : CycleKind) : TimedCycle := ⟨kind, false⟩

/-- A machine cycle of five states. -/
def long (kind : CycleKind) : TimedCycle := ⟨kind, true⟩

/-- The number of states, waits not counted. -/
def stateCount (c : TimedCycle) : Nat := if c.isLong then 5 else 3

/-- The states from `T3` on. -/
def lastStates (c : TimedCycle) : List TState := if c.isLong then [.t3, .t4, .t5] else [.t3]

end TimedCycle

namespace Timetable

open TimedCycle

/-! ### Machine cycles -/

section

variable (opcode : Nat) (taken : Bool)

/-- The machine cycles of class 0. The last cycle of a conditional return is long if the return is
taken. -/
def cycles0 : List TimedCycle :=
  let field := opcode / 8 % 8
  match opcode % 8 with
  | 0 | 1 => if field = 0 ∨ field = 7 then [short .pci] else [long .pci]
  | 2 => if field < 4 then [long .pci] else [short .pci]
  | 3 => [⟨.pci, taken⟩]
  | 4 => [short .pci, long .pci]
  | 6 => if field = 7 then [short .pci, short .pci, short .pcw] else [short .pci, long .pci]
  | _ => [long .pci]

/-- The machine cycles of class 1. The last cycle of a conditional jump or call is long if it is
taken. -/
def cycles1 : List TimedCycle :=
  match opcode % 8 with
  | 0 | 2 => [short .pci, short .pci, ⟨.pci, taken⟩]
  | 4 | 6 => [short .pci, short .pci, long .pci]
  | _ => [short .pci, long .pcc]

/-- The machine cycles of an instruction. -/
def cycles : List TimedCycle :=
  match opcode / 64 with
  | 0 => cycles0 opcode taken
  | 1 => cycles1 opcode taken
  | 2 => if opcode % 8 = 7 then [short .pci, long .pcr] else [long .pci]
  | _ =>
    if opcode = 255 then [short .pci]
    else if opcode / 8 % 8 = 7 then [short .pci, short .pcw]
    else if opcode % 8 = 7 then [short .pci, long .pcr]
    else [long .pci]

end

/-! ### States -/

/-- The states of machine cycles in order, each with the kind of its cycle. The first cycle begins
with `start`, and each other one with `T1`. There is one level of the ready line for each state to
come; those in `T2` and in waits are looked at, and each low one makes a wait. -/
def itinerary (start : TState) : List TimedCycle → List Bool → List (TState × CycleKind)
  | [], _ => []
  | cycle :: rest, levels =>
    let waits := (levels.tail.takeWhile fun ready ↦ !ready).length
    let states := start :: .t2 :: (List.replicate waits .wait ++ cycle.lastStates)
    states.map (·, cycle.kind) ++ itinerary .t1 rest (levels.drop states.length)

end Timetable

/-! ### The timetable and the operations -/

namespace Operation

variable (o : Operation) (conditionHeld : Bool)

/-- A machine cycle of an operation. -/
def cycle (number : Nat) : TimedCycle :=
  ⟨o.cycleKind number, o.hasExecutePhase number conditionHeld⟩

/-- The machine cycles of an operation. -/
def cycles : List TimedCycle := (List.range o.cycleCount).map (o.cycle conditionHeld)

@[simp] theorem length_cycles : (o.cycles conditionHeld).length = o.cycleCount := by
  rw [cycles, List.length_map, List.length_range]

/-- The machine cycles from one on. -/
theorem drop_cycles {number : Nat} (h : number < o.cycleCount) :
    (o.cycles conditionHeld).drop number =
      o.cycle conditionHeld number :: (o.cycles conditionHeld).drop (number + 1) := by
  have hlt : number < (o.cycles conditionHeld).length := by rwa [length_cycles]
  rw [List.drop_eq_getElem_cons hlt]
  simp only [cycles, List.getElem_map, List.getElem_range]

theorem drop_cycles_of_last {number : Nat} (h : o.cycleCount ≤ number) :
    (o.cycles conditionHeld).drop number = [] :=
  List.drop_eq_nil_of_le (by rwa [length_cycles])

end Operation

namespace Timetable

/-- The timetable is right about each operation. -/
theorem cycles_eq (opcode : UInt8) (flags : Flags) :
    cycles opcode.toNat ((Opcode.condition opcode).holds flags) =
      (Operation.ofOpcode opcode).cycles ((Operation.ofOpcode opcode).condition.holds flags) := by
  -- both sides are tables, so they are compared opcode by opcode
  have htables : ∀ n < 256, ∀ taken : Bool, cycles n taken =
      (Operation.ofOpcode (.ofNat n)).cycles
        ((Operation.ofOpcode (.ofNat n)).condition = .always || taken) := by decide +kernel
  have hconditions : ∀ n < 256, (Operation.ofOpcode (.ofNat n)).condition = .always ∨
      (Operation.ofOpcode (.ofNat n)).condition = Opcode.condition (.ofNat n) := by decide +kernel
  have htable := htables opcode.toNat opcode.toNat_lt ((Opcode.condition opcode).holds flags)
  have hcondition := hconditions opcode.toNat opcode.toNat_lt
  rw [UInt8.ofNat_toNat] at htable hcondition
  rw [htable]
  rcases hcondition with halways | hopcode
  · rw [halways]
    rfl
  · rw [hopcode, Opcode.condition]
    rfl

/-- The opcodes that halt. -/
theorem ofOpcode_eq_halt_iff (opcode : UInt8) :
    Operation.ofOpcode opcode = .halt ↔ opcode.toNat ∈ [0, 1, 255] := by
  have htable : ∀ n < 256, Operation.ofOpcode (.ofNat n) = .halt ↔ n ∈ [0, 1, 255] := by
    decide +kernel
  rw [← htable opcode.toNat opcode.toNat_lt, UInt8.ofNat_toNat]

/-- The states of an instruction without waits are one of six numbers. -/
theorem sum_stateCount_mem (opcode : UInt8) (taken : Bool) :
    ((cycles opcode.toNat taken).map TimedCycle.stateCount).sum ∈ [3, 5, 6, 8, 9, 11] := by
  have htable : ∀ n < 256, ∀ taken : Bool,
      ((cycles n taken).map TimedCycle.stateCount).sum ∈ [3, 5, 6, 8, 9, 11] := by decide +kernel
  exact htable opcode.toNat opcode.toNat_lt taken

/-! ### The itinerary, state by state -/

/-- The states from `T3` of the first machine cycle on. -/
def fromT3 : List TimedCycle → List Bool → List (TState × CycleKind)
  | [], _ => []
  | cycle :: rest, levels =>
    cycle.lastStates.map (·, cycle.kind) ++
      itinerary .t1 rest (levels.drop cycle.lastStates.length)

/-- The states that follow when the ready line is looked at, in `T2` or in a wait of the first
machine cycle. -/
def afterLook : List TimedCycle → List Bool → List (TState × CycleKind)
  | [], _ => []
  | cycle :: rest, levels =>
    let waits := (levels.takeWhile fun ready ↦ !ready).length
    List.replicate waits (.wait, cycle.kind) ++ fromT3 (cycle :: rest) (levels.drop (waits + 1))

section

variable (cycle : TimedCycle) (rest : List TimedCycle) (levels : List Bool)

theorem itinerary_cons (start : TState) (ready : Bool) :
    itinerary start (cycle :: rest) (ready :: levels) =
      (start, cycle.kind) :: (.t2, cycle.kind) :: afterLook (cycle :: rest) levels := by
  simp only [itinerary, afterLook, fromT3, List.tail_cons, List.map_cons, List.map_append,
    List.map_replicate, List.length_cons, List.length_append, List.length_replicate,
    List.cons_append, List.append_assoc, List.drop_succ_cons, List.drop_drop]
  congr 6
  omega

theorem afterLook_of_ready :
    afterLook (cycle :: rest) (true :: levels) = fromT3 (cycle :: rest) levels := rfl

theorem afterLook_of_not_ready : afterLook (cycle :: rest) (false :: levels) =
    (.wait, cycle.kind) :: afterLook (cycle :: rest) levels := rfl

theorem fromT3_of_short (h : cycle.isLong = false) (ready : Bool) :
    fromT3 (cycle :: rest) (ready :: levels) = (.t3, cycle.kind) :: itinerary .t1 rest levels := by
  rw [fromT3, TimedCycle.lastStates, h]
  rfl

theorem fromT3_of_long (h : cycle.isLong = true) :
    fromT3 [cycle] levels = [(.t3, cycle.kind), (.t4, cycle.kind), (.t5, cycle.kind)] := by
  rw [fromT3, TimedCycle.lastStates, h]
  rfl

theorem itinerary_ne_nil (start : TState) : itinerary start (cycle :: rest) levels ≠ [] := nofun

theorem fromT3_ne_nil : fromT3 (cycle :: rest) levels ≠ [] := by
  rw [fromT3, TimedCycle.lastStates]
  split <;> exact nofun

end

/-- With memory always ready there is a state for each that the timetable counts. -/
theorem length_itinerary_of_ready (start : TState) (plan : List TimedCycle) {levels : List Bool}
    (h : ∀ ready ∈ levels, ready = true) :
    (itinerary start plan levels).length = (plan.map TimedCycle.stateCount).sum := by
  induction plan generalizing start levels with
  | nil => rfl
  | cons cycle rest ih =>
    have hnone : levels.tail.takeWhile (fun ready ↦ !ready) = [] := by
      cases htail : levels.tail with
      | nil => rfl
      | cons ready later =>
        have hmem : ready ∈ levels.tail := htail ▸ List.mem_cons_self
        rw [h ready (List.mem_of_mem_tail hmem)]
        rfl
    have hstates : 2 + cycle.lastStates.length = cycle.stateCount := by
      rw [TimedCycle.lastStates, TimedCycle.stateCount]
      split <;> rfl
    have hrest (n : Nat) : (itinerary .t1 rest (levels.drop n)).length =
        (rest.map TimedCycle.stateCount).sum :=
      ih .t1 fun ready hready ↦ h ready (List.mem_of_mem_drop hready)
    rw [itinerary, hnone]
    simp only [List.length_append, List.length_map, List.length_cons, hrest, List.map_cons,
      List.sum_cons, List.length_nil, List.replicate_zero, List.nil_append]
    omega

end Timetable

end Mcs8
