import Mcs8.Processor.Trace
import Mcs8.Proofs.Access.Log
import Mcs8.Proofs.Processor.Step

/-!
# The references of the processor

One step of the processor and its offer to the bus, with all that they refer to: registers, by code
and then by number, slots of the return stack, and the flag that a condition names. The values are
those of the definitions without a log (`value_logStep`, `value_logOffer`).

Every reference is in bounds whatever the processor holds: a register number is taken modulo seven
or belongs to a code that is not `M`, a slot is counted around the ring, and there are no more flags
than a condition can name. Which register codes are used depends on the instruction (`Names`).
-/

namespace Mcs8

open Logged

variable {allowed : Register → Prop}

/-! ### Registers, slots and flags -/

namespace Scratchpad

variable (pad : Scratchpad) {r : Register}

/-- Read a register. -/
def logRead (r : Register) : Logged UInt8 := do
  note r
  look .registers pad.bytes ((r.index % 7 : Nat) : Int) 0

/-- Write a register, unless the code is `M`. -/
def logWrite (r : Register) (value : UInt8) : Logged Scratchpad := do
  note r
  if r = .M then pure pad
  else do
    let bytes ← put .registers pad.bytes r.index value
    pure ⟨bytes⟩

/-- Read the memory pointer. -/
def logPointer : Logged UInt16 := do
  let high ← pad.logRead .H
  let low ← pad.logRead .L
  pure (addressOf high low)

/-- Read the registers to print them. -/
def logPrint (pen : Pen) : Logged Pen :=
  [Register.A, .B, .C, .D, .E, .H, .L].foldlM (fun (pen : Pen) (r : Register) ↦ do
    let value ← pad.logRead r
    pure (((pen.put r.name).put ":").field 2 value.toNat |>.put " ")) pen

theorem number_lt (r : Register) : r.index % 7 < 7 := Nat.mod_lt _ (by decide)

@[simp] theorem value_logRead (r : Register) : (pad.logRead r).value = pad.read r :=
  value_look_of_lt .registers (number_lt r) pad.bytes 0

@[simp] theorem value_logWrite (r : Register) (value : UInt8) :
    (pad.logWrite r value).value = pad.write r value := by
  by_cases h : r = .M
  · simp [logWrite, h]
  · simp [logWrite, h, write]

@[simp] theorem value_logPointer : pad.logPointer.value = pad.pointer := by
  simp [logPointer, pointer]

@[simp] theorem value_logPrint (pen : Pen) : (pad.logPrint pen).value = pad.print pen := by
  simp [logPrint, print]

theorem proper_logRead (h : allowed r) : (pad.logRead r).Proper allowed := by
  rw [logRead, proper_bind]
  exact ⟨proper_note h, proper_look .registers (number_lt r) _ _⟩

theorem proper_logWrite (h : allowed r) (value : UInt8) :
    (pad.logWrite r value).Proper allowed := by
  rw [logWrite, proper_bind]
  refine ⟨proper_note h, Proper.ite (fun _ ↦ proper_pure _) fun hM ↦ ?_⟩
  exact (proper_put .registers (Register.index_lt_seven hM) _ _).bind_pure _

theorem proper_logPointer (h : ∀ r, r ≠ .M → allowed r) : pad.logPointer.Proper allowed := by
  rw [logPointer, proper_bind]
  exact ⟨pad.proper_logRead (h .H (by decide)),
    (pad.proper_logRead (h .L (by decide))).bind_pure _⟩

theorem proper_logPrint (h : ∀ r, r ≠ .M → allowed r) (pen : Pen) :
    (pad.logPrint pen).Proper allowed := by
  simp only [logPrint, List.foldlM_cons, List.foldlM_nil, proper_bind, proper_pure, and_true]
  refine ⟨?_, ?_, ?_, ?_, ?_, ?_, ?_⟩ <;> exact pad.proper_logRead (h _ (by decide))

end Scratchpad

namespace ReturnStack

variable (s : ReturnStack)

/-- Put an address into the slot at the pointer. -/
def logPush (address : UInt16) : Logged ReturnStack := do
  let slots ← put .slots s.slots s.pointer.val (address % addressSpace)
  pure { slots, pointer := s.pointer + 1 }

/-- Look at the slot before the pointer. -/
def logTop : Logged UInt16 := look .slots s.slots (s.pointer - 1).val 0

@[simp] theorem value_logPush (address : UInt16) : (s.logPush address).value = s.push address := by
  rw [logPush, value_bind, value_put_of_lt .slots s.pointer.isLt]
  rfl

@[simp] theorem value_logTop : s.logTop.value = s.top :=
  value_look_of_lt .slots (s.pointer - 1).isLt s.slots 0

theorem proper_logPush (address : UInt16) : (s.logPush address).Proper allowed :=
  (proper_put .slots s.pointer.isLt _ _).bind_pure _

theorem proper_logTop : s.logTop.Proper allowed :=
  proper_look .slots (s.pointer - 1).isLt _ _

end ReturnStack

/-- The flags in the order of their numbers. -/
def Flags.bits (f : Flags) : Vector Bool 4 := #v[f.carry, f.zero, f.sign, f.parity]

theorem Flag.index_lt (f : Flag) : f.index < 4 := by
  cases f <;> decide

namespace Condition

/-- Look at the flag that the condition names. -/
def logHolds (c : Condition) (flags : Flags) : Logged Bool :=
  match c with
  | always => pure true
  | when flag sense => do
    let bit ← look .flags flags.bits flag.index false
    pure (bit == sense)

@[simp] theorem value_logHolds (c : Condition) (flags : Flags) :
    (c.logHolds flags).value = c.holds flags := by
  cases c with
  | always => rfl
  | when flag sense => cases flag <;> rfl

theorem proper_logHolds (c : Condition) (flags : Flags) :
    (c.logHolds flags).Proper allowed := by
  cases c with
  | always => exact proper_pure _
  | when flag sense => exact (proper_look .flags flag.index_lt _ _).bind_pure _

end Condition

/-! ### The bus -/

namespace Processor

variable (p : Processor)

/-- Put together the address of the machine cycle. -/
def logSentAddress : Logged UInt16 :=
  if p.state = .t1i then pure p.pc
  else
    match p.cycleKind with
    | .pci => pure p.pc
    | .pcr | .pcw => p.registers.logPointer
    | .pcc => do
      let low ← p.registers.logRead .A
      pure (addressOf p.ir low)

/-- Bring the byte of a store. -/
def logStoreValue : Logged UInt8 :=
  match p.operation with
  | .moveImmediate _ => pure p.tempB
  | o => p.registers.logRead o.src

/-- Make the offer to the bus. The address is put together in every state. -/
def logOffer : Logged BusOffer := do
  let address ← p.logSentAddress
  match p.state with
  | .t1 | .t1i => pure ⟨true, (address % 256).toUInt8⟩
  | .t2 => pure ⟨true, UInt8.ofNat p.cycleKind.code * 64 + (address / 256).toUInt8 % 64⟩
  | .t3 =>
    if p.cycleKind = .pcw then do
      let value ← p.logStoreValue
      pure ⟨true, value⟩
    else pure {}
  | _ => pure {}

/-! ### Steps -/

/-- Find out whether the condition holds. -/
def logResolveCondition : Logged Processor := do
  let met ← p.operation.condition.logHolds p.flags
  pure { p with
    conditionHeld := met
    executes := p.operation.hasExecutePhase p.cycleNumber.toInt met }

/-- The work of `T3`. -/
def logTakeByte (bus : UInt8) : Logged Processor := do
  let p ← (p.latchByte bus).logResolveCondition
  pure (if p.halts then p else if p.accepts then { p with accepted := true } else p)

/-- The work of `T4`. -/
def logPrepareResult : Logged Processor :=
  match p.operation with
  | .move _ src | .alu _ src =>
    if src = .M then pure p
    else do
      let tempB ← p.registers.logRead src
      pure { p with tempB }
  | .increment reg | .decrement reg => do
    let tempB ← p.registers.logRead reg
    pure { p with tempB }
  | .call _ | .restart _ => do
    let stack ← p.stack.logPush p.pc
    pure { p with stack }
  | .ret _ => do
    let top ← p.stack.logTop
    pure { p with
      stack := p.stack.pop
      tempB := (top % 256).toUInt8
      tempA := (top / 256).toUInt8 % 64 }
  | _ => pure p

/-- Store the flags of a result, and its byte if it is to be written back. -/
def logStoreOutput (r : AluOutput) (dst : Register) : Logged Processor :=
  if r.isStored then do
    let registers ← p.registers.logWrite dst r.value
    pure { p with flags := r.flags, registers }
  else pure { p with flags := r.flags }

/-- The work of `T5`. -/
def logStoreResult : Logged Processor :=
  match p.operation with
  | .move dst _ | .moveImmediate dst => do
    let registers ← p.registers.logWrite dst p.tempB
    pure { p with registers }
  | .increment reg => p.logStoreOutput (Alu.increment p.tempB p.flags) reg
  | .decrement reg => p.logStoreOutput (Alu.decrement p.tempB p.flags) reg
  | .alu op _ | .aluImmediate op => do
    let accumulator ← p.registers.logRead .A
    p.logStoreOutput (Alu.apply op accumulator p.tempB p.flags) .A
  | .rotate op => do
    let accumulator ← p.registers.logRead .A
    p.logStoreOutput (Alu.rotate op accumulator p.flags) .A
  | .jump _ | .call _ | .ret _ => pure { p with pc := addressOf p.tempA p.tempB }
  | .restart vector => pure { p with pc := vector.toUInt16 * 8 }
  | .input _ => do
    let registers ← p.registers.logWrite .A p.tempB
    pure { p with registers }
  | .halt | .output _ | .undefined => pure p

/-- The work of the state that the processor is in. -/
def logWork (bus : UInt8) : Logged Processor :=
  match p.state with
  | .t3 => p.logTakeByte bus
  | .t4 => p.logPrepareResult
  | .t5 => p.logStoreResult
  | _ => pure p

/-- Announce the step that led here, if steps are announced: the line shows the registers. -/
def logAnnounce : Logged Unit :=
  if p.announces then do
    let _ ← p.registers.logPrint {}
    pure ()
  else pure ()

/-- One clock state. -/
def logStep (x : Pins) : Logged Processor := do
  let worked ← (p.sample x.bus x.ready x.interrupt).logWork x.bus
  let after := worked.enter (p.state.next (worked.boundarySignals x.ready))
  after.logAnnounce
  pure after

/-! ### Values -/

@[simp] theorem value_logSentAddress : p.logSentAddress.value = p.sentAddress := by
  unfold logSentAddress ProcessorState.sentAddress
  split
  · rfl
  · cases p.cycleKind <;> simp

@[simp] theorem value_logStoreValue : p.logStoreValue.value = p.storeValue := by
  unfold logStoreValue storeValue
  cases p.operation <;> simp

/-- The log does not change what is offered. -/
theorem value_logOffer : p.logOffer.value = p.offer := by
  unfold logOffer offer
  rw [value_bind, value_logSentAddress]
  cases p.state with
  | t3 =>
    rw [value_ite, value_bind, value_logStoreValue]
    rfl
  | _ => rfl

theorem value_logTakeByte (bus : UInt8) : (p.logTakeByte bus).value = p.takeByte bus := by
  simp only [logTakeByte, logResolveCondition, value_bind, value_pure, Condition.value_logHolds]
  rfl

theorem value_logPrepareResult : p.logPrepareResult.value = p.prepareResult := by
  unfold logPrepareResult prepareResult
  cases p.operation <;> simp

@[simp] theorem value_logStoreOutput (r : AluOutput) (dst : Register) :
    (p.logStoreOutput r dst).value = p.storeOutput r dst := by
  unfold logStoreOutput storeOutput
  cases r.isStored <;> simp

theorem value_logStoreResult : p.logStoreResult.value = p.storeResult := by
  unfold logStoreResult storeResult
  cases p.operation <;> simp

theorem value_logWork (bus : UInt8) : (p.logWork bus).value = p.work bus := by
  unfold logWork work
  cases p.state with
  | t3 => exact p.value_logTakeByte bus
  | t4 => exact p.value_logPrepareResult
  | t5 => exact p.value_logStoreResult
  | _ => rfl

/-- The log does not change what a step does. -/
theorem value_logStep (x : Pins) : (p.logStep x).value = p.stepWith x := by
  rw [logStep, value_bind, value_logWork]
  exact stepWith_eq.symm

/-! ### References -/

/-- The register codes that the processor uses in its state are allowed: the registers themselves,
the source of a store, and the destination of an operation that is executed. -/
structure Names (allowed : Register → Prop) : Prop where
  register (r : Register) : r ≠ .M → allowed r
  stored : p.state = .t3 → p.cycleKind = .pcw → allowed p.operation.src
  executed : p.state = .t4 ∨ p.state = .t5 → allowed p.operation.dst

variable {p}

theorem proper_logSentAddress (h : ∀ r, r ≠ .M → allowed r) :
    p.logSentAddress.Proper allowed := by
  refine Proper.ite (fun _ ↦ proper_pure _) fun _ ↦ ?_
  cases p.cycleKind with
  | pci => exact proper_pure _
  | pcr | pcw => exact p.registers.proper_logPointer h
  | pcc => exact (p.registers.proper_logRead (h .A (by decide))).bind_pure _

theorem proper_logStoreValue (h : allowed p.operation.src) :
    p.logStoreValue.Proper allowed := by
  unfold logStoreValue
  split
  · exact proper_pure _
  · exact p.registers.proper_logRead h

theorem proper_logOffer (h : p.Names allowed) : p.logOffer.Proper allowed := by
  rw [logOffer, proper_bind]
  refine ⟨proper_logSentAddress h.register, ?_⟩
  cases hs : p.state with
  | t3 =>
    exact Proper.ite (fun hk ↦ (proper_logStoreValue (h.stored hs hk)).bind_pure _)
      fun _ ↦ proper_pure _
  | _ => exact proper_pure _

theorem proper_logTakeByte (bus : UInt8) : (p.logTakeByte bus).Proper allowed :=
  ((Condition.proper_logHolds _ _).bind_pure _).bind_pure _

theorem proper_logPrepareResult (hreal : ∀ r, r ≠ .M → allowed r)
    (hdst : allowed p.operation.dst) : p.logPrepareResult.Proper allowed := by
  unfold logPrepareResult
  cases ho : p.operation with
  | move _ src | alu _ src =>
    exact Proper.ite (fun _ ↦ proper_pure _) fun hM ↦
      (p.registers.proper_logRead (hreal src hM)).bind_pure _
  | increment reg | decrement reg =>
    rw [ho] at hdst
    exact (p.registers.proper_logRead hdst).bind_pure _
  | call _ | restart _ => exact (p.stack.proper_logPush p.pc).bind_pure _
  | ret _ => exact p.stack.proper_logTop.bind_pure _
  | _ => exact proper_pure _

theorem proper_logStoreOutput (r : AluOutput) {dst : Register} (h : allowed dst) :
    (p.logStoreOutput r dst).Proper allowed :=
  Proper.ite (fun _ ↦ (p.registers.proper_logWrite h r.value).bind_pure _) fun _ ↦ proper_pure _

theorem proper_logStoreResult (hreal : ∀ r, r ≠ .M → allowed r)
    (hdst : allowed p.operation.dst) : p.logStoreResult.Proper allowed := by
  have hA : allowed .A := hreal .A (by decide)
  unfold logStoreResult
  cases ho : p.operation with
  | move dst _ | moveImmediate dst =>
    rw [ho] at hdst
    exact (p.registers.proper_logWrite hdst _).bind_pure _
  | increment reg | decrement reg =>
    rw [ho] at hdst
    exact proper_logStoreOutput _ hdst
  | alu _ _ | aluImmediate _ | rotate _ =>
    exact (proper_bind ..).mpr ⟨p.registers.proper_logRead hA, proper_logStoreOutput _ hA⟩
  | input _ => exact (p.registers.proper_logWrite hA _).bind_pure _
  | _ => exact proper_pure _

theorem proper_logWork (h : p.Names allowed) (bus : UInt8) : (p.logWork bus).Proper allowed := by
  unfold logWork
  cases hs : p.state with
  | t3 => exact proper_logTakeByte bus
  | t4 => exact proper_logPrepareResult h.register (h.executed (.inl hs))
  | t5 => exact proper_logStoreResult h.register (h.executed (.inr hs))
  | _ => exact proper_pure _

theorem proper_logAnnounce (h : ∀ r, r ≠ .M → allowed r) : p.logAnnounce.Proper allowed :=
  Proper.ite (fun _ ↦ (p.registers.proper_logPrint h _).bind_pure _) fun _ ↦ proper_pure _

theorem proper_logStep (h : p.Names allowed) (x : Pins) : (p.logStep x).Proper allowed := by
  rw [logStep, proper_bind, proper_bind]
  have hsample : (p.sample x.bus x.ready x.interrupt).Names allowed := ⟨h.1, h.2, h.3⟩
  exact ⟨proper_logWork hsample x.bus, proper_logAnnounce h.register, proper_pure _⟩

end Processor

end Mcs8
