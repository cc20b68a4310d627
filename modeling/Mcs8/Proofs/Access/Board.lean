import Mcs8.Proofs.Access.Processor
import Mcs8.Proofs.Board.Action
import Mcs8.Proofs.Document.NormalForm

/-!
# The references of the board

What the host does with a board, with all that it refers to: memory by the address that the latch
has collected or the host has given, ports by their number among the inputs or the outputs, and what
the processor refers to. The values are those of the definitions without a log
(`value_logPerformAll`).

The board may hold anything: a document can bring in a processor and a latch that do not fit
together, and the instruction register can be set in the middle of an instruction. Every reference
is still in bounds (`references_inBounds`). An address of the latch has 14 bits by the way it is put
together and a port five, and all else is checked before it is used.
-/

namespace Mcs8

open Logged

variable {allowed : Register → Prop}

/-! ### Ports -/

namespace PortBank

variable (s : PortBank) (port : Int)

/-- Read the byte that a port puts on the bus. -/
def logRead : Logged UInt8 :=
  if isInput port then look .inputs s.inputs port 0 else pure 0xff

/-- Read the byte at an output port. -/
def logOutput : Logged UInt8 :=
  if isOutput port then look .outputs s.outputs (port - 8) 0 else pure 0

/-- Set the byte at an input port. -/
def logSetInput (value : UInt8) : Logged PortBank :=
  if isInput port then do
    let inputs ← put .inputs s.inputs port value
    pure { s with inputs }
  else pure s

/-- Write a byte to an output port. -/
def logWrite (value : UInt8) (tick : UInt64) : Logged PortBank :=
  if isOutput port then do
    let outputs ← put .outputs s.outputs (port - 8) value
    pure { s with outputs, log := s.log.push { port := .ofInt port, value, tick } }
  else pure s

theorem isInput_iff {port : Int} : isInput port = true ↔ ∃ n < 8, port = (n : Nat) := by
  simp only [isInput, Bool.and_eq_true, decide_eq_true_eq]
  constructor
  · rintro ⟨h₀, hlt⟩
    exact ⟨port.toNat, by omega, by omega⟩
  · rintro ⟨n, hn, rfl⟩
    omega

theorem isOutput_iff {port : Int} : isOutput port = true ↔ ∃ n < 24, port - 8 = (n : Nat) := by
  simp only [isOutput, Bool.and_eq_true, decide_eq_true_eq]
  constructor
  · rintro ⟨h₈, hlt⟩
    exact ⟨port.toNat - 8, by omega, by omega⟩
  · rintro ⟨n, hn, hport⟩
    omega

/-- The number of an output port among the outputs. -/
theorem toNat_sub_eight (port : Int) : (port - 8).toNat = port.toNat - 8 := by omega

@[simp] theorem value_logRead : (s.logRead port).value = s.read port := by
  simp [logRead, read]

@[simp] theorem value_logOutput : (s.logOutput port).value = s.output port := by
  simp only [logOutput, output, value_ite, value_look, toNat_sub_eight, value_pure]

@[simp] theorem value_logSetInput (value : UInt8) :
    (s.logSetInput port value).value = s.setInput port value := by
  simp only [logSetInput, setInput, value_ite, value_bind, value_put, value_pure]

@[simp] theorem value_logWrite (value : UInt8) (tick : UInt64) :
    (s.logWrite port value tick).value = s.write port value tick := by
  simp only [logWrite, write, value_ite, value_bind, value_put, toNat_sub_eight, value_pure]

theorem proper_logRead : (s.logRead port).Proper allowed := by
  refine Proper.ite (fun h ↦ ?_) fun _ ↦ proper_pure _
  obtain ⟨n, hn, rfl⟩ := isInput_iff.mp h
  exact proper_look _ hn _ _

theorem proper_logOutput : (s.logOutput port).Proper allowed := by
  refine Proper.ite (fun h ↦ ?_) fun _ ↦ proper_pure _
  obtain ⟨n, hn, hport⟩ := isOutput_iff.mp h
  rw [hport]
  exact proper_look _ hn _ _

theorem proper_logSetInput (value : UInt8) : (s.logSetInput port value).Proper allowed := by
  refine Proper.ite (fun h ↦ ?_) fun _ ↦ proper_pure _
  obtain ⟨n, hn, rfl⟩ := isInput_iff.mp h
  exact (proper_put _ hn _ _).bind_pure _

theorem proper_logWrite (value : UInt8) (tick : UInt64) :
    (s.logWrite port value tick).Proper allowed := by
  refine Proper.ite (fun h ↦ ?_) fun _ ↦ proper_pure _
  obtain ⟨n, hn, hport⟩ := isOutput_iff.mp h
  rw [hport]
  exact (proper_put _ hn _ _).bind_pure _

end PortBank

namespace Board

variable (b : Board)

/-! ### Ticks -/

/-- Look at the memory byte at the collected address. -/
def logAddressedByte : Logged UInt8 := look .memory b.memory b.latch.address.toNat 0

/-- Collect what the devices offer. -/
def logOffers : Logged BusOffers := do
  let cpu ← b.cpu.logOffer
  if b.cpu.state = .t3 then
    match b.latch.kind with
    | .pci => do
      let byte ← b.logAddressedByte
      pure
        { cpu
          interrupt := if b.latch.acknowledge then ⟨true, b.interrupter.answer⟩ else {}
          memory := ⟨true, byte⟩ }
    | .pcr => do
      let byte ← b.logAddressedByte
      pure { cpu, memory := ⟨true, byte⟩ }
    | .pcw => pure { cpu }
    | .pcc =>
      if PortBank.isInput b.addressedPort then do
        let byte ← b.ports.logRead b.addressedPort
        pure { cpu, io := ⟨true, byte⟩ }
      else pure { cpu }
  else pure { cpu }

/-- Settle the bus and collect the address. -/
def logSettle : Logged Board := do
  let offers ← b.logOffers
  let (owner, bus) := offers.resolve b.bus
  pure { b with owner, bus, latch := b.latch.update b.cpu.state bus }

/-- Clock the processor with the settled bus. -/
def logClock : Logged Board := do
  let interrupter := b.interrupter.raiseLine
  let cpu ← b.cpu.logStep ⟨b.bus, b.readyLevel, interrupter.line⟩
  pure { b with cpu, interrupter := interrupter.arm }

/-- Carry out the write of a machine cycle. -/
def logWriteCycle : Logged Board :=
  match b.latch.kind with
  | .pcw => do
    let memory ← put .memory b.memory b.latch.address.toNat b.bus
    pure { b with memory }
  | .pcc =>
    if PortBank.isInput b.addressedPort then pure b
    else do
      let state ← b.ports.logWrite b.addressedPort b.latch.low b.ticks
      pure { b with ports := b.ports.load state }
  | .pci | .pcr => pure b

/-- Carry out what a tick that began in `state` asks of the board. -/
def logCarryOut (state : TState) : Logged Board :=
  match state with
  | .t3 => b.logWriteCycle
  | _ => pure (b.carryOut state)

/-- One clock state of the board. -/
def logTick : Logged Board := do
  let settled ← b.logSettle
  let clocked ← settled.record.logClock
  let after ← clocked.logCarryOut b.cpu.state
  pure { after with ticks := after.ticks + 1 }

/-- Run a board with a budget of ticks. -/
def logRunFrom : Nat → Board → Logged Board
  | 0, b => pure b
  | budget + 1, b => do
    let after ← b.logTick
    if after.haltedFrom b.cpu.state || after.meetsBreakpoint then pure after.consumeBreakpoint
    else logRunFrom budget after

/-! ### Memory -/

/-- Store bytes one after the other. -/
def logStoreBytes (memory : Vector UInt8 memoryCapacity) (address : Nat) :
    List UInt8 → Logged (Vector UInt8 memoryCapacity)
  | [] => pure memory
  | byte :: rest => do
    let stored ← put .memory memory address byte
    logStoreBytes stored (address + 1) rest

/-- Copy bytes into memory. -/
def logLoad (bytes : List UInt8) (origin : UInt16) : Logged (Except BoardError Board) :=
  if memoryCapacity ≤ origin.toNat then pure (.error .noSuchAddress)
  else if memoryCapacity - origin.toNat < bytes.length then pure (.error .doesNotFit)
  else do
    let memory ← logStoreBytes b.memory origin.toNat bytes
    pure (.ok { b with memory })

/-- Look at the memory byte at an address. -/
def logPeek (address : UInt16) : Logged (Except BoardError UInt8) :=
  if address.toNat < memoryCapacity then do
    let byte ← look .memory b.memory address.toNat 0
    pure (.ok byte)
  else pure (.error .noSuchAddress)

/-- Change the memory byte at an address. -/
def logPoke (address : UInt16) (value : UInt8) : Logged (Except BoardError Board) :=
  if address.toNat < memoryCapacity then do
    let memory ← put .memory b.memory address.toNat value
    pure (.ok { b with memory })
  else pure (.error .noSuchAddress)

/-! ### Actions -/

/-- Carry out an action. -/
def logPerform : Action → Logged Board
  | .tick => b.logTick
  | .run budget => logRunFrom budget.toNat b
  | .load bytes origin => do
    let outcome ← b.logLoad bytes origin
    pure (b.orKeep outcome)
  | .poke address value => do
    let outcome ← b.logPoke address value
    pure (b.orKeep outcome)
  | .setInput port value => do
    let state ← b.ports.logSetInput port value
    pure { b with ports := b.ports.load state }
  | action => pure (b.perform action)

/-- Carry out actions one after the other. -/
def logPerformAll : List Action → Board → Logged Board
  | [], b => pure b
  | action :: actions, b => do
    let after ← b.logPerform action
    logPerformAll actions after

/-! ### Values -/

@[simp] theorem value_logAddressedByte : b.logAddressedByte.value = b.addressedByte :=
  value_look_of_lt .memory b.latch.address_lt b.memory 0

theorem value_logOffers : b.logOffers.value = b.offers := by
  unfold logOffers offers
  rw [value_bind, Processor.value_logOffer, value_ite]
  cases b.latch.kind <;> simp

theorem value_logSettle : b.logSettle.value = b.settle := by
  rw [logSettle, value_bind, value_logOffers]
  rfl

theorem value_logClock : b.logClock.value = b.clock := by
  rw [logClock, value_bind, Processor.value_logStep]
  rfl

theorem value_logWriteCycle : b.logWriteCycle.value = b.writeCycle := by
  unfold logWriteCycle writeCycle
  cases b.latch.kind with
  | pcw =>
    simp only
    rw [value_bind, value_put_of_lt .memory b.latch.address_lt]
    rfl
  | pcc => simp
  | _ => rfl

theorem value_logCarryOut (state : TState) : (b.logCarryOut state).value = b.carryOut state := by
  cases state with
  | t3 => exact b.value_logWriteCycle
  | _ => rfl

theorem value_logTick : b.logTick.value = b.tick := by
  simp only [logTick, value_bind, value_logSettle, value_logClock, value_logCarryOut]
  rfl

variable {b}

theorem value_logRunFrom (written : String) (budget : Nat) :
    (logRunFrom budget b).value = (b.runFrom written budget).board := by
  induction budget generalizing b written with
  | zero => rfl
  | succ budget ih =>
    rw [logRunFrom, runFrom, value_bind, value_logTick, value_ite]
    split
    · rfl
    · exact ih _

theorem value_logStoreBytes (memory : Vector UInt8 memoryCapacity) (address : Nat)
    (bytes : List UInt8) :
    (logStoreBytes memory address bytes).value = storeBytes memory address bytes := by
  induction bytes generalizing memory address with
  | nil => rfl
  | cons byte rest ih => exact ih _ _

variable (b)

theorem value_logLoad (bytes : List UInt8) (origin : UInt16) :
    (b.logLoad bytes origin).value = b.load bytes origin := by
  simp only [logLoad, load, value_ite, value_bind, value_pure, value_logStoreBytes]

theorem value_logPeek (address : UInt16) : (b.logPeek address).value = b.peek address := by
  unfold logPeek peek
  split
  next h => rw [value_bind, value_look_of_lt .memory h]; rfl
  next => rfl

theorem value_logPoke (address : UInt16) (value : UInt8) :
    (b.logPoke address value).value = b.poke address value := by
  unfold logPoke poke
  split
  next h => rw [value_bind, value_put_of_lt .memory h]; rfl
  next => rfl

theorem value_logPerform (action : Action) : (b.logPerform action).value = b.perform action := by
  cases action with
  | tick => exact b.value_logTick
  | run budget => exact value_logRunFrom "" budget.toNat
  | load bytes origin =>
    rw [logPerform, value_bind, value_logLoad]
    rfl
  | poke address value =>
    rw [logPerform, value_bind, value_logPoke]
    rfl
  | setInput port value =>
    rw [logPerform, value_bind, PortBank.value_logSetInput]
    rfl
  | _ => rfl

variable {b}

/-- The log does not change what actions do. -/
theorem value_logPerformAll (actions : List Action) :
    (logPerformAll actions b).value = b.performAll actions := by
  induction actions generalizing b with
  | nil => rfl
  | cons action actions ih =>
    rw [logPerformAll, value_bind, value_logPerform]
    exact ih

/-! ### References -/

/-- With all register codes allowed, a processor needs no further ones. -/
theorem names_any (p : Processor) : p.Names fun _ ↦ True :=
  ⟨fun _ _ ↦ trivial, fun _ _ ↦ trivial, fun _ ↦ trivial⟩

variable (b)

theorem proper_logAddressedByte : b.logAddressedByte.Proper fun _ ↦ True :=
  proper_look .memory b.latch.address_lt _ _

theorem proper_logOffers : b.logOffers.Proper fun _ ↦ True := by
  have hoffer := Processor.proper_logOffer (names_any b.cpu)
  rw [logOffers, proper_bind]
  refine ⟨hoffer, Proper.ite (fun _ ↦ ?_) fun _ ↦ proper_pure _⟩
  cases b.latch.kind with
  | pci | pcr => exact b.proper_logAddressedByte.bind_pure _
  | pcw => exact proper_pure _
  | pcc =>
    exact Proper.ite (fun _ ↦ (PortBank.proper_logRead _ _).bind_pure _) fun _ ↦ proper_pure _

theorem proper_logSettle : b.logSettle.Proper fun _ ↦ True := b.proper_logOffers.bind_pure _

theorem proper_logClock : b.logClock.Proper fun _ ↦ True :=
  (Processor.proper_logStep (names_any b.cpu) _).bind_pure _

theorem proper_logWriteCycle : b.logWriteCycle.Proper fun _ ↦ True := by
  unfold logWriteCycle
  cases b.latch.kind with
  | pcw => exact (proper_put .memory b.latch.address_lt _ _).bind_pure _
  | pcc =>
    exact Proper.ite (fun _ ↦ proper_pure _) fun _ ↦ (PortBank.proper_logWrite _ _ _ _).bind_pure _
  | pci | pcr => exact proper_pure _

theorem proper_logCarryOut (state : TState) : (b.logCarryOut state).Proper fun _ ↦ True := by
  cases state with
  | t3 => exact b.proper_logWriteCycle
  | _ => exact proper_pure _

theorem proper_logTick : b.logTick.Proper fun _ ↦ True := by
  simp only [logTick, proper_bind]
  exact ⟨b.proper_logSettle, proper_logClock _, proper_logCarryOut _ _, proper_pure _⟩

variable {b}

theorem proper_logRunFrom (budget : Nat) : (logRunFrom budget b).Proper fun _ ↦ True := by
  induction budget generalizing b with
  | zero => exact proper_pure _
  | succ budget ih =>
    rw [logRunFrom, proper_bind]
    exact ⟨b.proper_logTick, Proper.ite (fun _ ↦ proper_pure _) fun _ ↦ ih⟩

/-- Bytes are stored in bounds if all of them fit behind the first address. -/
theorem proper_logStoreBytes {memory : Vector UInt8 memoryCapacity} {address : Nat}
    {bytes : List UInt8} (h : address + bytes.length ≤ memoryCapacity) :
    (logStoreBytes memory address bytes).Proper fun _ ↦ True := by
  induction bytes generalizing memory address with
  | nil => exact proper_pure _
  | cons byte rest ih =>
    rw [List.length_cons] at h
    rw [logStoreBytes, proper_bind]
    exact ⟨proper_put .memory (show address < memoryCapacity by omega) _ _,
      ih (by omega)⟩

variable (b)

theorem proper_logLoad (bytes : List UInt8) (origin : UInt16) :
    (b.logLoad bytes origin).Proper fun _ ↦ True := by
  refine Proper.ite (fun _ ↦ proper_pure _) fun horigin ↦
    Proper.ite (fun _ ↦ proper_pure _) fun hlength ↦ ?_
  exact (proper_logStoreBytes (by omega)).bind_pure _

theorem proper_logPeek (address : UInt16) : (b.logPeek address).Proper fun _ ↦ True :=
  Proper.ite (fun h ↦ (proper_look .memory h _ _).bind_pure _) fun _ ↦ proper_pure _

theorem proper_logPoke (address : UInt16) (value : UInt8) :
    (b.logPoke address value).Proper fun _ ↦ True :=
  Proper.ite (fun h ↦ (proper_put .memory h _ _).bind_pure _) fun _ ↦ proper_pure _

theorem proper_logPerform (action : Action) : (b.logPerform action).Proper fun _ ↦ True := by
  cases action with
  | tick => exact b.proper_logTick
  | run budget => exact proper_logRunFrom _
  | load bytes origin => exact (b.proper_logLoad bytes origin).bind_pure _
  | poke address value => exact (b.proper_logPoke address value).bind_pure _
  | setInput port value => exact (PortBank.proper_logSetInput _ port value).bind_pure _
  | _ => exact proper_pure _

variable {b}

theorem proper_logPerformAll (actions : List Action) :
    (logPerformAll actions b).Proper fun _ ↦ True := by
  induction actions generalizing b with
  | nil => exact proper_pure _
  | cons action actions ih =>
    rw [logPerformAll, proper_bind]
    exact ⟨b.proper_logPerform action, ih⟩

/-! ### Restored boards -/

/-- A board takes over every complete snapshot. -/
theorem exists_restore {s : Snapshot} (h : Document.Complete s) (b : Board) :
    ∃ restored, b.restore s = .ok restored := by
  obtain ⟨cpu, hcpu⟩ := Option.isSome_iff_exists.mp h.readable.1
  obtain ⟨ports, hports⟩ := Option.isSome_iff_exists.mp h.readable.2
  rw [restore, hcpu, hports]
  exact ⟨_, dif_pos h.memory_size⟩

/-- **Nothing that is restored makes a board leave its stores.** Whatever document is read without a
fault, with any library, a board takes the result over, and whatever the host does from there on, in
any order and with the instruction register set at any moment, every reference is in bounds. -/
theorem references_inBounds {D : Type} {lib : Document.Library D} {d : D} {old s : Snapshot}
    (hread : lib.snapshot.read d old = ⟨s, none⟩) (b : Board) :
    ∃ restored, b.restore s = .ok restored ∧ ∀ actions,
      ((logPerformAll actions restored).value = restored.performAll actions ∧
        ∀ r ∈ (logPerformAll actions restored).references, r.InBounds) ∧
      (∀ address, ((restored.performAll actions).logPeek address).value =
          (restored.performAll actions).peek address ∧
        ∀ r ∈ ((restored.performAll actions).logPeek address).references, r.InBounds) ∧
      ∀ port, ((restored.performAll actions).ports.logOutput port).value =
          (restored.performAll actions).ports.output port ∧
        ∀ r ∈ ((restored.performAll actions).ports.logOutput port).references, r.InBounds := by
  obtain ⟨restored, hrestore⟩ := exists_restore (Document.complete_of_read hread) b
  refine ⟨restored, hrestore, fun actions ↦ ⟨⟨value_logPerformAll actions, fun r hr ↦ ?_⟩,
    fun address ↦ ⟨value_logPeek _ address, fun r hr ↦ ?_⟩,
    fun port ↦ ⟨PortBank.value_logOutput _ port, fun r hr ↦ ?_⟩⟩⟩
  · exact (proper_logPerformAll actions r hr).inBounds
  · exact (proper_logPeek _ address r hr).inBounds
  · have hport : ((restored.performAll actions).ports.logOutput port).Proper fun _ ↦ True :=
      PortBank.proper_logOutput _ port
    exact (hport r hr).inBounds

/-- A document of a board that no run leads to: the processor is in the midst of a store, with an
opcode that stores nothing and a machine cycle that no instruction has, and the latch has collected
an output cycle. The record of writes is an object, and a truth value stands for the pointer of the
return stack. -/
def inconsistent : Document :=
  let cpu : ProcessorState := { state := .t3, cycleKind := .pcw, ir := 0xff, cycleNumber := -5 }
  (Document.snapshot.write
    { cpu := some cpu
      latch := { low := 0xff, high := 0xff, kind := .pcc }
      memory := #[1, 2, 3] })
    |>.withField "cpu" ((Document.processor.write cpu).withField "stack"
      ((Document.library.returnStack.write cpu.stack).withField "pointer" (.bool true)))
    |>.withField "ports" ((Document.ports.write {}).withField "writeLog" (.object []))

theorem inconsistent_inBounds :
    ∃ restored,
      ({} : Board).restore (Document.lenient.snapshot.read inconsistent {}).value = .ok restored ∧
      ∀ actions, ∀ r ∈ (logPerformAll actions restored).references, r.InBounds := by
  have hfault : (Document.lenient.snapshot.read inconsistent {}).fault = none := by decide +kernel
  have hread : Document.lenient.snapshot.read inconsistent {} = ⟨_, none⟩ :=
    congrArg (Document.Reading.mk _) hfault
  obtain ⟨restored, hrestore, hactions⟩ := references_inBounds hread {}
  exact ⟨restored, hrestore, fun actions ↦ (hactions actions).1.2⟩

end Board

end Mcs8
