import Mcs8.Proofs.Disassembly.Tiling
import Mcs8.Proofs.Execution.Fetches
import Mcs8.Proofs.Execution.Operands

/-!
# Boards execute what is listed

A disassembly and the processor read memory each in a way of its own, one by the length of an
instruction and the bytes that follow the opcode, the other machine cycle by machine cycle. Here
they are brought together. A line of a disassembly stands for the bytes at its address, and the next
one for those behind them (`disassemble_split`). An instruction that starts there fetches these bytes
and no others, does what the listed operation and operand say, and leaves the program counter where
they say; so as long as none of them leads elsewhere, a board goes from line to line
(`Board.listing_agrees`).
-/

namespace Mcs8

/-! ### Lines -/

/-- The address of the first line, 0 if there is none. -/
def addressOfFirst (lines : List ListingLine) : UInt16 := (lines.head?.map (·.address)).getD 0

theorem addressOfFirst_disassemble {origin : UInt16} {bytes : List UInt8}
    (h : bytes = [] → origin % addressSpace = 0) :
    addressOfFirst (disassemble origin bytes) = origin % addressSpace := by
  cases bytes with
  | nil => exact (h rfl).symm
  | cons opcode rest =>
    rw [disassemble_of_ne_nil (List.cons_ne_nil opcode rest)]
    rfl

section

variable {memory : Vector UInt8 memoryCapacity} {before after : List ListingLine}
  {line : ListingLine} {i : Instruction}

/-- A line of the disassembly of a whole memory lies within memory, shows the instruction at its
address, and is followed by the line behind its bytes, or behind the last byte by address 0. -/
theorem line_of_memory (h : disassemble 0 memory.toList = before ++ line :: after) :
    line.address.toNat + line.item.length ≤ 16384 ∧
      addressOfFirst after = (line.address + .ofNat line.item.length) % addressSpace ∧
      ∀ i, line.item = .instruction i → i = .inBytes (memory.toList.drop line.address.toNat) := by
  obtain ⟨hlt, hline, hafter⟩ := disassemble_split h
  have hspace : addressSpace.toNat = 16384 := rfl
  have hcapacity : memory.toList.length = 16384 := memory.length_toList
  have hitem : line.item = .inBytes (memory.toList.drop (covered before)) :=
    congrArg ListingLine.item hline
  have haddress : line.address = (0 + .ofNat (covered before)) % addressSpace :=
    congrArg ListingLine.address hline
  have hne : memory.toList.drop (covered before) ≠ [] := by
    rw [Ne, List.drop_eq_nil_iff]
    omega
  have hle := ListingItem.length_inBytes_le hne
  rw [← hitem, List.length_drop, hcapacity] at hle
  have hpos := line.item.length_pos
  have hk : line.address.toNat = covered before := by
    rw [haddress, UInt16.zero_add, UInt16.toNat_mod, UInt16.toNat_ofNat', hspace]
    omega
  have hk' : line.address = .ofNat (covered before) := by rw [← hk, UInt16.ofNat_toNat]
  refine ⟨by omega, ?_, ?_⟩
  · rw [hafter, hk', ← UInt16.ofNat_add, UInt16.zero_add]
    refine addressOfFirst_disassemble fun hnil ↦ ?_
    have hall := List.drop_eq_nil_iff.mp hnil
    have hlast : covered before + line.item.length = 16384 := by omega
    rw [hlast]
    rfl
  · intro i hi
    rw [hk]
    exact ListingItem.eq_inBytes (hitem.symm.trans hi)

namespace Board

open Processor

variable {b : Board}

/-! ### Boards at a line -/

/-- A board is about to do the instruction of a line. -/
structure AtLine (b : Board) (line : ListingLine) (i : Instruction) : Prop where
  consistent : b.Consistent
  state_eq : b.cpu.state = .t1
  number_eq : b.cpu.cycleNumber = 0
  pc_eq : b.cpu.pc = line.address
  fits : line.address.toNat + i.operation.length ≤ 16384
  operation_eq : i.operation = .ofOpcode b.nextOpcode
  operand_eq : i.operand = b.datapath.operand i.operation

/-- The processor finds the listed instruction if its bytes are those that are listed. -/
theorem atLine (hlines : disassemble 0 memory.toList = before ++ line :: after)
    (hitem : line.item = .instruction i) (h : b.Consistent) (hs : b.cpu.state = .t1)
    (hn : b.cpu.cycleNumber = 0) (hpc : b.cpu.pc = line.address)
    (hmemory : ∀ n < (Operation.ofOpcode b.nextOpcode).length,
      b.memory[b.cpu.pc.toNat + n]? = memory[b.cpu.pc.toNat + n]?) : b.AtLine line i := by
  obtain ⟨hfits, -, hbytes⟩ := line_of_memory hlines
  have hi := hbytes i hitem
  rw [hitem] at hfits
  have hbyte {n : Nat} (hlt : n < (Operation.ofOpcode b.nextOpcode).length) :
      (memory.toList.drop line.address.toNat)[n]?.getD 0 =
        b.memory[b.cpu.pc.toNat + n]?.getD 0 := by
    rw [hmemory n hlt, List.getElem?_drop, Vector.getElem?_toList, hpc]
  have hopcode : b.nextOpcode = b.memory[b.cpu.pc.toNat + 0]?.getD 0 :=
    if_neg (by rw [hs]; decide)
  have hinstruction : i = .decode b.nextOpcode (b.memory[b.cpu.pc.toNat + 1]?.getD 0)
      (b.memory[b.cpu.pc.toNat + 2]?.getD 0) := by
    rw [hi, Instruction.inBytes, hbyte (Operation.length_pos _), ← hopcode]
    exact Instruction.decode_congr (fun hle ↦ hbyte hle) fun hle ↦ hbyte hle
  have hoperation : i.operation = .ofOpcode b.nextOpcode := by
    rw [hinstruction]
    rfl
  refine ⟨h, hs, hn, hpc, hfits, hoperation, ?_⟩
  have hwithin : b.cpu.pc.toNat + (Operation.ofOpcode b.nextOpcode).length ≤ 16384 := by
    rw [← hoperation, hpc]
    exact hfits
  rw [hoperation, b.datapath.operand_ofOpcode hwithin]
  exact congrArg Instruction.operand hinstruction

namespace AtLine

variable (h : b.AtLine line i)

include h

theorem startsInstruction : b.startsInstruction := ⟨by rw [h.state_eq]; rfl, h.number_eq⟩

theorem bounded : b.datapath.Bounded := bounded_datapath h.consistent.wellFormed.toAligned

theorem operation_not_mem : i.operation ∉ [.increment .M, .decrement .M, .move .M .M] := by
  rw [h.operation_eq]
  exact Operation.ofOpcode_not_mem _

variable {schedule : List Stimulus} (hreach : b.ReachesBoundary schedule)

include hreach

theorem datapath_after :
    (b.driveAll schedule).datapath = b.datapath.instruction i.operation false := by
  have hjammed : ¬b.cpu.state = .t1i := by
    rw [h.state_eq]
    decide
  have hopcode : b.nextOpcode = b.datapath.byteAt b.cpu.pc := if_neg hjammed
  rw [datapath_driveAll h.consistent h.startsInstruction.state_ne_stopped hreach,
    completion_of_startsInstruction h.consistent h.startsInstruction, h.operation_eq, hopcode,
    if_neg hjammed]

theorem machine_after :
    (b.driveAll schedule).machine = b.machine.obey i.operation i.operand.toNat := by
  rw [machine, h.datapath_after hreach, h.operand_eq]
  exact b.datapath.machine_instruction h.bounded h.operation_not_mem

theorem pc_after : (b.driveAll schedule).cpu.pc =
    if i.operation.leaves b.cpu.flags then i.operation.target i.operand b.cpu.stack.top
    else (line.address + .ofNat i.operation.length) % addressSpace := by
  have hpc : (b.driveAll schedule).cpu.pc = (b.datapath.instruction i.operation false).pc :=
    congrArg Datapath.pc (h.datapath_after hreach)
  rw [hpc, Datapath.pc_instruction _ h.bounded h.operation_not_mem, ← h.operand_eq, ← h.pc_eq]
  rfl

theorem fetches_eq : fetches (b.stages schedule) =
    (List.range i.operation.length).map fun n ↦
      (line.address + .ofNat n, b.memory[line.address.toNat + n]?.getD 0) := by
  have hleft : b.bytesLeft = List.range i.operation.length := by
    rw [bytesLeft, if_pos (.inl (by rw [h.state_eq]; rfl)), runningOperation,
      runningOpcode_of_startsInstruction h.consistent h.startsInstruction, ← h.operation_eq,
      h.number_eq]
    rfl
  have hself := underway_self h.consistent.wellFormed h.startsInstruction.1 h.number_eq
  rw [fetches_driveAll h.consistent hself h.state_eq h.startsInstruction.state_ne_stopped
    (fun _ ↦ rfl) hreach, hleft]
  refine List.map_congr_left fun n hn ↦ ?_
  have hlt := List.mem_range.mp hn
  have hfits := h.fits
  -- the instruction ends before memory does, so its addresses do not wrap around
  have hplain : (b.cpu.addressAfter n).toNat = line.address.toNat + n := by
    rw [toNat_addressAfter, h.state_eq, if_neg (by decide), h.pc_eq]
    exact Nat.mod_eq_of_lt (by omega)
  have haddress : b.cpu.addressAfter n = line.address + .ofNat n := by
    rw [← UInt16.toNat_inj, hplain, UInt16.toNat_add, UInt16.toNat_ofNat']
    omega
  rw [hplain, haddress]

end AtLine

/-! ### From line to line -/

/-- Schedules make a board do one instruction after the other, none of which leads elsewhere or is
brought in by an interrupt, and the processor finds the bytes of each as they are in `memory`. -/
def RunsOn (memory : Vector UInt8 memoryCapacity) : List (List Stimulus) → Board → Prop
  | [], _ => True
  | schedule :: schedules, b =>
    b.cpu.state = .t1 ∧ b.cpu.cycleNumber = 0 ∧
    (∀ n < (Operation.ofOpcode b.nextOpcode).length,
      b.memory[b.cpu.pc.toNat + n]? = memory[b.cpu.pc.toNat + n]?) ∧
    (Operation.ofOpcode b.nextOpcode).leaves b.cpu.flags = false ∧
    b.ReachesBoundary schedule ∧ RunsOn memory schedules (b.driveAll schedule)

instance decidableRunsOn (memory : Vector UInt8 memoryCapacity) :
    (schedules : List (List Stimulus)) → (b : Board) → Decidable (b.RunsOn memory schedules)
  | [], _ => inferInstanceAs (Decidable True)
  | schedule :: schedules, b =>
    have := decidableRunsOn memory schedules (b.driveAll schedule)
    inferInstanceAs (Decidable (_ ∧ _ ∧ _ ∧ _ ∧ _ ∧ _))

/-- The addresses of the instructions that schedules make a board do. -/
def visited : List (List Stimulus) → Board → List UInt16
  | [], _ => []
  | schedule :: schedules, b => b.cpu.pc :: visited schedules (b.driveAll schedule)

theorem visited_lines {lines rest : List ListingLine}
    (hlines : disassemble 0 memory.toList = before ++ (lines ++ rest))
    (hitems : ∀ line ∈ lines, ∃ i, line.item = .instruction i) (h : b.Consistent)
    (hpc : b.cpu.pc = addressOfFirst (lines ++ rest)) {schedules : List (List Stimulus)}
    (hlength : schedules.length = lines.length) (hruns : b.RunsOn memory schedules) :
    b.visited schedules = lines.map (·.address) ∧
      (b.driveAll schedules.flatten).cpu.pc = addressOfFirst rest := by
  -- at each line the program counter is its address, and the instruction takes it to the next one
  induction lines generalizing b before schedules with
  | nil =>
    obtain rfl := List.length_eq_zero_iff.mp hlength
    exact ⟨rfl, hpc⟩
  | cons line lines ih =>
    cases schedules with
    | nil => contradiction
    | cons schedule schedules =>
      obtain ⟨hs, hn, hmemory, hstays, hreach, hruns⟩ := hruns
      obtain ⟨⟨i, hitem⟩, hitems⟩ := List.forall_mem_cons.mp hitems
      have hat := atLine hlines hitem h hs hn hpc hmemory
      have hnext := (line_of_memory hlines).2.1
      have hafter := hat.pc_after hreach
      rw [hat.operation_eq, hstays, if_neg Bool.false_ne_true, ← hat.operation_eq] at hafter
      rw [hitem] at hnext
      have hrest : disassemble 0 memory.toList = (before ++ [line]) ++ (lines ++ rest) := by
        rw [hlines, List.append_assoc]
        rfl
      obtain ⟨hvisited, hend⟩ := ih hrest hitems (h.driveAll schedule) (hafter.trans hnext.symm)
        (Nat.succ.inj hlength) hruns
      rw [visited, hvisited, List.flatten_cons, driveAll_append, hend]
      exact ⟨congrArg (· :: _) hpc, rfl⟩

/-- **A listing tells what a board does.** Take an instruction in the disassembly of a memory, and
any attainable board with this memory that is about to start it. The next boundary is at most eleven
ticks away if memory is ready. Up to there the board fetches the bytes of the instruction, in order
and once each, and no others; what it does is what the listed operation and operand say; and the
program counter goes to the target of the instruction, or on to the next line, which starts right
behind the bytes of this one, with 0 behind the last. So the addresses that a board comes by are
those of the lines, for as long as no instruction leads elsewhere. -/
theorem listing_agrees (hlines : disassemble 0 memory.toList = before ++ line :: after)
    (hitem : line.item = .instruction i) (hb : b.Attainable) (hmemory : b.memory = memory)
    (hs : b.cpu.state = .t1) (hn : b.cpu.cycleNumber = 0) (hpc : b.cpu.pc = line.address) :
    (∀ schedule : List Stimulus, (∀ x ∈ schedule, x.ready = true) → 11 ≤ schedule.length →
      ∃ n ≤ 11, b.ReachesBoundary (schedule.take n)) ∧
    (∀ schedule, b.ReachesBoundary schedule →
      (fetches (b.stages schedule) = (List.range i.operation.length).map fun n ↦
        (line.address + .ofNat n, memory[line.address.toNat + n]?.getD 0)) ∧
      (b.driveAll schedule).machine = b.machine.obey i.operation i.operand.toNat ∧
      (b.driveAll schedule).cpu.pc =
        if i.operation.leaves b.cpu.flags then i.operation.target i.operand b.cpu.stack.top
        else addressOfFirst after) ∧
    addressOfFirst after = (line.address + .ofNat i.operation.length) % addressSpace ∧
    ∀ lines rest, line :: after = lines ++ rest →
      (∀ l ∈ lines, ∃ j, l.item = .instruction j) →
      ∀ schedules : List (List Stimulus), schedules.length = lines.length →
        b.RunsOn memory schedules →
        b.visited schedules = lines.map (·.address) ∧
          (b.driveAll schedules.flatten).cpu.pc = addressOfFirst rest := by
  have hconsistent := hb.consistent_of_t1 hs
  have hat : b.AtLine line i :=
    atLine hlines hitem hconsistent hs hn hpc fun n _ ↦ by rw [hmemory]
  have hnext := (line_of_memory hlines).2.1
  rw [hitem] at hnext
  refine ⟨fun schedule hready hlong ↦ ?_, fun schedule hreach ↦ ⟨?_, ?_, ?_⟩, hnext,
    fun lines rest hsplit hitems schedules hlength hruns ↦ ?_⟩
  · exact exists_reachesBoundary hconsistent hat.startsInstruction hready hlong
  · rw [hat.fetches_eq hreach, hmemory]
  · exact hat.machine_after hreach
  · rw [hnext]
    exact hat.pc_after hreach
  · rw [hsplit] at hlines
    have hfirst : b.cpu.pc = addressOfFirst (lines ++ rest) := by
      rw [← hsplit]
      exact hpc
    exact visited_lines hlines hitems hconsistent hfirst hlength hruns

/-- A board that is about to load the accumulator and then to copy it. -/
def copying : Board :=
  performAll {} [.load [0x06, 0x2a, 0xc8] 0, .requestRestart 0, .run 7]

/-- Memory is not ready for the opcode at first. -/
def slowLoad : List Stimulus :=
  [{}, { ready := false }, { ready := false }, {}, {}, {}, {}, {}, {}, {}]

/-- An interrupt is requested in the last state of the move. -/
def interruptedMove : List Stimulus := [{}, {}, {}, {}, { requests := [0x05] }]

theorem copying_listed :
    fetches (copying.stages slowLoad) = [(0, 0x06), (1, 0x2a)] ∧
    copying.visited [slowLoad, interruptedMove] = [0, 2] ∧
    (copying.driveAll [slowLoad, interruptedMove].flatten).cpu.pc = 3 := by
  have hattainable : copying.Attainable := (Reachable.fresh.performAll (by decide)).attainable
  obtain ⟨hs, hn, hpc, htake⟩ : copying.cpu.state = .t1 ∧ copying.cpu.cycleNumber = 0 ∧
      copying.cpu.pc = 0 ∧ copying.memory.toList.take 3 = [0x06, 0x2a, 0xc8] := by decide +kernel
  have hruns : copying.RunsOn copying.memory [slowLoad, interruptedMove] := by decide +kernel
  have ⟨_, _, _, _, hreach, _⟩ := hruns
  -- how the other bytes are listed does not matter
  obtain ⟨rest, hlines⟩ : ∃ rest, disassemble 0 copying.memory.toList =
      [] ++ ⟨0, .instruction (.decode 0x06 0x2a 0)⟩ ::
        ⟨2, .instruction (.decode 0xc8 0 0)⟩ :: rest := by
    rw [← List.take_append_drop 3 copying.memory.toList, htake]
    exact ⟨_, rfl⟩
  obtain ⟨-, hwhole, -, hline⟩ := listing_agrees hlines rfl hattainable rfl hs hn hpc
  obtain ⟨hfetches, -⟩ := hwhole slowLoad hreach
  obtain ⟨hvisited, hend⟩ := hline [_, _] rest rfl (by simp) _ rfl hruns
  have hlast : disassemble 0 copying.memory.toList = [⟨0, .instruction (.decode 0x06 0x2a 0)⟩] ++
      ⟨2, .instruction (.decode 0xc8 0 0)⟩ :: rest := hlines
  have hrest : addressOfFirst rest = 3 := (line_of_memory hlast).2.1
  exact ⟨hfetches.trans (by decide +kernel), hvisited, hend.trans hrest⟩

end Board

end

end Mcs8
