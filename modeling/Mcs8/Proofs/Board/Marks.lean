import Mathlib.Data.Finset.Erase
import Mathlib.Data.Finset.SDiff
import Mcs8.Proofs.Board.Run

/-!
# Marks

The breakpoints of a board are two sets of addresses in one map: those that a host has marked for
good and those that it has marked for one hit. `Marks.after` says how each command of a host changes
the two sets, and that they have nothing to do with each other. A run does no more to them than take
away the temporary mark at the instruction that it comes to last (`find?_run`), so the breakpoints
hold the marks after any commands (`Holds.debugAll`): there is one where there is a mark, with the
marks that are there, and none anywhere else.
-/

namespace Mcs8

/-- What a host does with a board that it debugs. -/
inductive DebugCommand where
  | setBreakpoint (address : UInt16) (temporary : Bool)
  | clearBreakpoint (address : UInt16) (temporary : Bool)
  /-- Stop at the next instruction, or no longer. -/
  | setBreakOnNext (value : Bool)
  | act (a : Action)
  deriving DecidableEq

namespace Board

variable (b : Board)

/-- Carry out a command. -/
def debug : DebugCommand → Board
  | .setBreakpoint address temporary => b.setBreakpoint address temporary
  | .clearBreakpoint address temporary => b.clearBreakpoint address temporary
  | .setBreakOnNext value => { b with breakOnNext := value }
  | .act a => b.perform a

/-- Carry out commands one after the other. -/
def debugAll (commands : List DebugCommand) : Board := commands.foldl debug b

/-- The address of the instruction that a run comes to with its last tick, if it makes a tick and
comes to an instruction. -/
def arrivals (budget : UInt64) : Finset UInt16 :=
  if 0 < b.ticksOf budget ∧ (b.run budget).board.atInstruction = true then
    {(b.run budget).board.cpu.pc}
  else ∅

end Board

/-- The addresses that a host has marked, for good and for one hit. -/
structure Marks where
  persistent : Finset UInt16 := ∅
  temporary : Finset UInt16 := ∅

namespace Marks

/-- The marks after a command to a board. -/
def after (m : Marks) (b : Board) : DebugCommand → Marks
  | .setBreakpoint address false => { m with persistent := insert address m.persistent }
  | .setBreakpoint address true => { m with temporary := insert address m.temporary }
  | .clearBreakpoint address false => { m with persistent := m.persistent.erase address }
  | .clearBreakpoint address true => { m with temporary := m.temporary.erase address }
  | .act (.run budget) => { m with temporary := m.temporary \ b.arrivals budget }
  | .act _ | .setBreakOnNext _ => m

/-- The marks after commands to a board, one after the other. -/
def afterAll (m : Marks) (b : Board) : List DebugCommand → Marks
  | [] => m
  | command :: rest => (m.after b command).afterAll (b.debug command) rest

/-- A breakpoint with the marks at an address. -/
def breakpoint (m : Marks) (address : UInt16) : Breakpoint where
  address := address
  persistent := address ∈ m.persistent
  temporary := address ∈ m.temporary

variable {m : Marks} {address : UInt16}

theorem eq_breakpoint_iff {p : Breakpoint} : p = m.breakpoint address ↔ p.address = address ∧
    (p.persistent = true ↔ address ∈ m.persistent) ∧
    (p.temporary = true ↔ address ∈ m.temporary) := by
  have hmark (value : Bool) (marked : Finset UInt16) :
      value = decide (address ∈ marked) ↔ (value = true ↔ address ∈ marked) := by
    rw [Bool.eq_iff_iff, decide_eq_true_eq]
  obtain ⟨own, persistent, temporary⟩ := p
  rw [breakpoint, Breakpoint.mk.injEq, hmark, hmark]

theorem breakpoint_congr {m' : Marks} (hpersistent : address ∈ m.persistent ↔ address ∈ m'.persistent)
    (htemporary : address ∈ m.temporary ↔ address ∈ m'.temporary) :
    m.breakpoint address = m'.breakpoint address := by
  rw [breakpoint, breakpoint, Breakpoint.mk.injEq, decide_eq_decide, decide_eq_decide]
  exact ⟨rfl, hpersistent, htemporary⟩

theorem isMarked_breakpoint :
    (m.breakpoint address).isMarked = true ↔ address ∈ m.persistent ∨ address ∈ m.temporary := by
  rw [breakpoint, Breakpoint.isMarked, Bool.or_eq_true, decide_eq_true_eq, decide_eq_true_eq]

end Marks

namespace Breakpoints

variable {bs : Breakpoints} {m : Marks} {address a : UInt16} {temporary : Bool}

theorem keepMarked_eq_some {p q : Breakpoint} : keepMarked p = some q ↔ p.isMarked = true ∧ p = q := by
  unfold keepMarked
  split <;> simp_all

/-- The breakpoints are those of the marks. -/
def Holds (bs : Breakpoints) (m : Marks) : Prop := ∀ a, bs.find? a = keepMarked (m.breakpoint a)

/-- A breakpoint is found under its own address. -/
theorem find?_address {p : Breakpoint} (h : p ∈ bs.entries) : bs.find? p.address = some p := by
  rw [find?]
  obtain ⟨before, after, hsplit⟩ := List.append_of_mem h
  have hbefore : ∀ q ∈ before, q.address < p.address := by
    have hsorted := bs.sorted
    rw [hsplit, List.pairwise_append] at hsorted
    exact fun q hq ↦ hsorted.2.2 q hq p List.mem_cons_self
  rw [hsplit, List.find?_append, List.find?_eq_none.mpr, Option.none_or,
    find?_cons, if_pos rfl]
  exact fun q hq heq ↦ UInt16.lt_irrefl _ (beq_iff_eq.mp heq ▸ hbefore q hq)

/-- An absent breakpoint is as good as one without marks. -/
theorem Holds.getD_eq (h : bs.Holds m) : (bs.find? a).getD { address := a } = m.breakpoint a := by
  rw [h a, keepMarked]
  cases hmarked : (m.breakpoint a).isMarked with
  | true => rfl
  | false =>
    have hnone := Marks.isMarked_breakpoint.not.mp (Bool.eq_false_iff.mp hmarked)
    rw [not_or] at hnone
    simp [Marks.breakpoint, hnone]

/-- Setting or clearing a mark sets or clears it in the set of its kind. -/
theorem Holds.alter (h : bs.Holds m) {value : Bool} {m' : Marks} {bs' : Breakpoints}
    (hentries : bs'.entries = Breakpoints.alter address temporary value bs.entries)
    (hself : (m.breakpoint address).mark temporary value = m'.breakpoint address)
    (hother : ∀ a, a ≠ address → m.breakpoint a = m'.breakpoint a) : bs'.Holds m' := by
  intro a
  rw [find?, hentries, find?_alter bs.sorted]
  split
  next ha =>
    subst ha
    rw [← find?, h.getD_eq, hself]
  next ha =>
    rw [← find?, h a, hother a ha]

theorem Holds.set (h : bs.Holds m) (b : Board) :
    (bs.set address temporary).Holds (m.after b (.setBreakpoint address temporary)) := by
  refine h.alter rfl ?_ fun a ha ↦ ?_ <;> rw [Marks.eq_breakpoint_iff] <;> cases temporary <;>
    simp_all [Marks.after, Marks.breakpoint, Breakpoint.mark]

theorem Holds.clear (h : bs.Holds m) (b : Board) :
    (bs.clear address temporary).Holds (m.after b (.clearBreakpoint address temporary)) := by
  refine h.alter rfl ?_ fun a ha ↦ ?_ <;> rw [Marks.eq_breakpoint_iff] <;> cases temporary <;>
    simp_all [Marks.after, Marks.breakpoint, Breakpoint.mark]

end Breakpoints

namespace Board

variable {b : Board} {m : Marks}

/-- A run takes away the temporary mark at the instruction that it comes to. -/
theorem find?_run (b : Board) (budget : UInt64) (a : UInt16) :
    (b.run budget).board.breakpoints.find? a =
      if a ∈ b.arrivals budget then (b.breakpoints.clear a true).find? a
      else b.breakpoints.find? a := by
  obtain rfl | hne := eq_or_ne budget 0
  · have hticks : b.ticksOf 0 = 0 := rfl
    rw [arrivals, hticks]
    simp [run, runFrom]
  obtain ⟨n, hleast, hend⟩ := b.exists_endsAt ""
    (Nat.pos_of_ne_zero fun h ↦ hne (UInt64.toNat_inj.mp h))
  change b.EndsAt budget.toNat n (b.run budget) at hend
  have hticks : 0 < b.ticksOf budget := by
    rw [ticksOf, ← hend.remaining_eq, Nat.add_sub_cancel_left]
    exact hleast.1.1
  have hcpu : (b.run budget).board.cpu = (tick^[n] b).cpu := by
    rw [hend.board_eq]
    split
    · rw [consumeBreakpoint_frame]
    · rfl
  have hmem : a ∈ b.arrivals budget ↔
      (tick^[n] b).atInstruction = true ∧ a = (tick^[n] b).cpu.pc := by
    rw [arrivals, atInstruction, hcpu, ← atInstruction]
    split <;> simp_all
  have hbreakpoints := (b.breakpoints_iterate n).1
  rw [if_congr hmem rfl rfl, hend.board_eq, ← hbreakpoints]
  cases hreason : (b.run budget).reasons.breakpoint with
  | true =>
    rw [if_pos rfl, find?_consumeBreakpoint, Breakpoints.find?_clear_temporary, if_pos rfl]
  | false =>
    rw [if_neg Bool.false_ne_true]
    split
    next hat =>
      -- the run would have stopped at a breakpoint here, so there is none
      have hmeets : (tick^[n] b).meetsBreakpoint = false := by
        rw [Bool.eq_false_iff, ne_eq, ← b.breaksAt_iff, ← hend.breakpoint_iff, hreason]
        exact Bool.false_ne_true
      have hnone : (tick^[n] b).breakpoints.find? a = none := by
        rw [meetsBreakpoint, hat.1, Bool.true_and, Bool.or_eq_false_iff] at hmeets
        rw [hat.2]
        exact Option.not_isSome_iff_eq_none.mp (Bool.eq_false_iff.mp hmeets.2)
      rw [Breakpoints.find?_clear_temporary, if_pos rfl, hnone]
      rfl
    next => rfl

/-- No action but a run touches the breakpoints. -/
theorem breakpoints_perform {a : Action} (h : a.runs = false) :
    (b.perform a).breakpoints = b.breakpoints := by
  cases a with
  | tick => exact b.breakpoints_tick.1
  | run budget => contradiction
  | load bytes origin => rw [perform_load_frame]
  | poke address value => rw [perform_poke_frame]
  | _ => rfl

theorem holds_run (h : b.breakpoints.Holds m) (budget : UInt64) :
    (b.run budget).board.breakpoints.Holds (m.after b (.act (.run budget))) := by
  intro a
  rw [find?_run]
  split
  next ha =>
    rw [h.clear b a]
    exact congrArg _ (Marks.breakpoint_congr Iff.rfl (by simp [Marks.after, ha]))
  next ha =>
    rw [h a]
    exact congrArg _ (Marks.breakpoint_congr Iff.rfl (by simp [Marks.after, ha]))

/-- A command keeps the breakpoints in step with the marks. -/
theorem holds_debug (h : b.breakpoints.Holds m) (command : DebugCommand) :
    (b.debug command).breakpoints.Holds (m.after b command) := by
  cases command with
  | setBreakpoint address temporary => exact h.set b
  | clearBreakpoint address temporary => exact h.clear b
  | setBreakOnNext value => exact h
  | act a =>
    cases hruns : a.runs with
    | true =>
      cases a with
      | run budget => exact holds_run h budget
      | _ => contradiction
    | false =>
      have hmarks : m.after b (.act a) = m := by
        cases a with
        | run budget => contradiction
        | _ => rfl
      rw [hmarks]
      exact (breakpoints_perform hruns).symm ▸ h

theorem holds_debugAll (h : b.breakpoints.Holds m) (commands : List DebugCommand) :
    (b.debugAll commands).breakpoints.Holds (m.afterAll b commands) := by
  induction commands generalizing b m with
  | nil => exact h
  | cons command rest ih => exact ih (holds_debug h command)

/-- **The breakpoints are two independent sets of addresses.** After any commands to a fresh board:

* there is a breakpoint at an address exactly if the address is marked, for good or for one hit;
* a breakpoint has the address under which it is found and the marks that the address has;
* every entry of the map is found under its address and has a mark, so that nothing is left behind
  where the last mark is gone;
* so the board stops before an instruction exactly if it is to stop at the next one or the address
  of this one is marked. -/
theorem breakpoints_are_marks (commands : List DebugCommand) :
    let b := ({} : Board).debugAll commands
    let m := ({} : Marks).afterAll {} commands
    (∀ a, b.breakpoints.contains a = true ↔ a ∈ m.persistent ∨ a ∈ m.temporary) ∧
    (∀ a p, b.breakpoints.find? a = some p → p.address = a ∧
      (p.persistent = true ↔ a ∈ m.persistent) ∧ (p.temporary = true ↔ a ∈ m.temporary)) ∧
    (∀ p ∈ b.breakpoints.entries, b.breakpoints.find? p.address = some p ∧ p.isMarked = true) ∧
    (b.meetsBreakpoint = true ↔ b.atInstruction = true ∧
      (b.breakOnNext = true ∨ b.cpu.pc ∈ m.persistent ∨ b.cpu.pc ∈ m.temporary)) := by
  intro b m
  have hholds : b.breakpoints.Holds m := holds_debugAll (fun a ↦ rfl) commands
  have hcontains (a : UInt16) :
      b.breakpoints.contains a = true ↔ a ∈ m.persistent ∨ a ∈ m.temporary := by
    rw [Breakpoints.contains, Option.isSome_iff_exists, hholds a, ← Marks.isMarked_breakpoint]
    simp [Breakpoints.keepMarked_eq_some]
  have hfound (a : UInt16) (p : Breakpoint) (hp : b.breakpoints.find? a = some p) :
      (m.breakpoint a).isMarked = true ∧ m.breakpoint a = p :=
    Breakpoints.keepMarked_eq_some.mp ((hholds a).symm.trans hp)
  refine ⟨hcontains, fun a p hp ↦ ?_, fun p hp ↦ ?_, ?_⟩
  · exact Marks.eq_breakpoint_iff.mp (hfound a p hp).2.symm
  · have hown := Breakpoints.find?_address hp
    obtain ⟨hmarked, heq⟩ := hfound _ p hown
    exact ⟨hown, heq ▸ hmarked⟩
  · rw [meetsBreakpoint, Bool.and_eq_true, Bool.or_eq_true, hcontains]

/-- A breakpoint of both kinds at an instruction that a run comes to. -/
def markedTwice : List DebugCommand :=
  [.setBreakpoint 0 true, .setBreakpoint 0 false, .act (.requestInterrupt 0xc0), .act (.run 20)]

/-- The hit takes the temporary mark away, and the persistent one stays. -/
theorem markedTwice_hit : ∃ p, (({} : Board).debugAll markedTwice).breakpoints.find? 0 = some p ∧
    p.address = 0 ∧ p.persistent = true ∧ p.temporary = false := by
  obtain ⟨hcontains, hfields, -, -⟩ := breakpoints_are_marks markedTwice
  have hpersistent : 0 ∈ (({} : Marks).afterAll {} markedTwice).persistent := by decide +kernel
  have htemporary : 0 ∉ (({} : Marks).afterAll {} markedTwice).temporary := by decide +kernel
  obtain ⟨p, hp⟩ := Option.isSome_iff_exists.mp ((hcontains 0).mpr (.inl hpersistent))
  obtain ⟨haddress, hone, htwo⟩ := hfields 0 p hp
  exact ⟨p, hp, haddress, hone.mpr hpersistent,
    Bool.eq_false_iff.mpr fun h ↦ htemporary (htwo.mp h)⟩

end Board

end Mcs8
