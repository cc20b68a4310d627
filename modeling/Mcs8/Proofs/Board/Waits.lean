import Mathlib.Data.List.Iterate
import Mcs8.Proofs.Board.Periphery

/-!
# Transparent waits

Memory that is not ready holds a machine cycle up between `T2` and `T3`. Without interrupts this is
all it does: a board goes through the ticks of an unhindered one, whose memory is always ready, with
waits put in between. Each of its ticks is either the next one of the unhindered board
(`Follows.tick`) or a wait that changes nothing (`Follows.tick_of_wait`). So two boards that begin
alike and wait differently both follow the same third one, and differ in times only.
-/

namespace Mcs8

namespace Processor

variable (p : Processor)

/-- The processor past its waits: one that waits is in `T3` when they are over. -/
def pastWait : Processor := if p.state = .wait then { p with state := .t3 } else p

variable {p}

theorem pastWait_of_wait (h : p.state = .wait) : p.pastWait = { p with state := .t3 } := if_pos h

theorem pastWait_of_ne_wait (h : p.state ≠ .wait) : p.pastWait = p := if_neg h

theorem core_pastWait : p.pastWait.core = p.core.pastWait := by
  by_cases h : p.state = .wait
  · rw [pastWait_of_wait h, pastWait_of_wait (p.state_core.trans h)]
    rfl
  · rw [pastWait_of_ne_wait h, pastWait_of_ne_wait (p.state_core ▸ h)]

/-- Before `T3` a step moves on and leaves the rest of the core. -/
theorem core_stepWith_of_precedesT3 {x : Pins} (h : p.state.precedesT3 = true) :
    (p.stepWith x).core = { p.core with state := p.state.next { ready := x.ready } } := by
  rw [stepWith_of_precedesT3 h]
  rfl

end Processor

namespace Board

variable {b x y c : Board}

/-- The board past its waits, with memory that is always ready. -/
def unhindered (b : Board) : Board := { b with cpu := b.cpu.pastWait, readyLevel := true }

/-- What a trace records of the next tick, but for the time. -/
def observation (b : Board) : BusRecord := { b.settle.busRecord with tick := 0 }

/-- The board `x` has come as far as the unhindered board `c`, or waits on the way there. -/
structure Follows (x c : Board) : Prop extends x.SamePeriphery c where
  core_eq : x.cpu.core.pastWait = c.cpu.core
  idle : x.Idle
  idle_unhindered : c.Idle
  readyLevel_eq : c.readyLevel = true

namespace Follows

theorem unhindered (h : b.Idle) : b.Follows b.unhindered where
  toSamePeriphery := ⟨rfl, rfl, rfl, rfl, rfl⟩
  core_eq := Processor.core_pastWait.symm
  idle := h
  idle_unhindered := by
    have haccepted : b.cpu.pastWait.accepted = false ∧
        b.cpu.pastWait.synchronizer = b.cpu.synchronizer := by
      unfold Processor.pastWait
      split <;> exact ⟨h.accepted_eq, rfl⟩
    obtain ⟨haccepted, hsynchronizer⟩ := haccepted
    constructor <;> simp only [Board.unhindered, hsynchronizer, haccepted]
    exacts [h.line_eq, h.waiting_eq, h.first_eq, h.second_eq, h.request_eq]
  readyLevel_eq := rfl

theorem setReady (h : x.Follows c) (ready : Bool) : (x.setReady ready).Follows c :=
  { h with
    idle := { h.idle with }
    memory_eq := h.memory_eq
    ports_eq := h.ports_eq
    latch_eq := h.latch_eq
    bus_eq := h.bus_eq
    answer_eq := h.answer_eq }

/-- A board that has to wait has not moved on. -/
theorem tick_of_wait (h : x.Follows c) (hs : x.cpu.state = .wait) : x.tick.Follows c where
  toSamePeriphery := by
    have hne : x.cpu.state ≠ .t3 := by rw [hs]; exact nofun
    have hbus : x.settle.bus = x.bus := by
      rw [settle_bus, offers_of_ne_t3 hne, Processor.offer, hs]
      rfl
    have hkept : x.tick.SamePeriphery x := by
      constructor
      · rw [memory_tick, if_neg fun hboth ↦ hne hboth.1]
      · rw [ports_tick, if_neg fun hall ↦ hne hall.1]
      · rw [latch_tick, hs]
        rfl
      · rw [bus_tick, hbus]
      · exact h.idle.answer_tick
    exact hkept.trans h.toSamePeriphery
  core_eq := by
    have hprecedes : x.cpu.state.precedesT3 = true := by rw [hs]; rfl
    rw [← h.core_eq, cpu_tick, Processor.core_stepWith_of_precedesT3 hprecedes, hs,
      Processor.pastWait_of_wait (x.cpu.state_core.trans hs), TState.next]
    cases x.pins.ready <;> rfl
  idle := h.idle.tick
  idle_unhindered := h.idle_unhindered
  readyLevel_eq := h.readyLevel_eq

section

variable (h : x.Follows c) (hs : x.cpu.state ≠ .wait)

include h hs

theorem core_eq_of_ne_wait : x.cpu.core = c.cpu.core := by
  rw [← h.core_eq, Processor.pastWait_of_ne_wait (x.cpu.state_core ▸ hs)]

theorem observation_eq : x.observation = c.observation := by
  have hcore := h.core_eq_of_ne_wait hs
  have hstate : x.cpu.state = c.cpu.state := congrArg (·.state) hcore
  have hkind : x.cpu.cycleKind = c.cpu.cycleKind := congrArg (·.cycleKind) hcore
  show BusRecord.mk 0 x.cpu.state x.cpu.cycleKind x.settle.bus x.settle.owner =
    BusRecord.mk 0 c.cpu.state c.cpu.cycleKind c.settle.bus c.settle.owner
  rw [hstate, hkind, h.settle_bus_eq hcore, h.settle_owner_eq hcore]

/-- A tick leads to the same core, except that the board may have to wait where the unhindered one
is in `T3`. -/
theorem core_tick_eq : x.tick.cpu.core.pastWait = c.tick.cpu.core := by
  have hcore := h.core_eq_of_ne_wait hs
  have hstate : x.cpu.state = c.cpu.state := congrArg (·.state) hcore
  by_cases hs₂ : x.cpu.state = .t2
  · have hprecedes : x.cpu.state.precedesT3 = true := by rw [hs₂]; rfl
    have hready : c.pins.ready = true := h.readyLevel_eq
    rw [cpu_tick, cpu_tick, Processor.core_stepWith_of_precedesT3 hprecedes,
      Processor.core_stepWith_of_precedesT3 (hstate ▸ hprecedes), hcore, ← hstate, hs₂, hready]
    cases x.pins.ready <;> rfl
  · -- in no other state does the sequencer look at the ready line
    have hnext : x.tick.cpu.state = c.tick.cpu.state := by
      rw [h.idle.state_tick, h.idle_unhindered.state_tick, hcore, h.settle_bus_eq hcore, ← hstate]
      cases hx : x.cpu.state <;> first | contradiction | rfl
    have hne : x.tick.cpu.state ≠ .wait := by
      rw [h.idle.state_tick]
      cases hx : x.cpu.state <;>
        first | contradiction | (simp only [TState.next, TState.cycleStart]; grind)
    rw [Processor.pastWait_of_ne_wait (x.tick.cpu.state_core ▸ hne)]
    exact Board.core_tick_eq h.toSamePeriphery hcore hnext

/-- A board that does not wait moves on with the unhindered one. -/
theorem tick : x.tick.Follows c.tick where
  toSamePeriphery := by
    refine h.toSamePeriphery.tick (h.core_eq_of_ne_wait hs) ?_
    rw [h.idle.answer_tick, h.idle_unhindered.answer_tick, h.answer_eq]
  core_eq := h.core_tick_eq hs
  idle := h.idle.tick
  idle_unhindered := h.idle_unhindered.tick
  readyLevel_eq := by
    rw [tick_eq, carryOut_frame, clocked_frame]
    exact h.readyLevel_eq

end

end Follows

/-! ### Runs -/

/-- The boards with which the ticks begin, one tick for each level of the ready line. -/
def readyStages (b : Board) (levels : List Bool) : List Board :=
  b.stages (levels.map fun ready ↦ { ready })

/-- What happens in the ticks that are not waits. -/
def activity (b : Board) (levels : List Bool) : List BusRecord :=
  ((b.readyStages levels).filter (·.cpu.state ≠ .wait)).map observation

/-- The number of ticks that are waits. -/
def waitCount (b : Board) (levels : List Bool) : Nat :=
  (b.readyStages levels).countP (·.cpu.state = .wait)

theorem readyStages_cons (b : Board) (ready : Bool) (levels : List Bool) :
    b.readyStages (ready :: levels) =
      b.setReady ready :: (b.setReady ready).tick.readyStages levels := rfl

theorem driveReady_cons (b : Board) (ready : Bool) (levels : List Bool) :
    b.driveReady (ready :: levels) = (b.setReady ready).tick.driveReady levels := rfl

theorem activity_cons_of_wait (hs : b.cpu.state = .wait) (ready : Bool) (levels : List Bool) :
    b.activity (ready :: levels) = (b.setReady ready).tick.activity levels := by
  rw [activity, readyStages_cons, List.filter_cons_of_neg (by simp [setReady, hs]), activity]

theorem activity_cons_of_ne_wait (hs : b.cpu.state ≠ .wait) (ready : Bool) (levels : List Bool) :
    b.activity (ready :: levels) =
      (b.setReady ready).observation :: (b.setReady ready).tick.activity levels := by
  rw [activity, readyStages_cons, List.filter_cons_of_pos (by simp [setReady, hs]),
    List.map_cons, activity]

/-- Each tick is a wait or not. -/
theorem activity_length_add_waitCount (b : Board) (levels : List Bool) :
    (b.activity levels).length + b.waitCount levels = levels.length := by
  induction levels generalizing b with
  | nil => rfl
  | cons ready levels ih =>
    have hrest := ih (b.setReady ready).tick
    have hstate : (b.setReady ready).cpu.state = b.cpu.state := rfl
    rw [waitCount] at hrest ⊢
    rw [readyStages_cons, List.length_cons]
    by_cases hs : b.cpu.state = .wait
    · rw [activity_cons_of_wait hs, List.countP_cons_of_pos (by simp [hstate, hs])]
      omega
    · rw [activity_cons_of_ne_wait hs, List.countP_cons_of_neg (by simp [hstate, hs]),
        List.length_cons]
      omega

/-- A run goes through the ticks of the unhindered board, as many as it does not wait. -/
theorem Follows.driveReady (h : x.Follows c) (levels : List Bool) :
    x.activity levels =
        (List.iterate Board.tick c (x.activity levels).length).map observation ∧
      (x.driveReady levels).Follows (Board.tick^[(x.activity levels).length] c) := by
  induction levels generalizing x c with
  | nil => exact ⟨rfl, h⟩
  | cons ready levels ih =>
    have hset := h.setReady ready
    rw [driveReady_cons]
    by_cases hs : x.cpu.state = .wait
    · rw [activity_cons_of_wait hs]
      exact ih (hset.tick_of_wait hs)
    · obtain ⟨hactivity, hfollows⟩ := ih (hset.tick hs)
      rw [activity_cons_of_ne_wait hs, List.length_cons, Function.iterate_succ_apply]
      refine ⟨?_, hfollows⟩
      rw [List.iterate, List.map_cons, ← hactivity, hset.observation_eq hs]

/-- Ticks and steps are counted, and nothing else of a run is. -/
theorem ticks_driveReady (b : Board) (levels : List Bool) :
    (b.driveReady levels).ticks = b.ticks + .ofNat levels.length ∧
      (b.driveReady levels).cpu.cycles = b.cpu.cycles + .ofNat levels.length ∧
      (b.driveReady levels).cpu.announces = b.cpu.announces := by
  induction levels generalizing b with
  | nil => simp [driveReady]
  | cons ready levels ih =>
    obtain ⟨hticks, hcycles, hannounces⟩ := ih (b.setReady ready).tick
    obtain ⟨-, -, -, hstep, hkept⟩ :=
      (b.setReady ready).cpu.samples_stepWith (x := (b.setReady ready).pins)
    rw [cpu_tick, hstep] at hcycles
    rw [cpu_tick, hkept] at hannounces
    rw [ticks_tick] at hticks
    have hone (count : UInt64) : count + 1 + .ofNat levels.length =
        count + .ofNat (ready :: levels).length := by
      rw [List.length_cons, UInt64.ofNat_add, UInt64.add_comm (.ofNat levels.length),
        ← UInt64.add_assoc]
      rfl
    exact ⟨hticks.trans (hone _), hcycles.trans (hone _), hannounces⟩

/-! ### What waits do not change -/

/-- The boards agree on all but times and the ready line: on the processor but for its sample of
that line and its count of steps, on memory, address latch, bus and ports, and on the bytes written
to output ports, in their order. -/
structure AgreeButForTimes (x y : Board) : Prop where
  cpu_eq : { x.cpu with readySample := y.cpu.readySample, cycles := y.cpu.cycles } = y.cpu
  memory_eq : x.memory = y.memory
  latch_eq : x.latch = y.latch
  bus_eq : x.bus = y.bus
  inputs_eq : x.ports.inputs = y.ports.inputs
  outputs_eq : x.ports.outputs = y.ports.outputs
  written_eq : (x.ports.log.toList.map fun record ↦ (record.port, record.value)) =
    y.ports.log.toList.map fun record ↦ (record.port, record.value)

/-- The processor has sampled bus and interrupt line in the latest tick, and its interrupt logic has
found nothing in it. -/
structure Sampled (b : Board) : Prop where
  busSample_eq : b.cpu.busSample = b.bus
  interruptSample_eq : b.cpu.interruptSample = false
  synchronizer_eq : b.cpu.synchronizer = {}

theorem Idle.sampled_tick (h : b.Idle) : b.tick.Sampled := by
  obtain ⟨hbus, -, hinterrupt, -, -⟩ := b.cpu.samples_stepWith (x := b.pins)
  constructor
  · rw [cpu_tick, hbus, bus_tick, pins]
  · rw [cpu_tick, hinterrupt, h.interrupt_pins]
  · exact h.synchronizer_tick

theorem Idle.driveReady (h : b.Idle) (levels : List Bool) : (b.driveReady levels).Idle := by
  induction levels generalizing b with
  | nil => exact h
  | cons ready levels ih =>
    have hset : (b.setReady ready).Idle := { h with }
    exact ih hset.tick

theorem Idle.sampled_driveReady (h : b.Idle) {levels : List Bool} (hne : levels ≠ []) :
    (b.driveReady levels).Sampled := by
  obtain ⟨earlier, ready, rfl⟩ := (List.eq_nil_or_concat levels).resolve_left hne
  rw [List.concat_eq_append, driveReady_concat]
  have hset : ((b.driveReady earlier).setReady ready).Idle := { h.driveReady earlier with }
  exact hset.sampled_tick

/-- Two boards that have come as far as the same unhindered one agree where neither waits. -/
theorem Follows.agreeButForTimes (hx : x.Follows c) (hy : y.Follows c)
    (hx' : x.Sampled) (hy' : y.Sampled) (hsx : x.cpu.state ≠ .wait) (hsy : y.cpu.state ≠ .wait)
    (hannounces : x.cpu.announces = y.cpu.announces) : x.AgreeButForTimes y := by
  have hsame : x.SamePeriphery y := hx.toSamePeriphery.trans hy.toSamePeriphery.symm
  refine
    { cpu_eq := ?_, memory_eq := hsame.memory_eq, latch_eq := hsame.latch_eq
      bus_eq := hsame.bus_eq, inputs_eq := hsame.inputs_eq, outputs_eq := hsame.outputs_eq
      written_eq := hsame.written_eq }
  have hcore : x.cpu.core = y.cpu.core :=
    (hx.core_eq_of_ne_wait hsx).trans (hy.core_eq_of_ne_wait hsy).symm
  refine Processor.eq_of_core hcore ⟨?_, rfl, ?_⟩ ⟨?_, ?_⟩ rfl hannounces
  · exact hx'.busSample_eq.trans (hsame.bus_eq.trans hy'.busSample_eq.symm)
  · exact hx'.interruptSample_eq.trans hy'.interruptSample_eq.symm
  · exact hx.idle.accepted_eq.trans hy.idle.accepted_eq.symm
  · exact hx'.synchronizer_eq.trans hy'.synchronizer_eq.symm

theorem agreeButForTimes_driveReady (h : b.Idle) {first second : List Bool}
    (hlength : (b.activity first).length = (b.activity second).length)
    (hs₁ : (b.driveReady first).cpu.state ≠ .wait)
    (hs₂ : (b.driveReady second).cpu.state ≠ .wait) :
    (b.driveReady first).AgreeButForTimes (b.driveReady second) := by
  -- a board that has not begun its first tick has not sampled its pins, but then neither has begun
  have hne {levels : List Bool} (hs : b.cpu.state ≠ .wait) (hlevels : levels ≠ []) :
      (b.activity levels).length ≠ 0 := by
    obtain ⟨ready, rest, rfl⟩ := List.exists_cons_of_ne_nil hlevels
    rw [activity_cons_of_ne_wait hs, List.length_cons]
    exact Nat.succ_ne_zero _
  have hagree : b.AgreeButForTimes b := ⟨rfl, rfl, rfl, rfl, rfl, rfl, rfl⟩
  by_cases hfirst : first = [] <;> by_cases hsecond : second = []
  · subst hfirst hsecond
    exact hagree
  · subst hfirst
    exact absurd hlength.symm (hne hs₁ hsecond)
  · subst hsecond
    exact absurd hlength (hne hs₂ hfirst)
  · obtain ⟨-, hfollows₁⟩ := (Follows.unhindered h).driveReady first
    obtain ⟨-, hfollows₂⟩ := (Follows.unhindered h).driveReady second
    rw [hlength] at hfollows₁
    have hannounces := (b.ticks_driveReady first).2.2.trans (b.ticks_driveReady second).2.2.symm
    exact hfollows₁.agreeButForTimes hfollows₂ (h.sampled_driveReady hfirst)
      (h.sampled_driveReady hsecond) hs₁ hs₂ hannounces

/-- Counts differ by the numbers of waits. -/
theorem add_waitCount_eq {first second : List Bool}
    (hlength : (b.activity first).length = (b.activity second).length) (count : UInt64) :
    count + .ofNat first.length + .ofNat (b.waitCount second) =
      count + .ofNat second.length + .ofNat (b.waitCount first) := by
  have hfirst := b.activity_length_add_waitCount first
  have hsecond := b.activity_length_add_waitCount second
  have htotal : first.length + b.waitCount second = second.length + b.waitCount first := by omega
  rw [UInt64.add_assoc, UInt64.add_assoc, ← UInt64.ofNat_add, ← UInt64.ofNat_add, htotal]

/-- **Waits are transparent.** Let no interrupt be on its way in a board, and compare its runs with
two different sequences of levels on the ready line. Leaving out the ticks that are waits, what a
trace records of one run begins with what it records of the other. After equally many ticks that are
not waits the numbers of ticks and of steps differ by the numbers of waits, and if neither board
waits just then, they agree on everything but these numbers, the sample of the ready line and the
times of the writes to output ports. -/
theorem waits_transparent {b : Board} (h : b.Idle) (first second : List Bool) :
    (b.activity first <+: b.activity second ∨ b.activity second <+: b.activity first) ∧
    ((b.activity first).length = (b.activity second).length →
      (b.driveReady first).ticks + .ofNat (b.waitCount second) =
        (b.driveReady second).ticks + .ofNat (b.waitCount first) ∧
      (b.driveReady first).cpu.cycles + .ofNat (b.waitCount second) =
        (b.driveReady second).cpu.cycles + .ofNat (b.waitCount first) ∧
      ((b.driveReady first).cpu.state ≠ .wait → (b.driveReady second).cpu.state ≠ .wait →
        (b.driveReady first).AgreeButForTimes (b.driveReady second))) := by
  obtain ⟨hactivity₁, -⟩ := (Follows.unhindered h).driveReady first
  obtain ⟨hactivity₂, -⟩ := (Follows.unhindered h).driveReady second
  have hprefix {m n : Nat} (hle : m ≤ n) :
      (List.iterate Board.tick b.unhindered m).map observation <+:
        (List.iterate Board.tick b.unhindered n).map observation := by
    obtain ⟨more, rfl⟩ := Nat.exists_eq_add_of_le hle
    rw [List.iterate_add, List.map_append]
    exact List.prefix_append _ _
  refine ⟨?_, fun hlength ↦ ⟨?_, ?_, fun hs₁ hs₂ ↦ ?_⟩⟩
  · rw [hactivity₁, hactivity₂]
    exact (Nat.le_total _ _).imp hprefix hprefix
  · rw [(b.ticks_driveReady first).1, (b.ticks_driveReady second).1]
    exact add_waitCount_eq hlength _
  · rw [(b.ticks_driveReady first).2.1, (b.ticks_driveReady second).2.1]
    exact add_waitCount_eq hlength _
  · exact agreeButForTimes_driveReady h hlength hs₁ hs₂

/-- A board that is about to write `2ah` to an output port. -/
def outputting : Board :=
  performAll {} [.load [0x06, 0x2a, 0x51, 0x44, 0x00, 0x00] 0, .requestRestart 0, .run 16]

/-- Memory is not ready at first, and again in the output cycle. -/
def slowMemory : List Bool := [false, true, true, true, false, false, true, true]

/-- Memory is always ready, for as many machine states. -/
def fastMemory : List Bool := [true, true, true, true, true]

theorem outputting_waits : outputting.Idle ∧ outputting.waitCount slowMemory = 3 ∧
    (outputting.driveReady slowMemory).ticks = (outputting.driveReady fastMemory).ticks + 3 ∧
    (outputting.driveReady slowMemory).AgreeButForTimes (outputting.driveReady fastMemory) := by
  obtain ⟨hidle, hslow, hfast, hlength, hs₁, hs₂⟩ : outputting.Idle ∧
      outputting.waitCount slowMemory = 3 ∧ outputting.waitCount fastMemory = 0 ∧
      (outputting.activity slowMemory).length = (outputting.activity fastMemory).length ∧
      (outputting.driveReady slowMemory).cpu.state ≠ .wait ∧
      (outputting.driveReady fastMemory).cpu.state ≠ .wait := by decide +kernel
  obtain ⟨hticks, -, hagree⟩ := (waits_transparent hidle slowMemory fastMemory).2 hlength
  rw [hslow, hfast] at hticks
  exact ⟨hidle, hslow, (UInt64.add_zero _).symm.trans hticks, hagree hs₁ hs₂⟩

end Board

end Mcs8
