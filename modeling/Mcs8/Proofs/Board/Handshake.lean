import Mcs8.Proofs.Board.Action
import Mcs8.Proofs.Board.Latch
import Mcs8.Proofs.Processor.Acknowledge

/-!
# The interrupt handshake

The interrupting device and the synchronizer of the processor see each other through one line only,
and late: the device lowers the line in `T1I`, and the processor notices a new edge only after a
clock with the line low. `Handshake` says how far they can be apart. Two of its parts are what the
protocol is for: a raised request is either still on its way through the flip-flops or latched
(`way_of_line`), and a processor in `T1I` is answering a request that is on the line
(`line_of_t1i`).

Together with the invariants of processor and latch this is what holds of every board that a fresh
one becomes (`consistent_performAll`).
-/

namespace Mcs8

namespace Interrupter

variable (d : Interrupter)

/-- Let a request wait. -/
def await (opcode : UInt8) : Interrupter := { d with waitingOpcode := opcode, waiting := true }

theorem request_eq (opcode : UInt8) : d.request opcode = (d.await opcode).raiseLine := rfl

/-- While a request is on the line no other one is raised. -/
theorem raiseLine_of_line (h : d.line = true) : d.raiseLine = d := by
  rw [raiseLine, h, Bool.not_true, Bool.and_false, if_neg Bool.false_ne_true]

@[simp] theorem answer_raiseLine : d.raiseLine.answer = d.answer := by
  unfold raiseLine
  split <;> rfl

@[simp] theorem answer_arm : d.arm.answer = d.answer := by
  unfold arm
  split <;> rfl

/-- A further request does not touch the one on the line. -/
theorem opcode_request_of_line (h : d.line = true) (opcode : UInt8) :
    (d.request opcode).opcode = d.opcode := by
  rw [request_eq, raiseLine_of_line (d.await opcode) h]
  rfl

theorem answer_request (opcode : UInt8) : (d.request opcode).answer = d.answer := by
  rw [request_eq, answer_raiseLine]
  rfl

end Interrupter

/-- How device, synchronizer and sequencer fit together between two ticks. -/
structure Handshake (d : Interrupter) (s : Synchronizer) (state : TState) (accepted : Bool) :
    Prop where
  armed_of_line : d.line = true → d.armed = true
  line_of_request : s.request = true → d.line = true ∧ s.first = true ∧ s.second = true
  line_of_t1i : state = .t1i →
    d.line = true ∧ s.first = true ∧ s.second = true ∧ s.request = false
  request_of_accepted : accepted = true → s.request = true
  /-- A raised request that is not being acknowledged is latched, or its edge is still to come. -/
  way_of_line : d.line = true → state ≠ .t1i → s.request = false →
    s.first = false ∨ s.second = false
  first_of_second : d.line = false → s.first = true → s.second = true
  first_of_armed : d.line = false → d.armed = true → s.first = false
  flipFlops_of_not_armed : d.armed = false → s.first = true ∧ s.second = true

namespace Handshake

variable {d : Interrupter} {s : Synchronizer} {state : TState} {accepted : Bool}

theorem fresh (accepted : Bool) (h : accepted = false) :
    Handshake {} {} .stopped accepted := by
  constructor <;> simp [h]

theorem raiseLine (h : Handshake d s state accepted) : Handshake d.raiseLine s state accepted := by
  unfold Interrupter.raiseLine
  split
  next hraise =>
    have harmed : d.armed = true := by simp_all
    have hline : d.line = false := by simp_all
    have hfirst := h.first_of_armed hline harmed
    constructor
    case armed_of_line => exact fun _ ↦ harmed
    case line_of_request => exact fun hr ↦ ⟨rfl, (h.line_of_request hr).2⟩
    case line_of_t1i => exact fun hs ↦ ⟨rfl, (h.line_of_t1i hs).2⟩
    case request_of_accepted => exact h.request_of_accepted
    case way_of_line => exact fun _ _ _ ↦ .inl hfirst
    case first_of_second => exact nofun
    case first_of_armed => exact nofun
    case flipFlops_of_not_armed => exact h.flipFlops_of_not_armed
  next => exact h

theorem request (h : Handshake d s state accepted) (opcode : UInt8) :
    Handshake (d.request opcode) s state accepted := by
  have hwaits : Handshake (d.await opcode) s state accepted :=
    ⟨h.1, h.2, h.3, h.4, h.5, h.6, h.7, h.8⟩
  rw [Interrupter.request_eq]
  exact hwaits.raiseLine

/-- A request that is on the line, or none, comes through a clock: the flip-flops move on, the
device withdraws its request if the processor was in `T1I`, and the processor clears its latch if
it goes to `T1I`. -/
theorem clock (h : Handshake d s state accepted) {state' : TState} {accepted' : Bool}
    (hlatched : state' = .t1i ∨ accepted' = true → (s.clock d.line).request = true)
    (haccepted : state' = .t1i → accepted' = false) :
    Handshake (if state = .t1i then d.arm.withdraw else d.arm)
      (if state' = .t1i then (s.clock d.line).acknowledge else s.clock d.line)
      state' accepted' := by
  by_cases hs : state = .t1i
  · -- the request is answered: nothing is latched, and the line goes low
    obtain ⟨hline, hfirst, hsecond, hrequest⟩ := h.line_of_t1i hs
    have hclock : s.clock d.line = ⟨true, true, true, false⟩ := by
      simp [Synchronizer.clock, hline, hfirst, hsecond, hrequest]
    have hnone : ¬(state' = .t1i ∨ accepted' = true) := fun hnext ↦ by
      simpa [hclock] using hlatched hnext
    obtain ⟨hs', ha'⟩ := not_or.mp hnone
    rw [if_pos hs, if_neg hs', hclock, Interrupter.arm, if_pos hline, Interrupter.withdraw,
      if_pos hline]
    constructor <;> simp [hs', ha']
  rw [if_neg hs]
  cases hline : d.line with
  | true =>
    -- the edge of the request moves on, or it has arrived and stays latched
    have harmed := h.armed_of_line hline
    have harrived : (s.clock true).request = true → s.first = true := fun hr ↦ by
      cases hrequest : s.request with
      | true => exact (h.line_of_request hrequest).2.1
      | false => simp_all [Synchronizer.clock]
    have hwaits : (s.clock true).request = false → s.first = false := fun hr ↦ by
      have hway := h.way_of_line hline hs
      cases hfirst : s.first <;> simp_all [Synchronizer.clock]
    rw [hline] at hlatched
    rw [Interrupter.arm, if_pos hline]
    constructor
    case armed_of_line => exact fun _ ↦ harmed
    case line_of_request =>
      intro hr
      split at hr
      · contradiction
      next hs' => rw [if_neg hs']; exact ⟨hline, rfl, harrived hr⟩
    case line_of_t1i =>
      intro hs'
      rw [if_pos hs']
      exact ⟨hline, rfl, harrived (hlatched (.inl hs')), rfl⟩
    case request_of_accepted =>
      intro ha'
      rw [if_neg fun hs' ↦ by simp [haccepted hs'] at ha']
      exact hlatched (.inr ha')
    case way_of_line =>
      intro _ hs' hr
      rw [if_neg hs'] at hr ⊢
      exact .inr (hwaits hr)
    all_goals simp [hline, harmed]
  | false =>
    -- nothing is under way, and the flip-flops empty
    have hrequest : s.request = false := by
      have := h.line_of_request
      simp_all
    have hclock : s.clock false = ⟨false, s.first, s.second, false⟩ := by
      have := h.first_of_second hline
      simp_all [Synchronizer.clock]
    have hnone : ¬(state' = .t1i ∨ accepted' = true) := fun hnext ↦ by
      rw [hline, hclock] at hlatched
      simpa using hlatched hnext
    obtain ⟨hs', ha'⟩ := not_or.mp hnone
    rw [if_neg hs', hclock, Interrupter.arm, hline, if_neg Bool.false_ne_true]
    constructor <;> simp [hs', ha']

end Handshake

namespace Processor

variable {p : Processor} {x : Pins}

theorem synchronizer_stepWith : (p.stepWith x).synchronizer =
    if (p.stepWith x).state = .t1i then (p.synchronizer.clock x.interrupt).acknowledge
    else p.synchronizer.clock x.interrupt := by
  rw [stepWith_eq, state_enter, ← synchronizer_worked]
  cases p.state.next ((p.worked x).boundarySignals x.ready) <;> rfl

theorem accepted_of_t1i (h : (p.stepWith x).state = .t1i) : (p.stepWith x).accepted = false := by
  rw [stepWith_eq, state_enter] at h
  rw [stepWith_eq, accepted_enter, h]
  rfl

/-- An interrupt that is accepted before the step enters its state is latched. -/
theorem WellFormed.request_of_accepted_worked (h : p.WellFormed)
    (hrequest : p.accepted = true → p.synchronizer.request = true)
    (ha : (p.worked x).accepted = true) :
    (p.synchronizer.clock x.interrupt).request = true := by
  have hkept (hp : p.accepted = true) : (p.synchronizer.clock x.interrupt).request = true := by
    simp [Synchronizer.clock, hrequest hp]
  cases hs : p.state with
  | t3 => exact ((h.accepted_worked_of_t3 hs).mp ha).2.2.2
  | t4 =>
    rw [worked_of_t4 hs, prepareResult_frame] at ha
    exact hkept ha
  | t5 =>
    rw [worked_of_t5 hs, storeResult_frame] at ha
    exact hkept ha
  | stopped | t1 | t1i | t2 | wait =>
    rw [worked_of_idle (by simp [hs]) (by simp [hs]) (by simp [hs])] at ha
    exact hkept ha

/-- The processor accepts and acknowledges only what its synchronizer has latched. -/
theorem WellFormed.request_of_stepWith (h : p.WellFormed)
    (hrequest : p.accepted = true → p.synchronizer.request = true)
    (hnext : (p.stepWith x).state = .t1i ∨ (p.stepWith x).accepted = true) :
    (p.synchronizer.clock x.interrupt).request = true := by
  have hworked (ha : (p.worked x).accepted = true) := h.request_of_accepted_worked hrequest ha
  rcases hnext with hs | ha
  · rw [stepWith_eq, state_enter, TState.next_eq_t1i_iff] at hs
    rcases hs with ⟨-, hpending⟩ | ⟨-, ha⟩
    · rw [← synchronizer_worked]
      exact hpending
    · exact hworked ha
  · rw [stepWith_eq, accepted_enter, Bool.and_eq_true] at ha
    exact hworked ha.2

end Processor

namespace Board

/-- What holds of every board that a fresh one becomes: the processor is well-formed, the latch
holds what was sent, and the interrupt handshake is kept. -/
structure Consistent (b : Board) : Prop where
  wellFormed : b.cpu.WellFormed
  latched : b.Latched
  handshake : Handshake b.interrupter b.cpu.synchronizer b.cpu.state b.cpu.accepted

/-- A tick of a well-formed processor keeps the handshake. -/
theorem handshake_tick {b : Board} (hwf : b.cpu.WellFormed)
    (h : Handshake b.interrupter b.cpu.synchronizer b.cpu.state b.cpu.accepted) :
    Handshake b.tick.interrupter b.tick.cpu.synchronizer b.tick.cpu.state b.tick.cpu.accepted := by
  rw [cpu_tick, interrupter_tick, Processor.synchronizer_stepWith]
  exact h.raiseLine.clock (hwf.request_of_stepWith h.request_of_accepted) Processor.accepted_of_t1i

namespace Consistent

variable {b : Board}

theorem tick (h : b.Consistent) : b.tick.Consistent where
  wellFormed := by
    rw [cpu_tick]
    exact h.wellFormed.stepWith _
  latched := h.latched.tick h.wellFormed
  handshake := handshake_tick h.wellFormed h.handshake

/-- In `T1I` the request on the line becomes the one that is being answered. -/
theorem answer_tick (h : b.Consistent) : b.tick.interrupter.answer =
    if b.cpu.state = .t1i then b.interrupter.opcode else b.interrupter.answer := by
  rw [interrupter_tick]
  split
  next hs =>
    have hline := (h.handshake.line_of_t1i hs).1
    rw [Interrupter.raiseLine_of_line _ hline, Interrupter.arm, if_pos hline, Interrupter.withdraw,
      if_pos hline]
  next => rw [Interrupter.answer_arm, Interrupter.answer_raiseLine]

end Consistent

theorem consistent_reset (b : Board) : b.reset.Consistent where
  wellFormed := b.cpu.wellFormed_reset
  latched := ⟨nofun, nofun, nofun, nofun⟩
  handshake := .fresh false rfl

theorem invariant_consistent : Invariant Consistent where
  congr h hcpu hlatch hinterrupter := by
    obtain ⟨hwf, ⟨h1, h2, h3, h4⟩, hhandshake⟩ := h
    constructor
    · rwa [hcpu]
    · constructor <;> rwa [hcpu, hlatch]
    · rwa [hcpu, hinterrupter]
  tick := Consistent.tick
  requestInterrupt opcode h := ⟨h.wellFormed,
    ⟨h.latched.1, h.latched.2, h.latched.3, h.latched.4⟩, h.handshake.request opcode⟩
  reset _ := consistent_reset _

theorem consistent_fresh : ({} : Board).Consistent := consistent_reset {}

theorem consistent_performAll {actions : List Action} (h : ∀ a ∈ actions, a.setsIr = false) :
    (({} : Board).performAll actions).Consistent :=
  invariant_consistent.performAll consistent_fresh h

end Board

end Mcs8
