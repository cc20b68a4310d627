import Mcs8.Proofs.Board.Handshake
import Mcs8.Proofs.Board.Restore

/-!
# Reachable boards

A host can save a board and let a board take over what it saved, so a board has more than one past:
its own, and that of the boards that it was restored from. `Reachable` are the boards that come out
of any such pasts, short of a change to the instruction register from outside. Since a snapshot
leaves out nothing that consistency is about, all of them are consistent (`Reachable.consistent`).

A host can also reach into the processor and change its registers, its flags and its program
counter. In the middle of a machine cycle the latch then no longer holds what the processor would
send, but all is well again when the next one starts (`Attainable.consistent_of_t1`).
-/

namespace Mcs8

namespace Board

/-- The boards that a fresh one becomes by actions of the host, and by taking over the snapshots of
other such boards. -/
inductive Reachable : Board → Prop
  | fresh : Reachable {}
  | perform {b : Board} {a : Action} (h : Reachable b) (ha : a.setsIr = false) :
    Reachable (b.perform a)
  | restore {b saved restored : Board} (h : Reachable b) (hsaved : Reachable saved)
    (hrestore : b.restore saved.snapshot = .ok restored) : Reachable restored

namespace Reachable

variable {b : Board}

theorem performAll (h : b.Reachable) {actions : List Action}
    (ha : ∀ a ∈ actions, a.setsIr = false) : (b.performAll actions).Reachable :=
  performAll_induction (P := Reachable) perform h ha

end Reachable

/-- A board that takes over a consistent one is consistent. -/
theorem Consistent.takeOver {saved : Board} (h : saved.Consistent) (b : Board) :
    (b.takeOver saved).Consistent := by
  have hcpu : (b.takeOver saved).cpu = { saved.cpu with announces := b.cpu.announces } :=
    Processor.load_eq h.wellFormed.toRestorable
  constructor
  · rw [hcpu]
    exact { h.wellFormed with }
  · constructor <;> rw [hcpu]
    exacts [h.latched.low_eq, h.latched.acknowledge_eq, h.latched.kind_eq, h.latched.high_eq]
  · rw [hcpu]
    exact h.handshake

theorem Reachable.consistent {b : Board} (h : b.Reachable) : b.Consistent := by
  induction h with
  | fresh => exact consistent_fresh
  | perform _ ha ih => exact invariant_consistent.perform ih ha
  | restore _ _ hrestore _ ih =>
    rw [restore_snapshot] at hrestore
    obtain rfl := Except.ok.inj hrestore
    exact ih.takeOver _

/-! ### Changes to the processor -/

/-- The boards that come out of such pasts if the host may also change registers, flags, program
counter and step count of the processor at any moment. -/
inductive Attainable : Board → Prop
  | fresh : Attainable {}
  | perform {b : Board} {a : Action} (h : Attainable b) (ha : a.setsIr = false) :
    Attainable (b.perform a)
  | restore {b saved restored : Board} (h : Attainable b) (hsaved : Attainable saved)
    (hrestore : b.restore saved.snapshot = .ok restored) : Attainable restored
  | setRegister {b : Board} (h : Attainable b) (r : Register) (value : UInt8) :
    Attainable { b with
      cpu := { b.cpu with toProcessorState := b.cpu.toProcessorState.setRegister r value } }
  | setFlags {b : Board} (h : Attainable b) (flags : Flags) :
    Attainable { b with cpu := { b.cpu with flags } }
  | setPc {b : Board} (h : Attainable b) (pc : UInt16) :
    Attainable { b with
      cpu := { b.cpu with toProcessorState := b.cpu.toProcessorState.setPc pc } }
  | setCycles {b : Board} (h : Attainable b) (cycles : UInt64) :
    Attainable { b with cpu := { b.cpu with cycles } }

theorem Reachable.attainable {b : Board} (h : b.Reachable) : b.Attainable := by
  induction h with
  | fresh => exact .fresh
  | perform _ ha ih => exact ih.perform ha
  | restore _ _ hrestore ih ihsaved => exact ih.restore ihsaved hrestore

/-- What is left of consistency when the latch is not looked at. -/
structure Sequenced (b : Board) : Prop where
  wellFormed : b.cpu.WellFormed
  handshake : Handshake b.interrupter b.cpu.synchronizer b.cpu.state b.cpu.accepted

theorem invariant_sequenced : Invariant Sequenced where
  congr h hcpu _ hinterrupter := by
    obtain ⟨hwf, hhandshake⟩ := h
    constructor
    · rwa [hcpu]
    · rwa [hcpu, hinterrupter]
  tick h := {
    wellFormed := by
      rw [cpu_tick]
      exact h.wellFormed.stepWith _
    handshake := handshake_tick h.wellFormed h.handshake }
  requestInterrupt opcode h := ⟨h.wellFormed, h.handshake.request opcode⟩
  reset _ := ⟨(consistent_reset _).wellFormed, (consistent_reset _).handshake⟩

namespace Attainable

variable {b : Board}

theorem sequenced (h : b.Attainable) : b.Sequenced := by
  induction h with
  | fresh => exact ⟨consistent_fresh.wellFormed, consistent_fresh.handshake⟩
  | perform _ ha ih => exact invariant_sequenced.perform ih ha
  | @restore b saved restored _ _ hrestore _ ih =>
    rw [restore_snapshot] at hrestore
    obtain rfl := Except.ok.inj hrestore
    have hcpu : (b.takeOver saved).cpu = { saved.cpu with announces := b.cpu.announces } :=
      Processor.load_eq ih.wellFormed.toRestorable
    constructor
    · rw [hcpu]
      exact { ih.wellFormed with }
    · rw [hcpu]
      exact ih.handshake
  | setRegister _ r value ih => exact ⟨{ ih.wellFormed with }, ih.handshake⟩
  | setFlags _ flags ih => exact ⟨{ ih.wellFormed with }, ih.handshake⟩
  | setPc _ pc ih =>
    exact ⟨{ ih.wellFormed with pc_lt := Processor.address_mod_lt pc }, ih.handshake⟩
  | setCycles _ cycles ih => exact ⟨{ ih.wellFormed with }, ih.handshake⟩

/-- Where a machine cycle starts with `T1`, the latch has nothing to hold yet. -/
theorem consistent_of_t1 (h : b.Attainable) (hs : b.cpu.state = .t1) : b.Consistent where
  wellFormed := h.sequenced.wellFormed
  latched := by constructor <;> rw [hs] <;> exact nofun
  handshake := h.sequenced.handshake

end Attainable

end Board

end Mcs8
