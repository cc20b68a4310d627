import Mathlib.Data.List.Iterate
import Mcs8.Proofs.Board.Handshake

/-!
# Delivery of interrupt requests

A request passes through three places, each with room for one: it waits in the device, it is on the
line, and its opcode is the answer to an acknowledge that is under way. A tick moves requests from
one place to the next and loses none, which is one equation for each place: what was there and what
came in is what went out and what is there now (`queued_tick`, `onLine_tick`, `answering_tick`).
Added up over a run the equations say that requests are delivered once, in order and with their own
opcode; only a request that still waits can be lost, to a newer one.
-/

namespace Mcs8

namespace Interrupter

variable (d : Interrupter)

/-- The request that waits. -/
def queued : List UInt8 := if d.waiting then [d.waitingOpcode] else []

/-- The request on the line. -/
def onLine : List UInt8 := if d.line then [d.opcode] else []

/-- The request that goes on the line when the device may raise one. -/
def raised : List UInt8 := if !d.line && d.raiseLine.line then [d.raiseLine.opcode] else []

theorem queued_raiseLine : d.queued = d.raised ++ d.raiseLine.queued := by
  unfold queued raised raiseLine
  cases hw : d.waiting <;> cases ha : d.armed <;> cases hl : d.line <;> simp [hw, hl]

theorem onLine_raiseLine : d.onLine ++ d.raised = d.raiseLine.onLine := by
  unfold onLine raised raiseLine
  cases hw : d.waiting <;> cases ha : d.armed <;> cases hl : d.line <;> simp [hl]

@[simp] theorem queued_arm : d.arm.queued = d.queued := by
  unfold arm
  split <;> rfl

@[simp] theorem onLine_arm : d.arm.onLine = d.onLine := by
  unfold arm
  split <;> rfl

@[simp] theorem queued_withdraw : d.withdraw.queued = d.queued := by
  unfold withdraw
  split <;> rfl

end Interrupter

namespace Board

variable (b : Board)

/-- The request that a tick in `T1I` acknowledges: the one on the line. -/
def acknowledged : List UInt8 := if b.cpu.state = .t1i then [b.interrupter.opcode] else []

/-- The byte that the interrupting device puts on the bus in a tick. -/
def answered : List UInt8 := if b.settle.owner = .interrupt then [b.settle.bus] else []

/-- The answer to an acknowledge whose `T3` is still to come. -/
def answering : List UInt8 :=
  if b.cpu.isAcknowledge && b.cpu.state.afterT1 then [b.interrupter.answer] else []

variable {b}

/-! ### What a tick does -/

theorem queued_tick : b.interrupter.queued = b.interrupter.raised ++ b.tick.interrupter.queued := by
  rw [interrupter_tick, b.interrupter.queued_raiseLine]
  split <;> simp

theorem onLine_tick (h : b.Consistent) : b.interrupter.onLine ++ b.interrupter.raised =
    b.acknowledged ++ b.tick.interrupter.onLine := by
  rw [Interrupter.onLine_raiseLine, interrupter_tick, acknowledged]
  split
  next hs =>
    have hline := (h.handshake.line_of_t1i hs).1
    rw [Interrupter.raiseLine_of_line _ hline, Interrupter.arm, if_pos hline]
    simp [Interrupter.onLine, Interrupter.withdraw, hline]
  next => simp

/-- The interrupting device drives the bus in the `T3` of an acknowledge and at no other time. -/
theorem answered_eq (h : b.Consistent) : b.answered =
    if b.cpu.state = .t3 ∧ b.cpu.isAcknowledge = true then [b.interrupter.answer] else [] := by
  unfold answered
  rw [settle_owner, settle_bus]
  by_cases hs : b.cpu.state = .t3
  · rw [h.latched.resolve_of_t3 h.wellFormed hs]
    cases hack : b.cpu.isAcknowledge with
    | true =>
      have hnumber := h.wellFormed.number_of_isAcknowledge hack
      rw [(h.wellFormed.fetchesOpcode_iff.mpr hnumber).1]
      simp [hs]
    | false =>
      cases b.cpu.cycleKind with
      | pcc => by_cases hin : Opcode.port b.cpu.ir < 8 <;> simp [hin]
      | _ => simp
  · rw [offers_of_ne_t3 hs]
    cases he : b.cpu.offer.enabled <;> simp [BusOffers.resolve, he, hs]

theorem answering_tick (h : b.Consistent) :
    b.answering ++ b.acknowledged = b.answered ++ b.tick.answering := by
  rw [answered_eq h]
  have hafter : b.cpu.state.precedesT3 = false → b.tick.answering = [] := fun hs ↦ by
    have hnext : b.tick.cpu.state.afterT1 = false := by
      rw [cpu_tick, Processor.stepWith_eq, Processor.state_enter, Bool.eq_false_iff]
      intro hnext
      rw [TState.precedesT3_of_afterT1_next hnext] at hs
      contradiction
    rw [answering, hnext, Bool.and_false, if_neg Bool.false_ne_true]
  have hbefore : b.cpu.state.precedesT3 = true → b.tick.cpu.isAcknowledge = b.cpu.isAcknowledge ∧
      b.tick.cpu.state = b.cpu.state.next { ready := b.readyLevel } := fun hs ↦ by
    rw [cpu_tick, Processor.stepWith_of_precedesT3 hs]
    exact ⟨rfl, rfl⟩
  cases hs : b.cpu.state with
  | t1i =>
    rw [hs] at hbefore
    obtain ⟨hack, hstate⟩ := hbefore rfl
    have hanswer : b.tick.interrupter.answer = b.interrupter.opcode := by
      rw [h.answer_tick, if_pos hs]
    have hmine := h.wellFormed.isAcknowledge_of_t1i hs
    rw [answering, answering, acknowledged, hack, hstate, hanswer, hmine, hs]
    simp [TState.afterT1, TState.next]
  | t1 =>
    rw [hs] at hbefore
    have hmine := h.wellFormed.isAcknowledge_of_t1 hs
    rw [answering, answering, acknowledged, (hbefore rfl).1, hmine, hs]
    simp
  | t2 | wait =>
    rw [hs] at hbefore
    obtain ⟨hack, hstate⟩ := hbefore rfl
    have hafterT1 : b.tick.cpu.state.afterT1 = true := by
      rw [hstate]
      cases b.readyLevel <;> rfl
    have hanswer : b.tick.interrupter.answer = b.interrupter.answer := by
      rw [h.answer_tick, if_neg (by simp [hs])]
    rw [answering, answering, hafterT1, hack, hanswer, hs]
    simp [acknowledged, hs, TState.afterT1]
  | t3 =>
    rw [hs] at hafter
    rw [hafter rfl]
    simp [answering, acknowledged, hs, TState.afterT1]
  | t4 | t5 | stopped =>
    rw [hs] at hafter
    rw [hafter rfl]
    simp [answering, acknowledged, hs, TState.afterT1]

/-! ### What actions do -/

variable (b)

/-- The boards at which the ticks of an action begin. -/
def ticked : Action → List Board
  | .tick => [b]
  | .run budget => List.iterate tick b (b.ticksOf budget)
  | _ => []

/-- What the actions give one after the other, each on the board that the ones before it leave. -/
def collect {α : Type} (f : Board → Action → List α) (b : Board) : List Action → List α
  | [] => []
  | a :: rest => f b a ++ collect f (b.perform a) rest

/-- The boards at which the ticks of a sequence of actions begin. -/
def timeline (actions : List Action) : List Board := collect ticked b actions

/-- The requests that an action lets the device put on its line, in its ticks or by a request. -/
def raisedBy (a : Action) : List UInt8 :=
  (b.ticked a).flatMap (·.interrupter.raised) ++
    (a.request?.map fun opcode ↦ (b.interrupter.await opcode).raised).getD []

/-- The requests that go on the line during a sequence of actions. -/
def raisedIn (actions : List Action) : List UInt8 := collect raisedBy b actions

variable {b} {a : Action} {actions : List Action}

/-! ### Conservation -/

/-- Requests at a place: each tick brings some in and takes some out, and none are lost. -/
structure Conserved (stock inflow outflow : Board → List UInt8) : Prop where
  congr {b c : Board} : c.cpu = b.cpu → c.interrupter = b.interrupter → stock c = stock b
  tick {b : Board} : b.Consistent → stock b ++ inflow b = outflow b ++ stock b.tick

namespace Conserved

variable {stock inflow outflow : Board → List UInt8}

theorem iterate_tick (h : Conserved stock inflow outflow) (hb : b.Consistent) (n : Nat) :
    stock b ++ (List.iterate Board.tick b n).flatMap inflow =
      (List.iterate Board.tick b n).flatMap outflow ++ stock (Board.tick^[n] b) := by
  induction n generalizing b with
  | zero => exact List.append_nil _
  | succ n ih =>
    rw [List.iterate, List.flatMap_cons, List.flatMap_cons, Function.iterate_succ_apply,
      ← List.append_assoc, h.tick hb, List.append_assoc, ih hb.tick, List.append_assoc]

/-- An action that requests nothing conserves the requests at a place. -/
theorem perform (h : Conserved stock inflow outflow) (hb : b.Consistent)
    (ha : a.setsIr = false ∧ a.resets = false) (hrequest : a.request? = none) :
    stock b ++ (b.ticked a).flatMap inflow =
      (b.ticked a).flatMap outflow ++ stock (b.perform a) := by
  have hedit {c : Board} (hcpu : c.cpu = b.cpu) (hinterrupter : c.interrupter = b.interrupter) :
      stock b ++ [] = [] ++ stock c := by
    rw [h.congr hcpu hinterrupter, List.append_nil, List.nil_append]
  cases a with
  | tick =>
    show stock b ++ [b].flatMap inflow = [b].flatMap outflow ++ stock b.tick
    rw [List.flatMap_singleton, List.flatMap_singleton, h.tick hb]
  | run budget =>
    have hstock : stock (b.run budget).board = stock (Board.tick^[b.ticksOf budget] b) := by
      rw [run_frame]
      exact h.congr rfl rfl
    show _ = _ ++ stock (b.run budget).board
    rw [hstock]
    exact h.iterate_tick hb _
  | reset => exact absurd ha.2 (by decide)
  | load bytes origin =>
    rw [perform_load_frame]
    exact hedit rfl rfl
  | poke address value =>
    rw [perform_poke_frame]
    exact hedit rfl rfl
  | setInput port value => exact hedit rfl rfl
  | setReady level => exact hedit rfl rfl
  | requestInterrupt opcode => contradiction
  | requestRestart vector => contradiction
  | setIr ir => exact absurd ha.1 Bool.noConfusion

end Conserved

theorem conserved_queued :
    Conserved (·.interrupter.queued) (fun _ ↦ []) (·.interrupter.raised) where
  congr _ h := by rw [h]
  tick _ := by rw [List.append_nil, queued_tick]

theorem conserved_onLine :
    Conserved (·.interrupter.onLine) (·.interrupter.raised) acknowledged where
  congr _ h := by rw [h]
  tick := onLine_tick

theorem conserved_answering : Conserved answering acknowledged answered where
  congr hcpu hinterrupter := by rw [answering, answering, hcpu, hinterrupter]
  tick := answering_tick

theorem perform_of_request {opcode : UInt8} (h : a.request? = some opcode) :
    b.perform a = b.requestInterrupt opcode ∧ b.ticked a = [] := by
  cases a with
  | requestInterrupt opcode' =>
    obtain rfl := Option.some.inj h
    exact ⟨rfl, rfl⟩
  | requestRestart vector =>
    obtain rfl := Option.some.inj h
    exact ⟨rfl, rfl⟩
  | _ => contradiction

theorem onLine_perform (hb : b.Consistent) (ha : a.setsIr = false ∧ a.resets = false) :
    b.interrupter.onLine ++ b.raisedBy a =
      (b.ticked a).flatMap acknowledged ++ (b.perform a).interrupter.onLine := by
  cases hr : a.request? with
  | none =>
    rw [raisedBy, hr, Option.map_none, Option.getD_none, List.append_nil]
    exact conserved_onLine.perform hb ha hr
  | some opcode =>
    obtain ⟨hperform, hticked⟩ := perform_of_request hr
    rw [raisedBy, hr, hperform, hticked]
    exact (b.interrupter.await opcode).onLine_raiseLine

theorem answering_perform (hb : b.Consistent) (ha : a.setsIr = false ∧ a.resets = false) :
    b.answering ++ (b.ticked a).flatMap acknowledged =
      (b.ticked a).flatMap answered ++ (b.perform a).answering := by
  cases hr : a.request? with
  | none => exact conserved_answering.perform hb ha hr
  | some opcode =>
    obtain ⟨hperform, hticked⟩ := perform_of_request hr
    have hanswer : (b.requestInterrupt opcode).interrupter.answer = b.interrupter.answer :=
      b.interrupter.answer_request opcode
    rw [hperform, hticked]
    exact (List.append_nil _).trans (by rw [answering, answering, hanswer]; rfl)

/-- A request takes the place of the one that waits. -/
theorem queued_perform_of_request {opcode : UInt8} (hr : a.request? = some opcode) :
    [opcode] = b.raisedBy a ++ (b.perform a).interrupter.queued := by
  obtain ⟨hperform, hticked⟩ := perform_of_request hr
  rw [raisedBy, hr, hperform, hticked]
  exact (b.interrupter.await opcode).queued_raiseLine

theorem queued_perform (hb : b.Consistent) (ha : a.setsIr = false ∧ a.resets = false)
    (hr : a.request? = none) :
    b.interrupter.queued = b.raisedBy a ++ (b.perform a).interrupter.queued := by
  have hconserved := conserved_queued.perform hb ha hr
  have hnothing : (b.ticked a).flatMap (fun _ ↦ ([] : List UInt8)) = [] := by simp
  rw [hnothing, List.append_nil] at hconserved
  rw [raisedBy, hr, Option.map_none, Option.getD_none, List.append_nil]
  exact hconserved

/-! ### Runs -/

theorem flatMap_timeline (b : Board) (actions : List Action) (f : Board → List UInt8) :
    (b.timeline actions).flatMap f = collect (fun b a ↦ (b.ticked a).flatMap f) b actions := by
  induction actions generalizing b with
  | nil => rfl
  | cons a actions ih => rw [timeline, collect, List.flatMap_append, collect, ← ih, timeline]

/-- What single actions conserve, sequences of actions conserve. -/
theorem collect_conserved {stock : Board → List UInt8}
    {inflow outflow : Board → Action → List UInt8} {allowed : Action → Prop}
    (hstep : ∀ {b : Board} {a : Action}, b.Consistent → allowed a →
      stock b ++ inflow b a = outflow b a ++ stock (b.perform a))
    (hir : ∀ a, allowed a → a.setsIr = false) (hb : b.Consistent) (h : ∀ a ∈ actions, allowed a) :
    stock b ++ collect inflow b actions =
      collect outflow b actions ++ stock (b.performAll actions) := by
  induction actions generalizing b with
  | nil => exact List.append_nil _
  | cons a actions ih =>
    obtain ⟨ha, hrest⟩ := List.forall_mem_cons.mp h
    have hb' := invariant_consistent.perform hb (hir a ha)
    rw [collect, collect, ← List.append_assoc, hstep hb ha, List.append_assoc, ih hb' hrest,
      List.append_assoc, performAll_cons]

/-- Every request that was on the line is acknowledged or still there. -/
theorem raisedIn_eq (hb : b.Consistent)
    (h : ∀ a ∈ actions, a.setsIr = false ∧ a.resets = false) :
    b.interrupter.onLine ++ b.raisedIn actions =
      (b.timeline actions).flatMap acknowledged ++ (b.performAll actions).interrupter.onLine := by
  rw [flatMap_timeline]
  exact collect_conserved onLine_perform (fun _ ha ↦ ha.1) hb h

/-- Every acknowledged request is answered, or its answer is under way. -/
theorem acknowledged_eq (hb : b.Consistent)
    (h : ∀ a ∈ actions, a.setsIr = false ∧ a.resets = false) :
    b.answering ++ (b.timeline actions).flatMap acknowledged =
      (b.timeline actions).flatMap answered ++ (b.performAll actions).answering := by
  rw [flatMap_timeline, flatMap_timeline]
  exact collect_conserved answering_perform (fun _ ha ↦ ha.1) hb h

/-- While nothing is requested, the request that waits is raised or still waits. -/
theorem queued_eq (hb : b.Consistent)
    (h : ∀ a ∈ actions, (a.setsIr = false ∧ a.resets = false) ∧ a.request? = none) :
    b.interrupter.queued = b.raisedIn actions ++ (b.performAll actions).interrupter.queued := by
  induction actions generalizing b with
  | nil => rfl
  | cons a actions ih =>
    obtain ⟨ha, hrest⟩ := List.forall_mem_cons.mp h
    have hb' := invariant_consistent.perform hb ha.1.1
    rw [raisedIn, collect, List.append_assoc, performAll_cons, ← raisedIn, ← ih hb' hrest]
    exact queued_perform hb ha.1 ha.2

/-! ### One answer for each acknowledge -/

/-- Ticks begin at the boards of a list one after the other, on the way from a board to another.
What is done between them keeps the answer that is under way. -/
def Leads (b : Board) : List Board → Board → Prop
  | [], last => last.answering = b.answering
  | c :: rest, last => c.Consistent ∧ c.answering = b.answering ∧ Leads c.tick rest last

theorem Leads.trans {c d : Board} {ticks more : List Board} (h : b.Leads ticks c)
    (h' : c.Leads more d) : b.Leads (ticks ++ more) d := by
  induction ticks generalizing b with
  | nil =>
    cases more with
    | nil => exact Eq.trans h' h
    | cons m more => exact ⟨h'.1, Eq.trans h'.2.1 h, h'.2.2⟩
  | cons t ticks ih => exact ⟨h.1, h.2.1, ih h.2.2⟩

theorem leads_iterate (hb : b.Consistent) (n : Nat) :
    b.Leads (List.iterate tick b n) (tick^[n] b) := by
  induction n generalizing b with
  | zero => rfl
  | succ n ih => exact ⟨hb, rfl, ih hb.tick⟩

theorem leads_perform (hb : b.Consistent) (ha : a.setsIr = false ∧ a.resets = false) :
    b.Leads (b.ticked a) (b.perform a) := by
  have hnone (hticked : b.ticked a = []) : b.Leads (b.ticked a) (b.perform a) := by
    have hanswering := answering_perform hb ha
    rw [hticked, List.flatMap_nil, List.flatMap_nil, List.append_nil, List.nil_append] at hanswering
    rw [hticked]
    exact hanswering.symm
  cases a with
  | tick => exact ⟨hb, rfl, rfl⟩
  | run budget =>
    have hlast : (b.run budget).board.answering = (tick^[b.ticksOf budget] b).answering := by
      rw [run_frame]
      rfl
    have hend : (tick^[b.ticksOf budget] b).Leads [] (b.run budget).board := hlast
    have hleads := (leads_iterate hb _).trans hend
    rwa [List.append_nil] at hleads
  | _ => exact hnone rfl

theorem leads_performAll (hb : b.Consistent)
    (h : ∀ a ∈ actions, a.setsIr = false ∧ a.resets = false) :
    b.Leads (b.timeline actions) (b.performAll actions) := by
  induction actions generalizing b with
  | nil => exact rfl
  | cons a actions ih =>
    obtain ⟨ha, hrest⟩ := List.forall_mem_cons.mp h
    exact (leads_perform hb ha).trans (ih (invariant_consistent.perform hb ha.1) hrest)

namespace Leads

variable {c last : Board} {before between after : List Board}

theorem of_append (h : b.Leads (before ++ c :: after) last) :
    c.Consistent ∧ c.tick.Leads after last := by
  induction before generalizing b with
  | nil => exact ⟨h.1, h.2.2⟩
  | cons m before ih => exact ih h.2.2

theorem consistent_of_mem {ticks : List Board} (h : b.Leads ticks last) (hc : c ∈ ticks) :
    c.Consistent := by
  obtain ⟨before, after, rfl⟩ := List.append_of_mem hc
  exact h.of_append.1

/-- The answer that is under way is what the device puts on the bus in the next `T3`. -/
theorem answered_of_answering {opcode : UInt8} (h : b.Leads (between ++ c :: after) last)
    (hopcode : b.answering = [opcode]) (hbetween : ∀ m ∈ between, m.cpu.state ≠ .t3)
    (hc : c.cpu.state = .t3) : c.answered = [opcode] := by
  induction between generalizing b with
  | nil =>
    obtain ⟨hconsistent, hkept, -⟩ := h
    rw [hopcode, answering] at hkept
    rw [answered_eq hconsistent]
    split at hkept
    next hack =>
      rw [Bool.and_eq_true] at hack
      rw [if_pos ⟨hc, hack.1⟩, hkept]
    next => contradiction
  | cons m between ih =>
    obtain ⟨hm, hrest⟩ := List.forall_mem_cons.mp hbetween
    obtain ⟨hconsistent, hkept, hleads⟩ := h
    refine ih hleads ?_ hrest
    -- an answer under way rules out `T1I`, so this tick acknowledges nothing else
    have hne : m.cpu.state ≠ .t1i := by
      intro hs
      rw [hopcode, answering, hs] at hkept
      simp [TState.afterT1] at hkept
    have hmoves := answering_tick hconsistent
    rw [answered_eq hconsistent, acknowledged, if_neg hne, if_neg fun hand ↦ hm hand.1,
      List.append_nil, List.nil_append] at hmoves
    rw [← hmoves, hkept, hopcode]

/-- The next `T3` after an acknowledge carries the request that was on the line. -/
theorem answered_of_t1i {d : Board} (h : b.Leads (before ++ c :: (between ++ d :: after)) last)
    (hc : c.cpu.state = .t1i) (hbetween : ∀ m ∈ between, m.cpu.state ≠ .t3)
    (hd : d.cpu.state = .t3) : d.answered = [c.interrupter.opcode] := by
  obtain ⟨hconsistent, hrest⟩ := h.of_append
  refine hrest.answered_of_answering ?_ hbetween hd
  have hmoves := answering_tick hconsistent
  rw [answered_eq hconsistent, answering, acknowledged, hc] at hmoves
  simpa [TState.afterT1] using hmoves.symm

end Leads

/-! ### Delivery -/

theorem length_flatMap_acknowledged (ticks : List Board) :
    (ticks.flatMap acknowledged).length = ticks.countP (·.cpu.state = .t1i) := by
  induction ticks with
  | nil => rfl
  | cons c ticks ih =>
    rw [List.flatMap_cons, List.length_append, ih, List.countP_cons, acknowledged, Nat.add_comm]
    by_cases hs : c.cpu.state = .t1i <;> simp [hs]

theorem eq_of_answered {opcode : UInt8} (h : b.answered = [opcode]) :
    b.settle.owner = .interrupt ∧ b.settle.bus = opcode := by
  unfold answered at h
  split at h
  next howner => exact ⟨howner, List.singleton_inj.mp h⟩
  next => contradiction

/-- **Requests are delivered once, in order and with their own opcode.** For everything a host does
with a fresh board short of a reset, whenever it requests interrupts:

* the bytes that the interrupting device puts on the bus are the opcodes that went on its line, in
  that order, up to those still to come;
* each request that went on the line is acknowledged by one tick in `T1I`, except for the one that
  is still on the line, and a processor in `T1I` finds one there;
* the first `T3` after a `T1I` carries the opcode that was on the line in it;
* up to the next request, a request goes on the line once or still waits. So what is dropped is
  dropped for a newer request, made while the older one waits. -/
theorem requests_delivered (actions : List Action)
    (h : ∀ a ∈ actions, a.setsIr = false ∧ a.resets = false) :
    (({} : Board).timeline actions).flatMap answered <+: ({} : Board).raisedIn actions ∧
    ((({} : Board).raisedIn actions).length =
        (({} : Board).timeline actions).countP (·.cpu.state = .t1i) +
          (({} : Board).performAll actions).interrupter.line.toNat ∧
      ∀ c ∈ ({} : Board).timeline actions ++ [({} : Board).performAll actions],
        c.cpu.state = .t1i → c.interrupter.line = true) ∧
    (∀ (before between after : List Board) (c d : Board),
      ({} : Board).timeline actions = before ++ c :: (between ++ d :: after) →
      c.cpu.state = .t1i → (∀ m ∈ between, m.cpu.state ≠ .t3) → d.cpu.state = .t3 →
      d.settle.owner = .interrupt ∧ d.settle.bus = c.interrupter.opcode) ∧
    ∀ (before since : List Action) (a : Action) (opcode : UInt8),
      actions = before ++ a :: since → a.request? = some opcode →
      (∀ a' ∈ since, a'.request? = none) →
      [opcode] = (({} : Board).performAll before).raisedIn (a :: since) ++
        (({} : Board).performAll actions).interrupter.queued := by
  have hleads := leads_performAll consistent_fresh h
  have hlast : (({} : Board).performAll actions).Consistent :=
    consistent_performAll fun a ha ↦ (h a ha).1
  have hraised := raisedIn_eq consistent_fresh h
  have hacknowledged := acknowledged_eq consistent_fresh h
  refine ⟨?_, ⟨?_, ?_⟩, ?_, ?_⟩
  · -- what was raised is answered, being answered, or still on the line
    have hsplit : ({} : Board).raisedIn actions =
        (({} : Board).timeline actions).flatMap answered ++
          ((({} : Board).performAll actions).answering ++
            (({} : Board).performAll actions).interrupter.onLine) := by
      rw [← List.append_assoc, ← hacknowledged]
      exact hraised
    exact ⟨_, hsplit.symm⟩
  · have hlength := congrArg List.length hraised
    rw [List.length_append, List.length_append, length_flatMap_acknowledged] at hlength
    rw [← Nat.zero_add (List.length _)]
    refine hlength.trans (congrArg _ ?_)
    rw [Interrupter.onLine]
    cases (({} : Board).performAll actions).interrupter.line <;> rfl
  · intro c hc hs
    rcases List.mem_append.mp hc with hc | hc
    · exact ((hleads.consistent_of_mem hc).handshake.line_of_t1i hs).1
    · rw [List.mem_singleton.mp hc] at hs ⊢
      exact (hlast.handshake.line_of_t1i hs).1
  · intro before between after c d htimeline hc hbetween hd
    rw [htimeline] at hleads
    exact eq_of_answered (hleads.answered_of_t1i hc hbetween hd)
  · intro before since a opcode hactions hr hsince
    subst hactions
    -- the request waits or goes on the line at once, and nothing replaces it afterwards
    have hbefore : (({} : Board).performAll before).Consistent :=
      consistent_performAll fun a ha ↦ (h a (List.mem_append_left _ ha)).1
    obtain ⟨ha, hrest⟩ := List.forall_mem_cons.mp fun a ha ↦ h a (List.mem_append_right before ha)
    rw [performAll_append, performAll_cons, raisedIn, collect, List.append_assoc, ← raisedIn,
      ← queued_eq (invariant_consistent.perform hbefore ha.1) fun a' ha' ↦
        ⟨hrest a' ha', hsince a' ha'⟩]
    exact queued_perform_of_request hr

/-- Three requests: one that is answered, one that goes on the line meanwhile, and one that waits
behind it. -/
def threeRequests : List Action :=
  [.requestInterrupt 0x0d, .tick, .tick, .tick, .requestRestart 2, .tick, .tick, .setReady false,
    .tick, .requestInterrupt 0x1d, .setReady true, .tick, .tick, .tick]

theorem threeRequests_delivered :
    ({} : Board).raisedIn threeRequests = [0x0d, 0x15] ∧
      (({} : Board).timeline threeRequests).flatMap answered = [0x0d] ∧
      (({} : Board).timeline threeRequests).flatMap answered <+:
        ({} : Board).raisedIn threeRequests :=
  ⟨by decide +kernel, by decide +kernel, (requests_delivered threeRequests (by decide)).1⟩

end Board

end Mcs8
