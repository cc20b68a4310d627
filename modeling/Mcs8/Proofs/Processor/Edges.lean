import Mathlib.Data.List.Induction
import Mathlib.Tactic.Common
import Mcs8.Synchronizer

/-!
# The edges that the synchronizer detects

The synchronizer is told the level of the line at each clock, and of each acknowledge. Whether a
request is pending can be read off this history alone (`pending_run_iff`): it is, exactly if a
rising edge of the line was followed by another clock, with no acknowledge since then. The two
flip-flops are what is needed of the history: they hold the latest two levels (`first_run`,
`second_run`), and the next clock latches a request exactly if these are an edge.
-/

namespace Mcs8.Synchronizer

/-- What can happen to a synchronizer. -/
inductive Event where
  | clock (line : Bool)
  | acknowledge

/-- The level of the line, if the event is a clock. -/
def Event.level? : Event → Option Bool
  | clock line => some line
  | acknowledge => none

/-- The levels of the line that are clocked in, in order. -/
def levels (events : List Event) : List Bool := events.filterMap Event.level?

/-- The synchronizer after an event. -/
def perform (s : Synchronizer) : Event → Synchronizer
  | .clock line => s.clock line
  | .acknowledge => s.acknowledge

/-- The synchronizer after events. -/
def run (s : Synchronizer) (events : List Event) : Synchronizer := events.foldl perform s

/-- A high level comes after a low one, or is the first. -/
def RisesAt (levels : List Bool) (i : Nat) : Prop :=
  levels[i]? = some true ∧ (0 < i → levels[i - 1]? = some false)

/-- The number of times that a request is latched. -/
def latchings (s : Synchronizer) : List Event → Nat
  | [] => 0
  | e :: rest =>
    (if s.pending = false ∧ (s.perform e).pending = true then 1 else 0) +
      (s.perform e).latchings rest

variable (s : Synchronizer) (events : List Event)

@[simp] theorem levels_append (more : List Event) :
    levels (events ++ more) = levels events ++ levels more := List.filterMap_append

@[simp] theorem levels_clock (line : Bool) : levels [.clock line] = [line] := rfl

@[simp] theorem levels_acknowledge : levels [.acknowledge] = [] := rfl

theorem run_append (more : List Event) : s.run (events ++ more) = (s.run events).run more :=
  List.foldl_append

theorem run_concat (e : Event) : s.run (events ++ [e]) = (s.run events).perform e :=
  s.run_append events [e]

theorem pending_clock (line : Bool) :
    (s.clock line).pending = (s.pending || (s.first && !s.second)) := rfl

/-! ### The flip-flops hold the latest levels -/

theorem first_run : (run {} events).first = (levels events).getLastD false := by
  induction events using List.reverseRecOn with
  | nil => rfl
  | append_singleton events e ih =>
    rw [run_concat, levels_append]
    cases e with
    | clock line => rw [levels_clock, List.getLastD_concat]; rfl
    | acknowledge => rw [levels_acknowledge, List.append_nil]; exact ih

theorem second_run : (run {} events).second = (levels events).dropLast.getLastD false := by
  induction events using List.reverseRecOn with
  | nil => rfl
  | append_singleton events e ih =>
    rw [run_concat, levels_append]
    cases e with
    | clock line => rw [levels_clock, List.dropLast_concat, ← first_run]; rfl
    | acknowledge => rw [levels_acknowledge, List.append_nil]; exact ih

/-- The latest level is an edge, where the level before the first one counts as low. -/
theorem risesAt_last_iff (levels : List Bool) :
    (∃ i, i + 1 = levels.length ∧ RisesAt levels i) ↔
      levels.getLastD false = true ∧ levels.dropLast.getLastD false = false := by
  rcases levels.eq_nil_or_concat with rfl | ⟨before, line, rfl⟩
  · simp
  rw [List.concat_eq_append]
  rcases before.eq_nil_or_concat with rfl | ⟨earlier, former, rfl⟩
  · simp [RisesAt]
  · rw [List.concat_eq_append]
    simp [RisesAt]

theorem risesAt_append_iff {levels : List Bool} {i : Nat} (h : i < levels.length)
    (more : List Bool) : RisesAt (levels ++ more) i ↔ RisesAt levels i := by
  rw [RisesAt, RisesAt, List.getElem?_append_left h, List.getElem?_append_left (by omega)]

/-! ### Edges and requests -/

/-- A rising edge was followed by another clock, and no acknowledge came since then. -/
def DetectedAt (i : Nat) : Prop :=
  RisesAt (levels events) i ∧ i + 1 < (levels events).length ∧
    ∀ k, events[k]? = some .acknowledge → (levels (events.take k)).length ≤ i + 1

variable {events} in
theorem detectedAt_clock_iff {line : Bool} {i : Nat} :
    DetectedAt (events ++ [.clock line]) i ↔
      DetectedAt events i ∨ i + 1 = (levels events).length ∧ RisesAt (levels events) i := by
  have hacks : (∀ k, (events ++ [Event.clock line])[k]? = some .acknowledge →
        (levels ((events ++ [Event.clock line]).take k)).length ≤ i + 1) ↔
      ∀ k, events[k]? = some .acknowledge → (levels (events.take k)).length ≤ i + 1 := by
    refine forall_congr' fun k ↦ ?_
    rcases Nat.lt_or_ge k events.length with hk | hk
    · rw [List.getElem?_append_left hk, List.take_append_of_le_length (Nat.le_of_lt hk)]
    · have hnew : (events ++ [Event.clock line])[k]? ≠ some .acknowledge := by
        rw [List.getElem?_append_right hk]
        cases k - events.length <;> simp
      rw [List.getElem?_eq_none hk]
      exact iff_of_true (fun h ↦ absurd h hnew) nofun
  rw [DetectedAt, hacks, levels_append, levels_clock, List.length_append, List.length_singleton]
  constructor
  · rintro ⟨hrises, hlt, hack⟩
    rw [risesAt_append_iff (by omega)] at hrises
    rcases Nat.lt_or_eq_of_le (Nat.le_of_lt_succ hlt) with hlt | heq
    · exact .inl ⟨hrises, hlt, hack⟩
    · exact .inr ⟨heq, hrises⟩
  · rintro (⟨hrises, hlt, hack⟩ | ⟨heq, hrises⟩)
    · exact ⟨(risesAt_append_iff (by omega) _).mpr hrises, by omega, hack⟩
    · refine ⟨(risesAt_append_iff (by omega) _).mpr hrises, by omega, fun k _ ↦ ?_⟩
      rw [heq]
      exact ((List.take_sublist k events).filterMap _).length_le

/-- A request is pending exactly if an edge was detected. -/
theorem pending_run_iff : (run {} events).pending = true ↔ ∃ i, DetectedAt events i := by
  induction events using List.reverseRecOn with
  | nil => simp [run, pending, DetectedAt, levels]
  | append_singleton events e ih =>
    rw [run_concat]
    cases e with
    | clock line =>
      rw [perform, pending_clock, Bool.or_eq_true, Bool.and_eq_true, Bool.not_eq_true', ih,
        first_run, second_run, ← risesAt_last_iff, ← exists_or]
      exact exists_congr fun i ↦ detectedAt_clock_iff.symm
    | acknowledge =>
      refine iff_of_false Bool.false_ne_true ?_
      rintro ⟨i, -, hlt, hack⟩
      have hle := hack events.length List.getElem?_concat_length
      rw [List.take_left] at hle
      rw [levels_append, levels_acknowledge, List.append_nil] at hlt
      omega

variable {events}

/-- A high level after a low one is detected with the next clock, whatever that one's level is. -/
theorem pending_run_of_edge (h : (levels events).getLastD false = false) (n : Nat) (next : Bool) :
    (run {} (events ++ .clock true :: (List.replicate n .acknowledge ++ [.clock next]))).pending =
      true := by
  have hacks (s : Synchronizer) : (s.run (List.replicate n .acknowledge)).first = s.first ∧
      (s.run (List.replicate n .acknowledge)).second = s.second := by
    induction n generalizing s with
    | zero => exact ⟨rfl, rfl⟩
    | succ n ih => exact ih s.acknowledge
  have hrun : run {} (events ++ .clock true :: (List.replicate n .acknowledge ++ [.clock next])) =
      (((run {} events).clock true).run (List.replicate n .acknowledge)).clock next := by
    rw [run_append, ← List.cons_append, run_concat]
    rfl
  have hlow : (run {} events).first = false := (first_run events).trans h
  obtain ⟨hfirst, hsecond⟩ := hacks ((run {} events).clock true)
  rw [hrun, pending_clock, hfirst, hsecond]
  show (_ || true && !(run {} events).first) = true
  rw [hlow]
  exact Bool.or_true _

/-! ### Latching -/

theorem latchings_clock (line : Bool) : s.latchings (.clock line :: events) =
    (if s.pending = false ∧ (s.clock line).pending = true then 1 else 0) +
      (s.clock line).latchings events := rfl

theorem latchings_acknowledge : s.latchings (.acknowledge :: events) =
    s.acknowledge.latchings events := by
  rw [latchings, if_neg (fun h ↦ Bool.false_ne_true h.2), Nat.zero_add]
  rfl

variable {s}

/-- While the line stays high, a request is latched once at most. -/
theorem latchings_of_high (h : ∀ line ∈ levels events, line = true) :
    s.latchings events ≤ if s.first && s.second then 0 else 1 := by
  induction events generalizing s with
  | nil => exact Nat.zero_le _
  | cons e events ih =>
    cases e with
    | clock line =>
      obtain ⟨rfl, hrest⟩ := List.forall_mem_cons.mp h
      -- with the level that is clocked in the second flip-flop follows the first one
      have hle : (s.clock true).latchings events ≤ if s.first then 0 else 1 := ih hrest
      rw [latchings_clock, pending_clock]
      cases hfirst : s.first with
      | false => simpa [hfirst] using hle
      | true =>
        have hnone : (s.clock true).latchings events = 0 := by simpa [hfirst] using hle
        rw [hnone]
        cases s.second <;> cases s.pending <;> decide
    | acknowledge =>
      rw [latchings_acknowledge]
      exact ih (s := s.acknowledge) h

/-- Until an acknowledge comes, a request is latched once at most. -/
theorem latchings_of_not_acknowledged (h : .acknowledge ∉ events) :
    s.latchings events ≤ if s.pending then 0 else 1 := by
  induction events generalizing s with
  | nil => exact Nat.zero_le _
  | cons e events ih =>
    rw [List.mem_cons, not_or] at h
    obtain ⟨hne, hrest⟩ := h
    cases e with
    | clock line =>
      have hle := ih (s := s.clock line) hrest
      rw [latchings_clock]
      cases hpending : s.pending with
      | true =>
        rw [pending_clock, hpending] at hle
        simpa using hle
      | false =>
        cases hlatched : (s.clock line).pending <;> simp [hlatched] at hle ⊢ <;> omega
    | acknowledge => exact absurd rfl hne

/-- **The synchronizer detects exactly the rising edges.** After any events from power-on:

* a request is pending exactly if a high level came after a low one, or was the first, and another
  clock followed, with no acknowledge behind that one;
* so a high level after a low one is always detected, if both last for one clock only and whatever
  was acknowledged before the clock that detects it;
* while the line stays high, no request is latched twice, whatever is acknowledged;
* and until something is acknowledged, no request is latched twice, however many edges there are. -/
theorem detects_rising_edges :
    (∀ events, (run {} events).pending = true ↔
      ∃ i, ((levels events)[i]? = some true ∧ (0 < i → (levels events)[i - 1]? = some false)) ∧
        i + 1 < (levels events).length ∧
        ∀ k, events[k]? = some .acknowledge → (levels (events.take k)).length ≤ i + 1) ∧
    (∀ before, (levels before).getLastD false = false → ∀ (n : Nat) (next : Bool),
      (run {} (before ++ .clock true ::
        (List.replicate n .acknowledge ++ [.clock next]))).pending = true) ∧
    (∀ before held, (∀ line ∈ levels held, line = true) →
      (run {} before).latchings held ≤ 1) ∧
    ∀ before more, .acknowledge ∉ more → (run {} before).latchings more ≤ 1 := by
  refine ⟨pending_run_iff, fun before ↦ pending_run_of_edge, fun before held h ↦ ?_,
    fun before more h ↦ ?_⟩
  · exact Nat.le_trans (latchings_of_high h) (by split <;> omega)
  · exact Nat.le_trans (latchings_of_not_acknowledged h) (by split <;> omega)

end Mcs8.Synchronizer
