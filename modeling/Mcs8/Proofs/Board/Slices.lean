import Mathlib.Algebra.Ring.Nat
import Mathlib.Tactic.Common
import Mcs8.Proofs.Board.Run

/-!
# Runs in slices

A host may hand out the budget of a run in slices. A run whose budget is spent and that has no other
reason to stop can be taken up where it ended, and then makes the ticks, breakpoint hits and
messages that it would have made with a greater budget; a run that stops for another reason stops
there with any greater budget too (`runFrom_split`). So a budget can be divided at will
(`runInSlices_eq`).
-/

namespace Mcs8

/-- A run that halts or meets a breakpoint has another reason to stop than its budget. -/
theorem StopReasons.ne_budgetSpent {r : StopReasons}
    (h : r.halted = true ∨ r.breakpoint = true) : r ≠ { budgetSpent := true } := by
  rintro rfl
  rcases h with h | h <;> exact Bool.false_ne_true h

namespace RunResult

/-- The result of a run that went on from another one, which wrote the messages `written`. -/
def after (r : RunResult) (written : String) : RunResult :=
  { r with messages := written ++ r.messages }

/-- The result of a run with `more` ticks more in its budget, which it does not make. -/
def extend (r : RunResult) (more : Nat) : RunResult :=
  { r with
    reasons := { r.reasons with budgetSpent := r.remaining + more == 0 }
    remaining := r.remaining + more }

end RunResult

namespace Board

variable (b : Board)

/-- The messages written before a run make no difference to it. -/
theorem runFrom_written (written : String) (budget : Nat) :
    b.runFrom written budget = (b.runFrom "" budget).after written := by
  induction budget generalizing b written with
  | zero => simp [runFrom, RunResult.after]
  | succ budget ih =>
    rw [runFrom_succ, runFrom_succ]
    split
    · simp [RunResult.after]
    · rw [ih, ih b.tick ("" ++ _)]
      simp [RunResult.after, String.append_assoc]

/-- A run with a greater budget takes up what the one with the smaller budget has left, or it stops
where that one does. -/
theorem runFrom_split (written : String) (budget more : Nat) :
    b.runFrom written (budget + more) =
      if (b.runFrom written budget).reasons = { budgetSpent := true } then
        (b.runFrom written budget).board.runFrom (b.runFrom written budget).messages more
      else (b.runFrom written budget).extend more := by
  induction budget generalizing b written with
  | zero =>
    rw [Nat.zero_add, runFrom]
    exact (if_pos rfl).symm
  | succ budget ih =>
    rw [Nat.succ_add, runFrom_succ, runFrom_succ]
    cases hstop : b.stopsNext with
    | false =>
      rw [if_neg Bool.false_ne_true, if_neg Bool.false_ne_true]
      exact ih ..
    | true =>
      rw [stopsNext, Bool.or_eq_true] at hstop
      rw [if_pos rfl, if_pos rfl, if_neg (StopReasons.ne_budgetSpent hstop)]
      rfl

/-- The ticks of all slices together. -/
def totalTicks (slices : List UInt64) : Nat := (slices.map UInt64.toNat).sum

/-- Run a board slice by slice, until a run has another reason to stop than its budget. What is left
then are the rest of that slice and the later slices. -/
def runInSlices : Board → List UInt64 → RunResult
  | b, [] => b.run 0
  | b, slice :: rest =>
    if (b.run slice).reasons = { budgetSpent := true } then
      (runInSlices (b.run slice).board rest).after (b.run slice).messages
    else (b.run slice).extend (totalTicks rest)

/-- Running in slices is running with all of them at once. -/
theorem runInSlices_eq (slices : List UInt64) :
    b.runInSlices slices = b.runFrom "" (totalTicks slices) := by
  induction slices generalizing b with
  | nil => rfl
  | cons slice rest ih =>
    have htotal : totalTicks (slice :: rest) = slice.toNat + totalTicks rest := rfl
    rw [runInSlices, ih, ← runFrom_written, htotal, runFrom_split]
    rfl

/-- **A budget can be divided at will.**

* A run that ends because its budget is spent, and for no other reason, can be taken up: together
  with the run that goes on from its board it does, reports and writes what one run with both
  budgets does.
* A run that ends for another reason ends at the same tick with a greater budget, with the same
  board and the same messages; what is added to the budget remains, and the budget is reported as
  spent exactly if nothing remains.
* So a board that is run in slices of any sizes does what it does in one run. -/
theorem run_split (b : Board) :
    (∀ budget more : UInt64, budget.toNat + more.toNat < 2 ^ 64 →
      ((b.run budget).reasons = { budgetSpent := true } →
        b.run (budget + more) = ((b.run budget).board.run more).after (b.run budget).messages) ∧
      ((b.run budget).reasons.halted = true ∨ (b.run budget).reasons.breakpoint = true →
        b.run (budget + more) = (b.run budget).extend more.toNat ∧
        b.ticksOf (budget + more) = b.ticksOf budget)) ∧
    ∀ slices : List UInt64, totalTicks slices < 2 ^ 64 →
      b.runInSlices slices = b.run (.ofNat (totalTicks slices)) := by
  refine ⟨fun budget more hlt ↦ ?_, fun slices hlt ↦ ?_⟩
  · have hsum : (budget + more).toNat = budget.toNat + more.toNat := by
      rw [UInt64.toNat_add, Nat.mod_eq_of_lt hlt]
    have hsplit := b.runFrom_split "" budget.toNat more.toNat
    rw [← hsum] at hsplit
    constructor
    · intro hspent
      exact (hsplit.trans (if_pos hspent)).trans (runFrom_written _ _ _)
    · intro hstopped
      have hrun : b.run (budget + more) = (b.run budget).extend more.toNat :=
        hsplit.trans (if_neg (StopReasons.ne_budgetSpent hstopped))
      refine ⟨hrun, ?_⟩
      rw [ticksOf, hrun, hsum]
      exact Nat.add_sub_add_right ..
  · rw [runInSlices_eq, run, UInt64.toNat_ofNat_of_lt' hlt]

/-- The marked board stops at its breakpoint in the seventh tick, also if three ticks are given
first. -/
theorem marked_split :
    (marked.run 3).reasons = { budgetSpent := true } ∧
    (marked.run (7 + 5)).remaining = 5 ∧ marked.ticksOf (7 + 5) = 7 ∧
    (marked.runInSlices [3, 9]).reasons = { breakpoint := true } := by
  obtain ⟨hpair, hslices⟩ := run_split marked
  have hspent : (marked.run 3).reasons = { budgetSpent := true } := by decide +kernel
  have hstopped : (marked.run 7).reasons = { breakpoint := true, budgetSpent := true } := by
    decide +kernel
  have hremaining : (marked.run 7).remaining = 0 := by decide +kernel
  obtain ⟨hrun, hticks⟩ := (hpair 7 5 (by decide)).2 (.inr (congrArg (·.breakpoint) hstopped))
  refine ⟨hspent, ?_, ?_, ?_⟩
  · rw [hrun, RunResult.extend, hremaining]
    rfl
  · rw [hticks, ticksOf, hremaining]
    rfl
  · have htotal : UInt64.ofNat (totalTicks [3, 9]) = 7 + 5 := by decide
    rw [hslices [3, 9] (by decide), htotal, hrun, RunResult.extend, hstopped, hremaining]
    rfl

end Board

end Mcs8
