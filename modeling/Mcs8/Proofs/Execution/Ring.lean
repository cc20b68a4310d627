import Mcs8.Proofs.Execution.Frames

/-!
# The ring of return addresses

A return stack takes pushes and pops in any order: pops that no push belongs to, and more pushes
than there are slots. What each pop finds can be told from the transfers alone. Each of them has a
level, the number of frames that are open without its own, which can be negative
(`Transfer.level`). Levels that agree modulo eight share a slot, so a pop finds the address that was
pushed last at a level like its own (`getLast?_overwriting`), and if there is none, what the slot
has held from the start (`overwriting_eq_nil`).
-/

namespace Mcs8

namespace Transfer

variable {l : List Transfer} {i j : Nat} {address target : UInt16} {frames : Int}

theorem depth_append (l more : List Transfer) : depth (l ++ more) = depth l + depth more := by
  rw [depth, List.map_append, List.sum_append]
  rfl

/-- The level of the transfer at a position: the calls less the returns before it, a return itself
included. -/
def level (l : List Transfer) (i : Nat) : Int :=
  match l[i]? with
  | some (.ret _) => depth (l.take (i + 1))
  | _ => depth (l.take i)

/-- The transfer at position `j` pushes an address at a level that agrees with `n` modulo eight. -/
def PushesAt (l : List Transfer) (n : Int) (j : Nat) (address : UInt16) : Prop :=
  l[j]? = some (.call address) ∧ level l j ≡ n [ZMOD 8]

theorem level_of_call (h : l[i]? = some (.call address)) : level l i = depth (l.take i) := by
  rw [level, h]

theorem level_of_ret (h : l[i]? = some (.ret target)) : level l i = depth (l.take i) - 1 := by
  rw [level, h, List.take_add_one, h]
  exact depth_append (l.take i) [.ret target]

/-- What comes before a position does not depend on what comes after it. -/
theorem pushesAt_take_iff {n : Int} :
    PushesAt (l.take i) n j address ↔ j < i ∧ PushesAt l n j address := by
  rw [PushesAt, PushesAt]
  rcases Nat.lt_or_ge j i with hj | hj
  · rw [List.getElem?_take_of_lt hj, and_iff_right hj]
    refine and_congr_right fun hcall ↦ ?_
    rw [level_of_call hcall, level_of_call ((List.getElem?_take_of_lt hj).trans hcall),
      List.take_take, Nat.min_eq_left (Nat.le_of_lt hj)]
  · have hnone : (l.take i)[j]? = none :=
      List.getElem?_eq_none (Nat.le_trans (List.length_take_le i l) hj)
    rw [hnone]
    exact iff_of_false (fun h ↦ nomatch h.1) fun h ↦ Nat.not_lt.mpr hj h.1

theorem overwriting_append (more : List Transfer) :
    overwriting frames (l ++ more) =
      overwriting frames l ++ overwriting (frames + depth l) more := by
  induction l generalizing frames with
  | nil => rw [List.nil_append, depth_nil, Int.add_zero, overwriting, List.nil_append]
  | cons t l ih =>
    cases t with
    | call address =>
      rw [List.cons_append, overwriting, overwriting, ih, depth_call, Int.add_assoc]
      split <;> rfl
    | ret target =>
      rw [List.cons_append, overwriting, overwriting, ih, depth_ret, ← Int.add_assoc]
      rfl

/-- Nothing is overwritten by calls at other levels. -/
theorem overwriting_eq_nil (h : ∀ j address, l[j]? = some (.call address) →
    (frames + depth (l.take j)) % 8 ≠ 0) : overwriting frames l = [] := by
  induction l generalizing frames with
  | nil => rfl
  | cons t l ih =>
    have hrest (j : Nat) (address : UInt16) (hj : l[j]? = some (.call address)) :
        (frames + depth (t :: l.take j)) % 8 ≠ 0 := h (j + 1) address hj
    cases t with
    | call first =>
      have hfirst : ¬frames % 8 = 0 := by simpa using h 0 first rfl
      rw [overwriting, if_neg hfirst]
      refine ih fun j address hj ↦ ?_
      rw [Int.add_assoc, ← depth_call first]
      exact hrest j address hj
    | ret target =>
      refine ih fun j address hj ↦ ?_
      rw [Int.sub_eq_add_neg, Int.add_assoc, ← depth_ret target]
      exact hrest j address hj

/-- The call that was the last one at its level is the last one to overwrite. -/
theorem getLast?_overwriting {n : Int} (h : PushesAt l n j address)
    (hlast : ∀ k a, j < k → ¬PushesAt l n k a) :
    (overwriting (-n) l).getLast? = some address := by
  obtain ⟨hcall, hlevel⟩ := h
  obtain ⟨hlt, hget⟩ := List.getElem?_eq_some_iff.mp hcall
  have hsplit : l = l.take j ++ .call address :: l.drop (j + 1) := by
    rw [← hget, ← List.drop_eq_getElem_cons hlt, List.take_append_drop]
  rw [level_of_call hcall, Int.ModEq] at hlevel
  have hfull : (-n + depth (l.take j)) % 8 = 0 := by omega
  have hrest : overwriting (-n + depth (l.take j) + 1) (l.drop (j + 1)) = [] := by
    refine overwriting_eq_nil fun k a hk hzero ↦ ?_
    rw [List.getElem?_drop] at hk
    have hdepth : depth (l.take (j + 1 + k)) =
        depth (l.take j) + 1 + depth ((l.drop (j + 1)).take k) := by
      rw [List.take_add, depth_append, List.take_add_one, hcall]
      exact congrArg (· + _) (depth_append (l.take j) [.call address])
    refine hlast (j + 1 + k) a (by omega) ⟨hk, ?_⟩
    rw [level_of_call hk, hdepth, Int.ModEq]
    omega
  rw [hsplit, overwriting_append, overwriting, if_pos hfull, hrest, List.getLast?_append,
    List.getLast?_singleton, Option.some_or]

end Transfer

open Transfer

namespace ReturnStack

variable {s : ReturnStack} {l : List Transfer}

/-- The address that a pop reads: the pointer goes back, and the slot is the one that it then points
to. -/
def popped (s : ReturnStack) : UInt16 := s.pop.slots[s.pop.pointer]

theorem popped_eq {k : Fin 8} (h : s.pop.pointer = k) : s.popped = s.slots[k] := by
  subst h
  rfl

/-- A slot holds the latest of the addresses that were pushed at its levels. -/
theorem slot_play_of_level {k : Fin 8} {n : Int} (hk : (k : Int) = (s.pointer + n) % 8) :
    (∀ j address, PushesAt l n j address → (∀ i a, j < i → ¬PushesAt l n i a) →
      (s.play l).slots[k] = address % addressSpace) ∧
    ((∀ j address, ¬PushesAt l n j address) → (s.play l).slots[k] = s.slots[k]) := by
  have hslot : (s.play l).slots[k] =
      ((overwriting (-n) l).getLast?.map (· % addressSpace)).getD s.slots[k] :=
    slot_play (by omega)
  rw [hslot]
  constructor
  · intro j address hpush hlast
    rw [getLast?_overwriting hpush hlast]
    rfl
  · intro hnone
    have hnil : overwriting (-n) l = [] := by
      refine overwriting_eq_nil fun j address hj hzero ↦ hnone j address ⟨hj, ?_⟩
      rw [level_of_call hj, Int.ModEq]
      omega
    rw [hnil]
    rfl

/-- A return pops the slot of its level. -/
theorem popped_play {k : Fin 8} (hk : (k : Int) = (s.pointer + (depth l - 1)) % 8) :
    (s.play l).popped = (s.play l).slots[k] := by
  have hplayed := s.pointer_play l
  have hpop := (s.play l).toNat_pointer_pop
  apply popped_eq
  rw [Fin.ext_iff]
  omega

/-- **The return stack is a ring of eight slots.** Let any transfers use a stack, returns that no
call belongs to and more than eight calls in a row among them:

* the pointer moves on with each call and back with each return, modulo eight;
* a slot that no call has gone to keeps its content;
* what is on top is what the next return pops;
* a return pops the address, cut to 14 bits, of the latest call before it at a level that agrees with
  its own modulo eight, and if there is none, the first content of the slot of its level;
* so a return that belongs to a call pops the address of that call, as long as no more than eight
  frames are open in between, whatever came before.
-/
theorem ring_of_slots (s : ReturnStack) (l : List Transfer) :
    ((s.play l).pointer.val < 8 ∧ ((s.play l).pointer : Int) = (s.pointer + depth l) % 8) ∧
    (∀ k : Fin 8, (∀ j address, l[j]? = some (.call address) →
        (s.pointer + level l j) % 8 ≠ k) → (s.play l).slots.get k = s.slots.get k) ∧
    (s.play l).top = (s.play l).popped ∧
    (∀ i target, l[i]? = some (.ret target) →
      (∀ j < i, ∀ address, PushesAt l (level l i) j address →
        (∀ k a, j < k → k < i → ¬PushesAt l (level l i) k a) →
        (s.play (l.take i)).popped = address % addressSpace) ∧
      ((∀ j < i, ∀ address, ¬PushesAt l (level l i) j address) →
        ∀ k : Fin 8, (k : Int) = (s.pointer + level l i) % 8 →
          (s.play (l.take i)).popped = s.slots.get k)) ∧
    ∀ before address between target after,
      l = before ++ .call address :: (between ++ .ret target :: after) → Balanced between →
      (∀ p, p <+: between → framesOpen p ≤ 8) →
      (s.play (before ++ .call address :: between)).popped = address % addressSpace := by
  refine ⟨⟨(s.play l).pointer.isLt, s.pointer_play l⟩, fun k hother ↦ ?_, rfl,
    fun i target hret ↦ ?_, ?_⟩
  · have hk : (k : Int) = (s.pointer + (k - s.pointer : Int)) % 8 := by omega
    refine (slot_play_of_level hk).2 fun j address hpush ↦ hother j address hpush.1 ?_
    have hlevel : level l j % 8 = (k - s.pointer : Int) % 8 := hpush.2
    omega
  · rw [level_of_ret hret]
    constructor
    · intro j hj address hpush hlast
      obtain ⟨k, hk⟩ : ∃ k : Fin 8, (k : Int) = (s.pointer + (depth (l.take i) - 1)) % 8 :=
        ⟨Fin.ofNat 8 ((s.pointer + (depth (l.take i) - 1)) % 8).toNat, by
          rw [Fin.val_ofNat]
          omega⟩
      rw [popped_play hk]
      refine (slot_play_of_level hk).1 j address (pushesAt_take_iff.mpr ⟨hj, hpush⟩) ?_
      intro k' a hlater hpush'
      obtain ⟨hlt, hpush'⟩ := pushesAt_take_iff.mp hpush'
      exact hlast k' a hlater hlt hpush'
    · intro hnone k hk
      rw [popped_play hk]
      refine (slot_play_of_level hk).2 fun j address hpush ↦ ?_
      obtain ⟨hj, hpush⟩ := pushesAt_take_iff.mp hpush
      exact hnone j hj address hpush
  · rintro before address between target after - hbalanced hframes
    have hnil : overwriting 1 between = [] :=
      (overwriting_eq_nil_iff (by decide) fun p hp ↦
        Int.le_add_of_nonneg_right (hbalanced.nonneg p hp)).mpr hframes
    have hplay : s.play (before ++ .call address :: between) =
        ((s.play before).push address).play between := List.foldl_append
    rw [hplay]
    refine (top_play_mod address hbalanced).trans ?_
    rw [hnil]
    rfl

end ReturnStack

end Mcs8
