import Mathlib
import Mcs8.ReturnStack

/-!
# Frames on the return stack

Calls and returns pair off like brackets. The return stack does not know of the pairs: it has eight
slots, and each call writes the next one. What the slot of a call holds when its return comes is
decided by the calls in between that are made while a multiple of eight frames is open
(`slot_play`): the last of them has overwritten it, and if there is none the slot still holds the
address of the call itself. There is none exactly if the frames have never been more than eight
(`overwriting_eq_nil_iff`).
-/

namespace Mcs8

/-- A transfer of control that uses the return stack. -/
inductive Transfer where
  /-- A subroutine is called; it is to return to `address`. -/
  | call (address : UInt16)
  /-- A subroutine returns to `target`. -/
  | ret (target : UInt16)
  deriving DecidableEq

namespace Transfer

/-- By how many frames a transfer changes the number of open ones. -/
def change : Transfer → Int
  | call _ => 1
  | ret _ => -1

/-- By how many frames transfers change the number of open ones. -/
def depth (l : List Transfer) : Int := (l.map change).sum

/-- Every return belongs to a call before it, and every call has its return. -/
structure Balanced (l : List Transfer) : Prop where
  nonneg : ∀ p, p <+: l → 0 ≤ depth p
  depth_eq : depth l = 0

/-- The number of frames that are open after a call and what follows it, that of the call
included. -/
def framesOpen (l : List Transfer) : Int := 1 + depth l

/-- The return addresses of the calls that are made while a multiple of eight frames is open, where
`frames` are open at first. -/
def overwriting (frames : Int) : List Transfer → List UInt16
  | [] => []
  | call address :: rest =>
    if frames % 8 = 0 then address :: overwriting (frames + 1) rest
    else overwriting (frames + 1) rest
  | ret _ :: rest => overwriting (frames - 1) rest

@[simp] theorem depth_nil : depth [] = 0 := rfl

@[simp] theorem depth_call (address : UInt16) (l : List Transfer) :
    depth (call address :: l) = 1 + depth l := List.sum_cons

@[simp] theorem depth_ret (target : UInt16) (l : List Transfer) :
    depth (ret target :: l) = -1 + depth l := List.sum_cons

theorem call_mem_of_mem_overwriting {frames : Int} {l : List Transfer} {address : UInt16}
    (h : address ∈ overwriting frames l) : .call address ∈ l := by
  induction l generalizing frames with
  | nil => contradiction
  | cons t l ih =>
    cases t with
    | call next =>
      rw [overwriting] at h
      split at h
      · rcases List.mem_cons.mp h with rfl | h
        · exact List.mem_cons_self
        · exact List.mem_cons_of_mem _ (ih h)
      · exact List.mem_cons_of_mem _ (ih h)
    | ret target => exact List.mem_cons_of_mem _ (ih h)

/-- Nothing is overwritten as long as no ninth frame is opened. The frame at the bottom is one of
those that are open, and stays so. -/
theorem overwriting_eq_nil_iff {frames : Int} {l : List Transfer} (hle : frames ≤ 8)
    (hopen : ∀ p, p <+: l → 1 ≤ frames + depth p) :
    overwriting frames l = [] ↔ ∀ p, p <+: l → frames + depth p ≤ 8 := by
  have hpos : 1 ≤ frames := by simpa using hopen [] List.nil_prefix
  induction l generalizing frames with
  | nil => simp [overwriting, hle]
  | cons t l ih =>
    have hrest (p : List Transfer) (hp : p <+: l) : 1 ≤ frames + depth (t :: p) :=
      hopen _ ((List.prefix_cons_inj t).mpr hp)
    have hsplit : (∀ p, p <+: t :: l → frames + depth p ≤ 8) ↔
        ∀ p, p <+: l → frames + depth (t :: p) ≤ 8 := by
      refine ⟨fun h p hp ↦ h _ ((List.prefix_cons_inj t).mpr hp), fun h p hp ↦ ?_⟩
      obtain rfl | ⟨rest, rfl, hlater⟩ := List.prefix_cons_iff.mp hp
      · simpa using hle
      · exact h rest hlater
    rw [hsplit]
    cases t with
    | call address =>
      simp only [depth_call, ← Int.add_assoc] at hrest ⊢
      rw [overwriting]
      split
      next hfull =>
        -- the ninth frame is opened
        refine ⟨nofun, fun h ↦ ?_⟩
        have := h [] List.nil_prefix
        simp only [depth_nil] at this
        omega
      next => exact ih (by omega) hrest (by omega)
    | ret target =>
      simp only [depth_ret, ← Int.add_assoc] at hrest ⊢
      have hpos' := hrest [] List.nil_prefix
      simp only [depth_nil] at hpos'
      exact ih (by omega) hrest (by omega)

end Transfer

open Transfer

namespace ReturnStack

/-- The stack after a transfer. -/
def after (s : ReturnStack) : Transfer → ReturnStack
  | .call address => s.push address
  | .ret _ => s.pop

/-- The stack after transfers. -/
def play (s : ReturnStack) (l : List Transfer) : ReturnStack := l.foldl after s

/-- Every return goes to the address that a pop gives. -/
def Serves : ReturnStack → List Transfer → Prop
  | _, [] => True
  | s, t :: rest => (∀ target, t = .ret target → target = s.top) ∧ Serves (s.after t) rest

variable {s : ReturnStack} {l : List Transfer}

theorem serves_append {more : List Transfer} :
    s.Serves (l ++ more) ↔ s.Serves l ∧ (s.play l).Serves more := by
  induction l generalizing s with
  | nil => exact (and_iff_right trivial).symm
  | cons t l ih => exact (and_congr_right fun _ ↦ ih).trans and_assoc.symm

theorem toNat_pointer_push (s : ReturnStack) (address : UInt16) :
    ((s.push address).pointer : Nat) = (s.pointer + 1) % 8 := by
  rw [pointer_push, Fin.val_add]
  rfl

theorem toNat_pointer_pop (s : ReturnStack) : (s.pop.pointer : Nat) = (s.pointer + 7) % 8 := by
  rw [pointer_pop, Fin.sub_def, Nat.add_comm]
  rfl

/-- The pointer goes around the ring with the number of open frames. -/
theorem pointer_play (s : ReturnStack) (l : List Transfer) :
    ((s.play l).pointer : Int) = (s.pointer + depth l) % 8 := by
  induction l generalizing s with
  | nil =>
    have := s.pointer.isLt
    simp only [play, List.foldl_nil, depth_nil]
    omega
  | cons t l ih =>
    have hplay : s.play (t :: l) = (s.after t).play l := rfl
    rw [hplay, ih]
    cases t with
    | call address =>
      have hpointer := s.toNat_pointer_push address
      rw [after, depth_call]
      omega
    | ret target =>
      have hpointer := s.toNat_pointer_pop
      rw [after, depth_ret]
      omega

/-- A slot that lies `frames` below the pointer holds the address of the last call that has
overwritten it. -/
theorem slot_play {k : Fin 8} {frames : Int} (h : ((s.pointer : Int) - k - frames) % 8 = 0) :
    (s.play l).slots[k] =
      ((overwriting frames l).getLast?.map (· % addressSpace)).getD s.slots[k] := by
  induction l generalizing s frames with
  | nil => rfl
  | cons t l ih =>
    have hplay : s.play (t :: l) = (s.after t).play l := rfl
    rw [hplay]
    cases t with
    | call address =>
      have hslot : (s.push address).slots[k] =
          if frames % 8 = 0 then address % addressSpace else s.slots[k] := by
        have hk : (s.pointer : Nat) = k ↔ frames % 8 = 0 := by omega
        show (s.slots.set s.pointer (address % addressSpace))[(k : Nat)] = _
        rw [Vector.getElem_set]
        simp only [hk]
        rfl
      have hpointer := s.toNat_pointer_push address
      have hnext : (((s.push address).pointer : Int) - k - (frames + 1)) % 8 = 0 := by omega
      rw [after, ih hnext, hslot, overwriting]
      split
      next =>
        rw [List.getLast?_cons]
        cases (overwriting (frames + 1) l).getLast? <;> rfl
      next => rfl
    | ret target =>
      have hpointer := s.toNat_pointer_pop
      have hnext : ((s.pop.pointer : Int) - k - (frames - 1)) % 8 = 0 := by omega
      exact ih hnext

theorem top_eq {k : Fin 8} (h : s.pointer - 1 = k) : s.top = s.slots[k] := by
  subst h
  rfl

/-- When the return of a call comes, what is on top is the address that the call has pushed, or that
the last one that has overwritten it has. -/
theorem top_play_mod (address : UInt16) (hbalanced : Balanced l) :
    ((s.push address).play l).top =
      (overwriting 1 l).getLast?.getD address % addressSpace := by
  have hpushed := s.toNat_pointer_push address
  have hplayed := (s.push address).pointer_play l
  rw [hbalanced.depth_eq] at hplayed
  have hpointer : ((s.push address).play l).pointer - 1 = s.pointer := by
    have hpop := ((s.push address).play l).toNat_pointer_pop
    rw [pointer_pop] at hpop
    rw [Fin.ext_iff]
    omega
  have hslot : (s.push address).slots[s.pointer] = address % addressSpace := by
    show (s.slots.set s.pointer (address % addressSpace))[(s.pointer : Nat)] = _
    rw [Vector.getElem_set_self]
  have hbelow : (((s.push address).pointer : Int) - s.pointer - 1) % 8 = 0 := by omega
  rw [top_eq hpointer, slot_play hbelow, hslot]
  cases (overwriting 1 l).getLast? <;> rfl

/-- When the return of a call comes, the address on top is that of the call, or of the last one
that has overwritten it. -/
theorem top_play {address : UInt16} (haddress : address % addressSpace = address)
    (hbalanced : Balanced l)
    (hl : ∀ address, .call address ∈ l → address % addressSpace = address) :
    ((s.push address).play l).top = (overwriting 1 l).getLast?.getD address := by
  rw [top_play_mod address hbalanced]
  cases hlast : (overwriting 1 l).getLast? with
  | none => exact haddress
  | some last => exact hl last (call_mem_of_mem_overwriting (List.mem_of_getLast? hlast))

end ReturnStack

end Mcs8
