import Mcs8.Ports
import Mcs8.ReturnStack

/-!
# Logged computations

Memory, ports, registers, return slots and flags are reached by number. A logged computation gives
its value together with every reference that it makes to one of these stores, in order, whether the
number is in bounds or not (`Logged`). So the definitions of the board can be written once more with
their references in the open: a lemma on the value says that they are still the same functions, and
a lemma on the references says what they reach.
-/

namespace Mcs8

/-- What is reached by number. -/
inductive Store where
  | memory
  | inputs
  | outputs
  | registers
  | slots
  | flags

/-- The number of cells. -/
@[reducible] def Store.size : Store → Nat
  | memory => 0x4000
  | inputs => 8
  | outputs => 24
  | registers => 7
  | slots => 8
  | flags => 4

/-- A reference to a store by number, or to the registers by code. -/
inductive Reference where
  | cell (store : Store) (number : Int)
  | register (code : Register)

/-- The number is that of a cell. -/
def Reference.InBounds : Reference → Prop
  | cell store number => 0 ≤ number ∧ number < store.size
  | register _ => True

/-- The reference is in bounds, and a register is referred to by an allowed code. -/
structure Reference.Proper (allowed : Register → Prop) (r : Reference) : Prop where
  inBounds : r.InBounds
  allowed_code : ∀ code, r = .register code → allowed code

/-- A value with the references that were made on the way to it, the first one first. -/
structure Logged (α : Type) where
  value : α
  references : List Reference := []

namespace Logged

variable {α β : Type}

instance : Monad Logged where
  pure value := { value }
  bind x f := ⟨(f x.value).value, x.references ++ (f x.value).references⟩

/-- Make a note of a register code. -/
def note (code : Register) : Logged Unit := ⟨(), [.register code]⟩

/-- Look at the cell with a number; out of bounds there is only `blank` to be seen. -/
def look (store : Store) (cells : Vector α store.size) (number : Int) (blank : α) : Logged α :=
  ⟨cells[number.toNat]?.getD blank, [.cell store number]⟩

/-- Put a value into the cell with a number; out of bounds nothing is changed. -/
def put (store : Store) (cells : Vector α store.size) (number : Int) (value : α) :
    Logged (Vector α store.size) :=
  ⟨cells.setIfInBounds number.toNat value, [.cell store number]⟩

/-! ### Values -/

@[simp] theorem value_pure (value : α) : (pure value : Logged α).value = value := rfl

@[simp] theorem value_bind (x : Logged α) (f : α → Logged β) :
    (x >>= f).value = (f x.value).value := rfl

@[simp] theorem value_ite (c : Prop) [Decidable c] (x y : Logged α) :
    (if c then x else y).value = if c then x.value else y.value :=
  apply_ite value c x y

@[simp] theorem value_look (store : Store) (cells : Vector α store.size) (number : Int)
    (blank : α) : (look store cells number blank).value = cells[number.toNat]?.getD blank := rfl

@[simp] theorem value_put (store : Store) (cells : Vector α store.size) (number : Int)
    (value : α) : (put store cells number value).value = cells.setIfInBounds number.toNat value :=
  rfl

/-- In bounds, the value that is looked at is the one in the cell. -/
theorem value_look_of_lt (store : Store) {number : Nat} (h : number < store.size)
    (cells : Vector α store.size) (blank : α) :
    (look store cells number blank).value = cells[number] := by
  rw [value_look, Int.toNat_natCast, Vector.getElem?_eq_getElem h, Option.getD_some]

/-- In bounds, a value that is put is set. -/
theorem value_put_of_lt (store : Store) {number : Nat} (h : number < store.size)
    (cells : Vector α store.size) (value : α) :
    (put store cells number value).value = cells.set number value := by
  rw [value_put, Int.toNat_natCast]
  ext i hi
  rw [Vector.getElem_setIfInBounds hi, Vector.getElem_set]

/-! ### References -/

/-- All references are proper. -/
def Proper (allowed : Register → Prop) (x : Logged α) : Prop :=
  ∀ r ∈ x.references, r.Proper allowed

variable {allowed : Register → Prop}

@[simp] theorem proper_pure (value : α) : (pure value : Logged α).Proper allowed := by
  intro r hr
  contradiction

@[simp] theorem proper_bind (x : Logged α) (f : α → Logged β) :
    (x >>= f).Proper allowed ↔ x.Proper allowed ∧ (f x.value).Proper allowed :=
  List.forall_mem_append

theorem proper_note {code : Register} (h : allowed code) : (note code).Proper allowed :=
  List.forall_mem_singleton.mpr ⟨trivial, fun _ hcode ↦ Reference.register.inj hcode ▸ h⟩

theorem proper_cell {store : Store} {number : Nat} (h : number < store.size) :
    ∀ r ∈ [Reference.cell store number], r.Proper allowed :=
  List.forall_mem_singleton.mpr ⟨⟨Int.natCast_nonneg _, Int.ofNat_lt.mpr h⟩, nofun⟩

theorem proper_look (store : Store) {number : Nat} (h : number < store.size)
    (cells : Vector α store.size) (blank : α) :
    (look store cells number blank).Proper allowed := proper_cell h

theorem proper_put (store : Store) {number : Nat} (h : number < store.size)
    (cells : Vector α store.size) (value : α) :
    (put store cells number value).Proper allowed := proper_cell h

theorem Proper.ite {c : Prop} [Decidable c] {x y : Logged α} (hx : c → x.Proper allowed)
    (hy : ¬c → y.Proper allowed) : (if c then x else y).Proper allowed := by
  split
  · exact hx ‹_›
  · exact hy ‹_›

/-- A value that is passed on as part of a larger one needs no further references. -/
theorem Proper.bind_pure {x : Logged α} (h : x.Proper allowed) (f : α → β) :
    (x >>= fun value ↦ pure (f value)).Proper allowed :=
  (proper_bind ..).mpr ⟨h, proper_pure _⟩

end Logged

end Mcs8
