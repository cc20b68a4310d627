import Mathlib.Data.Nat.Digits.Lemmas
import Mcs8.Proofs.Execution.Arithmetic

/-!
# Operations along the bytes of a number

A number of more than one byte is worked on byte by byte, and what one byte has to tell the next
goes through the flags. So a sweep over a list does an operation with its items in order, each with
the flags that the one before left. What a sweep makes of a number is then settled by what the
operation makes of a byte: `littleEndian_cons` takes the lowest byte off a number, and
`littleEndian_injective` says that nothing but the bytes is in it.
-/

namespace Mcs8

/-! ### Numbers and their bytes -/

/-- The number whose bytes are listed, the lowest first. -/
def littleEndian (bytes : List UInt8) : Nat := Nat.ofDigits 256 (bytes.map UInt8.toNat)

@[simp] theorem littleEndian_nil : littleEndian [] = 0 := rfl

@[simp] theorem littleEndian_cons (byte : UInt8) (rest : List UInt8) :
    littleEndian (byte :: rest) = byte.toNat + 256 * littleEndian rest :=
  Nat.ofDigits_cons

theorem lt_of_mem_map_toNat {bytes : List UInt8} {digit : Nat}
    (h : digit ∈ bytes.map UInt8.toNat) : digit < 256 := by
  obtain ⟨byte, -, rfl⟩ := List.mem_map.mp h
  exact byte.toNat_lt

theorem littleEndian_lt (bytes : List UInt8) : littleEndian bytes < 256 ^ bytes.length := by
  have hlength : (bytes.map UInt8.toNat).length = bytes.length := List.length_map ..
  rw [← hlength]
  exact Nat.ofDigits_lt_base_pow_length (by decide) fun _ ↦ lt_of_mem_map_toNat

/-- Equally many bytes of the same number are the same bytes. -/
theorem littleEndian_injective {x y : List UInt8} (hlength : x.length = y.length)
    (h : littleEndian x = littleEndian y) : x = y := by
  have hdigits : x.map UInt8.toNat = y.map UInt8.toNat := by
    refine Nat.ofDigits_inj_of_len_eq (by decide) ?_ (fun _ ↦ lt_of_mem_map_toNat)
      (fun _ ↦ lt_of_mem_map_toNat) h
    rw [List.length_map, List.length_map, hlength]
  exact List.map_injective_iff.mpr (fun _ _ ↦ UInt8.toNat_inj.mp) hdigits

namespace Alu

/-! ### Sweeps -/

/-- The outputs of an operation that is done with the items of a list in order, each with the flags
that the one before left. -/
def sweep {α : Type} (operation : α → Flags → AluOutput) (flags : Flags) : List α → List AluOutput
  | [] => []
  | item :: rest => operation item flags :: sweep operation (operation item flags).flags rest

/-- The bytes of outputs. -/
def values (outputs : List AluOutput) : List UInt8 := outputs.map (·.value)

/-- The flags that outputs leave, which are those from before if there is no output. -/
def flagsAfter (flags : Flags) (outputs : List AluOutput) : Flags :=
  (outputs.map (·.flags)).getLastD flags

variable {α : Type} {operation : α → Flags → AluOutput} {flags : Flags}

@[simp] theorem values_nil : values [] = [] := rfl

@[simp] theorem values_cons (o : AluOutput) (outputs : List AluOutput) :
    values (o :: outputs) = o.value :: values outputs := rfl

@[simp] theorem values_concat (outputs : List AluOutput) (o : AluOutput) :
    values (outputs ++ [o]) = values outputs ++ [o.value] := List.map_append

@[simp] theorem length_values (outputs : List AluOutput) :
    (values outputs).length = outputs.length := List.length_map ..

@[simp] theorem flagsAfter_nil : flagsAfter flags [] = flags := rfl

@[simp] theorem flagsAfter_cons (o : AluOutput) (outputs : List AluOutput) :
    flagsAfter flags (o :: outputs) = flagsAfter o.flags outputs := by
  rw [flagsAfter, flagsAfter, List.map_cons, List.getLastD_cons]

@[simp] theorem flagsAfter_concat (o : AluOutput) (outputs : List AluOutput) :
    flagsAfter flags (outputs ++ [o]) = o.flags := by
  rw [flagsAfter, List.map_append, List.map_singleton, List.getLastD_concat]

@[simp] theorem length_sweep (items : List α) :
    (sweep operation flags items).length = items.length := by
  induction items generalizing flags with
  | nil => rfl
  | cons item rest ih => rw [sweep, List.length_cons, List.length_cons, ih]

/-- The last item of a sweep has the flags that the others leave. -/
theorem sweep_concat (items : List α) (item : α) : sweep operation flags (items ++ [item]) =
    sweep operation flags items ++
      [operation item (flagsAfter flags (sweep operation flags items))] := by
  induction items generalizing flags with
  | nil => rfl
  | cons first rest ih => rw [List.cons_append, sweep, sweep, ih, flagsAfter_cons, List.cons_append]

/-- What holds of the flags before an operation and still holds after it, holds all along a sweep,
and so does what the operation makes of it in its output. -/
theorem sweep_invariant {I : Flags → Prop} {P : AluOutput → Prop} (hflags : I flags)
    (h : ∀ item flags, I flags → P (operation item flags) ∧ I (operation item flags).flags)
    (items : List α) : (∀ o ∈ sweep operation flags items, P o) ∧
      I (flagsAfter flags (sweep operation flags items)) := by
  induction items generalizing flags with
  | nil => exact ⟨fun o ho ↦ absurd ho List.not_mem_nil, hflags⟩
  | cons item rest ih =>
    obtain ⟨hoperation, hkept⟩ := h item flags hflags
    obtain ⟨hrest, hlast⟩ := ih hkept
    rw [sweep, flagsAfter_cons]
    exact ⟨List.forall_mem_cons.mpr ⟨hoperation, hrest⟩, hlast⟩

end Alu

end Mcs8
