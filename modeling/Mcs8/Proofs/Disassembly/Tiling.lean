import Mathlib.Algebra.Ring.Nat
import Mathlib.Tactic.Common
import Mcs8.Disassembly

/-!
# The lines of a disassembly tile the block

What a block begins with is settled by its first bytes: an instruction if all its bytes are there,
and a data byte otherwise (`ListingItem.inBytes`). A disassembly consists of that line and of the
disassembly of what the line leaves (`disassemble_of_ne_nil`), and so its lines cover the block from
end to end. A block that ends with a line begins with the same item (`ListingItem.inBytes_take`), for
an instruction keeps its bytes and a data byte does not find the missing ones. So a cut between two
lines changes nothing, which is the rest of `disassemble_tiles`.
-/

namespace Mcs8

/-! ### The beginning of a block -/

/-- The instruction that bytes begin with, with 0 for the bytes that are missing. -/
def Instruction.inBytes (bytes : List UInt8) : Instruction :=
  .decode (bytes[0]?.getD 0) (bytes[1]?.getD 0) (bytes[2]?.getD 0)

namespace ListingItem

theorem length_pos (item : ListingItem) : 0 < item.length := by
  cases item with
  | instruction i => exact i.operation.length_pos
  | data _ => exact Nat.one_pos

/-- What bytes begin with: an instruction, or its opcode if it is longer than they are. -/
def inBytes (bytes : List UInt8) : ListingItem :=
  let i := Instruction.inBytes bytes
  if i.operation.length ≤ bytes.length then instruction i else data i.toDescriptor

variable {bytes : List UInt8}

theorem inBytes_eq_instruction {opcode second third : UInt8} (hopcode : bytes[0]? = some opcode)
    (hlength : (decode opcode).operation.length ≤ bytes.length)
    (hsecond : 2 ≤ (decode opcode).operation.length → bytes[1]? = some second)
    (hthird : 3 ≤ (decode opcode).operation.length → bytes[2]? = some third) :
    inBytes bytes = instruction (.decode opcode second third) := by
  have hi : Instruction.inBytes bytes = .decode opcode second third := by
    rw [Instruction.inBytes, hopcode]
    refine Instruction.decode_congr (fun htwo ↦ ?_) fun hthree ↦ ?_
    · rw [hsecond htwo]
      rfl
    · rw [hthird hthree]
      rfl
  rw [inBytes, hi]
  exact if_pos hlength

theorem inBytes_eq_data {opcode : UInt8} (hopcode : bytes[0]? = some opcode)
    (hlength : bytes.length < (decode opcode).operation.length) :
    inBytes bytes = data (decode opcode) := by
  have hi : (Instruction.inBytes bytes).toDescriptor = decode opcode := by
    rw [Instruction.inBytes, hopcode]
    rfl
  rw [inBytes, hi]
  exact if_neg (Nat.not_le_of_lt hlength)

theorem eq_inBytes {i : Instruction} (h : inBytes bytes = instruction i) : i = .inBytes bytes := by
  simp only [inBytes] at h
  split at h
  · exact (instruction.inj h).symm
  · contradiction

/-- Whatever bytes begin with, it lies within them. -/
theorem length_inBytes_le (h : bytes ≠ []) : (inBytes bytes).length ≤ bytes.length := by
  rw [inBytes]
  split
  next hle => exact hle
  next => exact List.length_pos_iff.mpr h

/-- What bytes begin with does not depend on those behind it. -/
theorem inBytes_take {k : Nat} (h : bytes ≠ []) (hk : (inBytes bytes).length ≤ k) :
    inBytes (bytes.take k) = inBytes bytes := by
  obtain ⟨opcode, rest, rfl⟩ := List.exists_cons_of_ne_nil h
  have hpos := (inBytes (opcode :: rest)).length_pos
  have hopcode : ((opcode :: rest).take k)[0]? = some opcode := by
    rw [List.getElem?_take_of_lt (by omega)]
    rfl
  by_cases hle : (decode opcode).operation.length ≤ (opcode :: rest).length
  · have hwhole : inBytes (opcode :: rest) = instruction (.inBytes (opcode :: rest)) := if_pos hle
    rw [hwhole] at hk ⊢
    have hbyte (n : Nat) (hn : n < (decode opcode).operation.length) :
        ((opcode :: rest).take k)[n]? = some ((opcode :: rest)[n]?.getD 0) := by
      have hlt : n < (opcode :: rest).length := Nat.lt_of_lt_of_le hn hle
      rw [List.getElem?_take_of_lt (Nat.lt_of_lt_of_le hn hk), List.getElem?_eq_getElem hlt]
      rfl
    refine inBytes_eq_instruction hopcode ?_ (hbyte 1) (hbyte 2)
    rw [List.length_take]
    exact Nat.le_min.mpr ⟨hk, hle⟩
  · have hdata : inBytes (opcode :: rest) = data (decode opcode) :=
      inBytes_eq_data rfl (Nat.lt_of_not_le hle)
    rw [hdata]
    refine inBytes_eq_data hopcode (Nat.lt_of_le_of_lt ?_ (Nat.lt_of_not_le hle))
    exact List.length_take_le' k _

end ListingItem

/-! ### Lines -/

variable {origin : UInt16} {bytes : List UInt8} {before after : List ListingLine}

theorem disassemble_eq_cons {item : ListingItem} {n : Nat} (hitem : .inBytes bytes = item)
    (hlength : item.length = n) (hlines : disassemble origin bytes =
      ⟨origin % addressSpace, item⟩ :: disassemble (origin + .ofNat n) (bytes.drop n)) :
    disassemble origin bytes = ⟨origin % addressSpace, .inBytes bytes⟩ ::
      disassemble (origin + .ofNat (ListingItem.inBytes bytes).length)
        (bytes.drop (ListingItem.inBytes bytes).length) := by
  subst hlength hitem
  exact hlines

/-- A disassembly consists of what the block begins with and the disassembly of what that leaves. -/
theorem disassemble_of_ne_nil (h : bytes ≠ []) :
    disassemble origin bytes = ⟨origin % addressSpace, .inBytes bytes⟩ ::
      disassemble (origin + .ofNat (ListingItem.inBytes bytes).length)
        (bytes.drop (ListingItem.inBytes bytes).length) := by
  obtain ⟨opcode, rest, rfl⟩ := List.exists_cons_of_ne_nil h
  have hlines := disassemble.eq_def origin (opcode :: rest)
  simp only at hlines
  split at hlines
  next hlength =>
    exact disassemble_eq_cons (ListingItem.inBytes_eq_instruction rfl (by simp [hlength])
      (by simp [hlength]) (by simp [hlength])) hlength hlines
  next x rest hlength =>
    exact disassemble_eq_cons (ListingItem.inBytes_eq_instruction rfl (by simp [hlength])
      (fun _ ↦ rfl) (by simp [hlength])) hlength hlines
  next x y rest hlength =>
    exact disassemble_eq_cons (ListingItem.inBytes_eq_instruction rfl (by simp [hlength])
      (fun _ ↦ rfl) (fun _ ↦ rfl)) hlength hlines
  next rest _ _ hone htwo hthree =>
    refine disassemble_eq_cons (ListingItem.inBytes_eq_data rfl ?_) rfl hlines
    -- an instruction whose bytes are all there has been listed above
    by_contra hle
    rw [List.length_cons] at hle
    obtain hlength | hlength | hlength := (decode opcode).operation.length_cases
    · exact hone hlength
    · obtain ⟨x, rest, rfl⟩ := List.exists_cons_of_length_pos (l := rest) (by omega)
      exact htwo x rest hlength rfl
    · obtain ⟨x, rest, rfl⟩ := List.exists_cons_of_length_pos (l := rest) (by omega)
      rw [List.length_cons] at hle
      obtain ⟨y, rest, rfl⟩ := List.exists_cons_of_length_pos (l := rest) (by omega)
      exact hthree x y rest hlength rfl

/-- The number of bytes that lines stand for. -/
def covered (lines : List ListingLine) : Nat := (lines.map (·.item.length)).sum

@[simp] theorem covered_nil : covered [] = 0 := rfl

@[simp] theorem covered_cons (line : ListingLine) (lines : List ListingLine) :
    covered (line :: lines) = line.item.length + covered lines := List.sum_cons

/-- Where a disassembly is cut between two lines, the parts are the disassemblies of the bytes before
and behind. -/
theorem disassemble_append (h : disassemble origin bytes = before ++ after) :
    covered before ≤ bytes.length ∧
      disassemble origin (bytes.take (covered before)) = before ∧
      disassemble (origin + .ofNat (covered before)) (bytes.drop (covered before)) = after := by
  induction before generalizing origin bytes with
  | nil =>
    have hzero : origin + .ofNat 0 = origin := UInt16.add_zero origin
    refine ⟨Nat.zero_le _, rfl, ?_⟩
    rw [covered_nil, hzero, List.drop_zero, h, List.nil_append]
  | cons first before ih =>
    have hne : bytes ≠ [] := by
      rintro rfl
      contradiction
    rw [disassemble_of_ne_nil hne] at h
    obtain ⟨rfl, hrest⟩ := List.cons.inj h
    obtain ⟨hle, htake, hdrop⟩ := ih hrest
    have hfirst := ListingItem.length_inBytes_le hne
    have hpos := (ListingItem.inBytes bytes).length_pos
    rw [List.length_drop] at hle
    have hcovered : covered (⟨origin % addressSpace, .inBytes bytes⟩ :: before) =
        (ListingItem.inBytes bytes).length + covered before := covered_cons _ _
    rw [hcovered]
    refine ⟨by omega, ?_, ?_⟩
    · have hne' : bytes.take ((ListingItem.inBytes bytes).length + covered before) ≠ [] := by
        rw [Ne, List.take_eq_nil_iff, not_or]
        exact ⟨by omega, hne⟩
      have hitem := ListingItem.inBytes_take hne (Nat.le_add_right _ (covered before))
      rw [disassemble_of_ne_nil hne', hitem, List.drop_take, Nat.add_sub_cancel_left, htake]
    · rw [← hdrop, List.drop_drop, UInt16.add_assoc, ← UInt16.ofNat_add]

/-- The line behind a cut shows what the bytes there begin with, and the lines after it are the
disassembly of what it leaves of them. -/
theorem disassemble_split {line : ListingLine}
    (h : disassemble origin bytes = before ++ line :: after) :
    covered before < bytes.length ∧
      line = ⟨(origin + .ofNat (covered before)) % addressSpace,
        .inBytes (bytes.drop (covered before))⟩ ∧
      after = disassemble (origin + .ofNat (covered before + line.item.length))
        (bytes.drop (covered before + line.item.length)) := by
  obtain ⟨-, -, hdrop⟩ := disassemble_append h
  have hne : bytes.drop (covered before) ≠ [] := by
    intro hnil
    rw [hnil] at hdrop
    contradiction
  rw [disassemble_of_ne_nil hne] at hdrop
  obtain ⟨rfl, hafter⟩ := List.cons.inj hdrop
  rw [Ne, List.drop_eq_nil_iff, Nat.not_le] at hne
  refine ⟨hne, rfl, ?_⟩
  rw [← hafter, List.drop_drop, UInt16.ofNat_add, UInt16.add_assoc]

theorem covered_disassemble (origin : UInt16) (bytes : List UInt8) :
    covered (disassemble origin bytes) = bytes.length := by
  obtain ⟨hle, -, hdrop⟩ := disassemble_append (List.append_nil (disassemble origin bytes)).symm
  by_contra hne
  have hbehind : bytes.drop (covered (disassemble origin bytes)) ≠ [] := by
    rw [Ne, List.drop_eq_nil_iff]
    omega
  rw [disassemble_of_ne_nil hbehind] at hdrop
  contradiction

/-- **The lines of a disassembly tile the block.** They have at least one byte each and as many as
the block together. The address of a line is that of its first byte. If the instruction that starts
there ends within the block, the line shows what its bytes, and no others, are decoded to, and
otherwise the opcode as a single data byte. A block that is cut between two lines is listed by the
same lines. -/
theorem disassemble_tiles (origin : UInt16) (bytes : List UInt8) :
    covered (disassemble origin bytes) = bytes.length ∧
    (∀ line ∈ disassemble origin bytes, 1 ≤ line.item.length) ∧
    (∀ before line after, disassemble origin bytes = before ++ line :: after →
      line.address.toNat = (origin.toNat + covered before) % 2 ^ 14 ∧
      ∃ opcode, bytes[covered before]? = some opcode ∧
        ((decode opcode).operation.length ≤ bytes.length - covered before →
          ∀ second third,
            (2 ≤ (decode opcode).operation.length → bytes[covered before + 1]? = some second) →
            (3 ≤ (decode opcode).operation.length → bytes[covered before + 2]? = some third) →
            line.item = .instruction (.decode opcode second third)) ∧
        (bytes.length - covered before < (decode opcode).operation.length →
          line.item = .data (decode opcode) ∧ line.item.length = 1 ∧ line.item.operand = 0 ∧
            after = disassemble (origin + .ofNat (covered before + 1))
              (bytes.drop (covered before + 1)))) ∧
    ∀ before after, disassemble origin bytes = before ++ after →
      disassemble origin (bytes.take (covered before)) = before ∧
        disassemble (origin + .ofNat (covered before)) (bytes.drop (covered before)) = after := by
  refine ⟨covered_disassemble origin bytes, fun line _ ↦ line.item.length_pos,
    fun before line after h ↦ ?_, fun before after h ↦ (disassemble_append h).2⟩
  obtain ⟨hlt, rfl, hafter⟩ := disassemble_split h
  have hopcode : (bytes.drop (covered before))[0]? = some bytes[covered before] := by
    rw [List.getElem?_drop, Nat.add_zero, List.getElem?_eq_getElem hlt]
  refine ⟨?_, bytes[covered before], List.getElem?_eq_getElem hlt, ?_, ?_⟩
  · have hspace : addressSpace.toNat = 16384 := rfl
    rw [UInt16.toNat_mod, UInt16.toNat_add, UInt16.toNat_ofNat', hspace]
    omega
  · intro hle second third hsecond hthird
    refine ListingItem.inBytes_eq_instruction hopcode ?_ ?_ ?_
    · rwa [List.length_drop]
    · rwa [List.getElem?_drop]
    · rwa [List.getElem?_drop]
  · intro hlong
    have hitem : ListingItem.inBytes (bytes.drop (covered before)) =
        .data (decode bytes[covered before]) :=
      ListingItem.inBytes_eq_data hopcode (by rwa [List.length_drop])
    rw [hitem] at hafter ⊢
    exact ⟨rfl, rfl, rfl, hafter⟩

end Mcs8
