import Mcs8.Proofs.Board.Reachable
import Mcs8.Proofs.Document.Library

/-!
# Reading makes a saved board complete

What a document is read into may have held anything, and the document may have been written by
hand: its addresses and its memory may be too long. Reading it to the end still gives a complete
snapshot (`complete_of_read`), whatever the library makes of the document, since the fields that
matter bring what they read into range. So writing a snapshot that was read and reading it once more
changes nothing: what reading gives is in normal form (`snapshot_normal_form`).

Each property of what is read depends on one field of the record, which is given by its key. The
other fields are dealt with at once, as those that keep the property (`Library.record_yields`).
-/

namespace Mcs8

namespace Document

variable {D α β : Type} {lib : Library D} {P : α → Prop}

/-- Whatever the codec reads without a fault has the property. -/
def Codec.Yields (codec : Codec D α) (P : α → Prop) : Prop :=
  ∀ ⦃d old value⦄, codec.read d old = ⟨value, none⟩ → P value

/-- Every record has the property once the field has been read without a fault. -/
def Field.Brings (field : Field D α) (P : α → Prop) : Prop :=
  ∀ ⦃d old new⦄, field.read d (field.prepare old) = ⟨new, none⟩ → P new

/-- A record that has the property still has it once the field has been read without a fault. -/
def Field.Keeps (field : Field D α) (P : α → Prop) : Prop :=
  ∀ ⦃d old new⦄, P old → field.read d (field.prepare old) = ⟨new, none⟩ → P new

namespace Field

theorem Brings.keeps {field : Field D α} (h : field.Brings P) : field.Keeps P :=
  fun _ _ _ _ hread ↦ h hread

variable {key : String} {get : α → β} {set : α → β → α} {codec : Codec D β}

/-- A part that is read without a fault is set. -/
theorem exists_of_read_part {d : D} {old new : α}
    (h : (Field.part key get set codec).read d old = ⟨new, none⟩) :
    ∃ part, codec.read d (get old) = ⟨part, none⟩ ∧ new = set old part := by
  change (codec.read d (get old)).map (set old) = _ at h
  cases hpart : codec.read d (get old) with
  | mk part fault =>
    rw [hpart] at h
    obtain ⟨rfl, rfl⟩ := Reading.mk.inj h
    exact ⟨part, rfl, rfl⟩

/-- A field brings what follows from a property of its part. -/
theorem part_brings {R : β → Prop} (hpart : codec.Yields R)
    (h : ∀ old part, R part → P (set old part)) : (Field.part key get set codec).Brings P := by
  intro d old new hnew
  obtain ⟨part, hread, rfl⟩ := exists_of_read_part hnew
  exact h old part (hpart hread)

/-- A property that does not depend on the part is kept. -/
@[simp] theorem part_keeps (h : ∀ old part, P old → P (set old part)) :
    (Field.part key get set codec).Keeps P := by
  intro d old new hold hnew
  obtain ⟨part, -, rfl⟩ := exists_of_read_part hnew
  exact h old part hold

end Field

namespace Library

theorem exists_of_readFields_cons {d : D} {field : Field D α} {rest : List (Field D α)}
    {old new : α} (h : lib.readFields d (field :: rest) old = ⟨new, none⟩) :
    ∃ part next, field.read part (field.prepare old) = ⟨next, none⟩ ∧
      lib.readFields d rest next = ⟨new, none⟩ := by
  simp only [readFields] at h
  split at h
  · exact absurd (congrArg Reading.fault h) (Option.some_ne_none _)
  · split at h
    next hpart => exact ⟨_, _, hpart, h⟩
    next hfaulty =>
      -- a fault would be the result
      exact absurd h (hfaulty new)

/-- A property that every field keeps is kept. -/
theorem keeps_readFields {fields : List (Field D α)} (h : ∀ field ∈ fields, field.Keeps P) {d : D}
    {old new : α} (hold : P old) (hread : lib.readFields d fields old = ⟨new, none⟩) : P new := by
  induction fields generalizing old with
  | nil =>
    obtain ⟨rfl, -⟩ := Reading.mk.inj hread
    exact hold
  | cons field rest ih =>
    obtain ⟨hfield, hrest⟩ := List.forall_mem_cons.mp h
    obtain ⟨_, next, hnext, hread⟩ := exists_of_readFields_cons hread
    exact ih hrest (hfield hold hnext) hread

/-- A record has a property once it is read, if the field with one key brings it and all other
fields keep it. -/
theorem record_yields (key : String) {fields : List (Field D α)}
    (hkey : key ∈ fields.map Field.key)
    (hfields : ∀ field ∈ fields, if field.key = key then field.Brings P else field.Keeps P) :
    (lib.record fields).Yields P := by
  intro d old new hread
  change lib.readFields d fields old = _ at hread
  induction fields generalizing old with
  | nil => contradiction
  | cons field rest ih =>
    obtain ⟨hfield, hrest⟩ := List.forall_mem_cons.mp hfields
    obtain ⟨_, next, hnext, hread⟩ := exists_of_readFields_cons hread
    by_cases h : field.key = key
    · rw [if_pos h] at hfield
      refine keeps_readFields (fun other hother ↦ ?_) (hfield hnext) hread
      have hother := hrest other hother
      split at hother
      · exact hother.keeps
      · exact hother
    · have hkey : key ∈ rest.map Field.key := (List.mem_cons.mp hkey).resolve_left (Ne.symm h)
      exact ih hkey hrest hread

end Library

/-! ### Values in range -/

/-- What is read by its code is what some code stands for. -/
theorem Stored.coded_yields {stored : Stored D β} {code : α → β} {decode : β → α}
    (h : ∀ c, P (decode c)) : (stored.coded code decode).Yields P := by
  intro d old value hread
  simp only [coded] at hread
  split at hread
  · obtain ⟨rfl, -⟩ := Reading.mk.inj hread
    exact h _
  · exact absurd (congrArg Reading.fault hread) (Option.some_ne_none _)

namespace Library

theorem address_yields : lib.address.Yields (·.toNat < 16384) :=
  Stored.coded_yields fun w ↦ by
    rw [UInt16.toNat_mod]
    exact Nat.mod_lt _ (by decide)

theorem memory_yields : lib.memory.Yields (·.size = memoryCapacity) :=
  Stored.coded_yields fun bytes ↦ by
    rw [Snapshot.resizeMemory, Array.size_append, Array.size_replicate]
    simp
    omega

/-- A part that may be missing is read only if it is there, and then by its own codec. -/
theorem present_yields {codec : Codec D α} (h : codec.Yields P) :
    (lib.present codec).Yields fun value ↦ value.isSome = true ∧ ∀ part ∈ value, P part := by
  intro d old value hread
  cases old with
  | none => exact absurd (congrArg Reading.fault hread) (Option.some_ne_none _)
  | some before =>
    have hvalue : some (codec.read d before).value = value := congrArg Reading.value hread
    have hfault : (codec.read d before).fault = none := congrArg Reading.fault hread
    subst hvalue
    refine ⟨rfl, fun part hpart ↦ ?_⟩
    obtain rfl := Option.some.inj hpart
    exact h (congrArg (Reading.mk _) hfault)

/-- The program counter that is read is an address. -/
theorem processor_yields : lib.processor.Yields (·.pc.toNat < 16384) :=
  record_yields "PC" (by simp [processorFields]) <| by
    -- the other fields set other parts, which leaves the one with the key
    simpa [processorFields] using Field.part_brings address_yields fun _ _ h ↦ h

/-- The processor that is read is there, and its program counter is an address. -/
theorem snapshot_yields_cpu :
    lib.snapshot.Yields fun s ↦ s.cpu.isSome = true ∧ ∀ cpu ∈ s.cpu, cpu.pc.toNat < 16384 :=
  record_yields "cpu" (by simp [snapshotFields]) <| by
    simpa [snapshotFields] using Field.part_brings (present_yields processor_yields) fun _ _ h ↦ h

theorem snapshot_yields_ports : lib.snapshot.Yields fun s ↦ s.ports.isSome = true :=
  record_yields "ports" (by simp [snapshotFields]) <| by
    have hports : lib.ports.Yields fun _ ↦ True := fun _ _ _ _ ↦ trivial
    simpa [snapshotFields] using Field.part_brings (present_yields hports) fun _ _ h ↦ h.1

theorem snapshot_yields_memory : lib.snapshot.Yields fun s ↦ s.memory.size = memoryCapacity :=
  record_yields "memory" (by simp [snapshotFields]) <| by
    simpa [snapshotFields] using Field.part_brings memory_yields fun _ _ h ↦ h

end Library

/-- What is read from a document is complete. -/
theorem complete_of_read {d : D} {old s : Snapshot} (h : lib.snapshot.read d old = ⟨s, none⟩) :
    Complete s := by
  obtain ⟨hcpu, hpc⟩ := Library.snapshot_yields_cpu h
  exact ⟨⟨⟨hcpu, Library.snapshot_yields_ports h⟩, hpc⟩, Library.snapshot_yields_memory h⟩

/-- **Reading undoes writing, and what was read is in normal form.** With any library that gives
back what it has stored, a complete snapshot is read back from its document, whatever was in the
snapshot that it is read into. The snapshots of reachable boards are complete, and so is all that
can be read from any document: writing it and reading it again gives the same. -/
theorem snapshot_normal_form (h : lib.Lawful) :
    (∀ s old, Complete s → Readable old →
      lib.snapshot.read (lib.snapshot.write s) old = ⟨s, none⟩) ∧
    (∀ b : Board, b.Reachable → ∀ actions, Complete (b.performAll actions).snapshot) ∧
    ∀ d old s, lib.snapshot.read d old = ⟨s, none⟩ →
      Complete s ∧
        ∀ other, Readable other →
          lib.snapshot.read (lib.snapshot.write s) other = ⟨s, none⟩ := by
  refine ⟨fun s old hs hold ↦ hs.read_write h hold, fun b hb actions ↦ ?_, fun d old s hread ↦ ?_⟩
  · exact complete_snapshot
      (Board.restorable_performAll hb.consistent.wellFormed.toRestorable actions)
  · have hs : Complete s := complete_of_read hread
    exact ⟨hs, fun other hother ↦ hs.read_write h hother⟩

/-- The object with one more field, or with another value for one of its keys. -/
def withField (d : Document) (key : String) (value : Document) : Document :=
  match d with
  | .object fields => .object (insertField key value fields)
  | _ => d

/-- A document with a program counter beyond the addresses and a memory of three bytes. Truth values
stand for some of the numbers, and the record of writes is null. -/
def outOfRange : Document :=
  (snapshot.write { cpu := some { pc := 0xffff }, memory := #[] })
    |>.withField "memory" (.list [.number 1, .bool true, .number 3])
    |>.withField "driver" (.bool true)
    |>.withField "ports" ((ports.write {}).withField "writeLog" .null)

theorem outOfRange_normal_form : ∃ s, lenient.snapshot.read outOfRange {} = ⟨s, none⟩ ∧
    s.cpu = some { pc := 0x3fff } ∧ s.memory.size = memoryCapacity ∧
    lenient.snapshot.read (lenient.snapshot.write s) {} = ⟨s, none⟩ := by
  have hread : (lenient.snapshot.read outOfRange {}).fault = none := by decide +kernel
  have hcpu : (lenient.snapshot.read outOfRange {}).value.cpu = some { pc := 0x3fff } := by
    decide +kernel
  obtain ⟨-, -, hnormal⟩ := snapshot_normal_form lenient_lawful
  obtain ⟨hs, hagain⟩ := hnormal outOfRange {} (lenient.snapshot.read outOfRange {}).value
    (congrArg (Reading.mk _) hread)
  exact ⟨_, congrArg (Reading.mk _) hread, hcpu, hs.memory_size, hagain _ ⟨rfl, rfl⟩⟩

end Document

end Mcs8
