import Mathlib.Tactic.Common
import Mcs8.Document.Snapshot
import Mcs8.Proofs.Processor.WellFormed

/-!
# Saved boards are read back

A codec reads a value back if reading what it wrote gives that value, whatever value was there
before (`Codec.ReadsBack`). For a record this comes down to its fields: the document has a field for
each key, reading it sets one part of the record, and all parts together are the record
(`Library.Lawful.record_readsBack`). The lists of fields are long, but each entry needs only the
codec of its part. All of it holds for every lawful library of documents.
-/

namespace Mcs8

namespace Document

variable {D α β : Type}

/-- What the codec writes for the value it reads back, over any old value. -/
def Codec.ReadsBack (codec : Codec D α) (value : α) : Prop :=
  ∀ old, codec.read (codec.write value) old = ⟨value, none⟩

theorem Codec.ReadsBack.readNew {codec : Codec D α} {value : α} (h : codec.ReadsBack value)
    (blank : α) : codec.readNew blank (codec.write value) = .ok value := by
  rw [Codec.readNew, h blank]

namespace Stored.Faithful

variable {stored : Stored D β}

/-- A value is read back if it can be told from its code. -/
theorem coded_readsBack (h : stored.Faithful) {code : α → β} {decode : β → α} {value : α}
    (hdecode : decode (code value) = value) : (stored.coded code decode).ReadsBack value := by
  intro old
  simp only [coded, h (code value), hdecode]

theorem readsBack (h : stored.Faithful) (value : β) : stored.codec.ReadsBack value :=
  h.coded_readsBack rfl

end Stored.Faithful

/-! ### Records -/

variable {value : α}

/-- Reading what the field wrote for a value does one thing to every record that has a property, and
keeps the property. -/
def Field.Does (field : Field D α) (value : α) (allowed : α → Prop) (change : α → α) : Prop :=
  ∀ old, allowed old →
    field.read (field.write value) (field.prepare old) = ⟨change old, none⟩ ∧ allowed (change old)

section Part

variable {key : String} {get : α → β} {set : α → β → α} {codec : Codec D β} {allowed : α → Prop}

/-- A field for a part of the record sets the part. -/
theorem Field.part_does_of (hset : ∀ old, allowed old → allowed (set old (get value)))
    (h : ∀ old, allowed old → codec.read (codec.write (get value)) (get old) = ⟨get value, none⟩) :
    (Field.part key get set codec).Does value allowed fun old ↦ set old (get value) := by
  intro old hold
  refine ⟨?_, hset old hold⟩
  show (codec.read (codec.write (get value)) (get old)).map (set old) = _
  rw [h old hold]
  rfl

/-- A part that is read back over any old one is set, whatever is allowed of the rest. -/
theorem Field.part_does (h : codec.ReadsBack (get value))
    (hset : ∀ old, allowed old → allowed (set old (get value)) := by exact fun _ hold ↦ hold) :
    (Field.part key get set codec).Does value allowed fun old ↦ set old (get value) :=
  part_does_of hset fun old _ ↦ h (get old)

end Part

variable {lib : Library D}

theorem Library.readFields_eq {d : D} {fields : List (Field D α)} {allowed : α → Prop}
    {changes : List (α → α)}
    (hmember : ∀ field ∈ fields, lib.member d field.key = .ok (field.write value))
    (hdoes : List.Forall₂ (fun field change ↦ field.Does value allowed change) fields changes)
    {old : α} (hold : allowed old) :
    lib.readFields d fields old =
      ⟨changes.foldl (fun record change ↦ change record) old, none⟩ := by
  induction hdoes generalizing old with
  | nil => rfl
  | cons hfield _ ih =>
    obtain ⟨hkey, hrest⟩ := List.forall_mem_cons.mp hmember
    obtain ⟨hread, hallowed⟩ := hfield old hold
    simp only [readFields, hkey, hread]
    exact ih hrest hallowed

namespace Library.Lawful

/-- A record is read back if its fields have different keys and their changes together make the
record. -/
theorem record_readsBack (h : lib.Lawful) {fields : List (Field D α)} {changes : List (α → α)}
    (hkeys : (fields.map Field.key).Nodup)
    (hdoes : List.Forall₂ (fun field change ↦ field.Does value (fun _ ↦ True) change) fields
      changes)
    (hall : ∀ old, changes.foldl (fun record change ↦ change record) old = value) :
    (lib.record fields).ReadsBack value := by
  intro old
  have hmember (field : Field D α) (hfield : field ∈ fields) :
      lib.member ((lib.record fields).write value) field.key = .ok (field.write value) := by
    refine h.member_object ?_ (List.mem_map_of_mem hfield)
    rw [List.map_map]
    exact hkeys
  exact (readFields_eq hmember hdoes trivial).trans (congrArg (Reading.mk · none) (hall old))

theorem coded_readsBack (h : lib.Lawful) {code : α → Nat} {ofField : UInt8 → α}
    (hfield : ofField (.ofNat (code value)) = value) : (lib.coded code ofField).ReadsBack value :=
  h.integer.coded_readsBack ((congrArg ofField (by simp)).trans hfield)

/-! ### The documents of the parts of a board -/

theorem outputRecord_readsBack (h : lib.Lawful) (value : OutputRecord) :
    lib.outputRecord.ReadsBack value :=
  h.record_readsBack (by simp)
    (.cons (Field.part_does (h.integer.readsBack _)) <|
      .cons (Field.part_does (h.byte.readsBack _)) <|
      .cons (Field.part_does (h.counter.readsBack _)) .nil)
    fun _ ↦ rfl

/-- The entries of a record of writes are read one by one behind those that are there. -/
theorem appendRecords_eq (h : lib.Lawful) (records : List OutputRecord) (log : Array OutputRecord) :
    lib.appendRecords (records.map lib.outputRecord.write) log =
      ⟨log ++ records.toArray, none⟩ := by
  induction records generalizing log with
  | nil => simp [appendRecords]
  | cons record records ih =>
    rw [List.map_cons, appendRecords, (h.outputRecord_readsBack record).readNew]
    show lib.appendRecords (records.map lib.outputRecord.write) (log.push record) = _
    rw [ih, List.toArray_cons]
    simp

/-- The record of writes is emptied first, so it becomes what was written. -/
theorem writeLog_does (h : lib.Lawful) (value : PortBank) :
    Field.Does
      { Field.part "writeLog" (·.log) (fun (s : PortBank) log ↦ { s with log }) lib.outputLog with
        prepare := PortBank.clearLog }
      value (fun _ ↦ True) fun old ↦ { old with log := value.log } := by
  intro old _
  refine ⟨?_, trivial⟩
  have hread : lib.outputLog.read (lib.outputLog.write value.log) #[] = ⟨value.log, none⟩ := by
    simp only [outputLog, h.items_list, h.appendRecords_eq]
    simp
  show (lib.outputLog.read (lib.outputLog.write value.log) #[]).map _ = _
  rw [hread]
  rfl

theorem ports_readsBack (h : lib.Lawful) (value : PortBank) : lib.ports.ReadsBack value :=
  h.record_readsBack (by simp)
    (.cons (Field.part_does ((h.bytes 8).readsBack _)) <|
      .cons (Field.part_does ((h.bytes 24).readsBack _)) <|
      .cons (h.writeLog_does value) .nil)
    fun _ ↦ rfl

theorem registers_readsBack (h : lib.Lawful) (value : Scratchpad) :
    lib.registers.ReadsBack value :=
  (h.bytes 7).coded_readsBack rfl

theorem flags_readsBack (h : lib.Lawful) (value : Flags) : lib.flags.ReadsBack value :=
  h.coded_readsBack (by rw [UInt8.ofNat_toNat, Flags.ofByte_toByte])

theorem address_readsBack (h : lib.Lawful) {value : UInt16} (hlt : value.toNat < 16384) :
    lib.address.ReadsBack value := by
  refine h.word.coded_readsBack ?_
  rw [← UInt16.toNat_inj, UInt16.toNat_mod]
  exact Nat.mod_eq_of_lt hlt

theorem stackPointer_readsBack (h : lib.Lawful) (value : Fin 8) :
    lib.stackPointer.ReadsBack value :=
  h.byte.coded_readsBack (by revert value; decide)

theorem returnStack_readsBack (h : lib.Lawful) (value : ReturnStack) :
    lib.returnStack.ReadsBack value :=
  h.record_readsBack (by simp)
    (.cons (Field.part_does ((h.words 8).readsBack _)) <|
      .cons (Field.part_does (h.stackPointer_readsBack _)) .nil)
    fun _ ↦ rfl

theorem synchronizer_readsBack (h : lib.Lawful) (value : Synchronizer) :
    lib.synchronizer.ReadsBack value :=
  h.record_readsBack (by simp)
    (.cons (Field.part_does (h.bool.readsBack _)) <|
      .cons (Field.part_does (h.bool.readsBack _)) <|
      .cons (Field.part_does (h.bool.readsBack _)) <|
      .cons (Field.part_does (h.bool.readsBack _)) .nil)
    fun _ ↦ rfl

/-- A processor is read back if its program counter is an address. -/
theorem processor_readsBack (h : lib.Lawful) {value : ProcessorState}
    (hpc : value.pc.toNat < 16384) : lib.processor.ReadsBack value :=
  h.record_readsBack (by simp [processorFields])
    (.cons (Field.part_does (h.coded_readsBack (TState.ofField_code _))) <|
      .cons (Field.part_does (h.coded_readsBack (CycleKind.ofField_code _))) <|
      .cons (Field.part_does (h.byte.readsBack _)) <|
      .cons (Field.part_does (h.bool.readsBack _)) <|
      .cons (Field.part_does (h.bool.readsBack _)) <|
      .cons (Field.part_does (h.registers_readsBack _)) <|
      .cons (Field.part_does (h.flags_readsBack _)) <|
      .cons (Field.part_does (h.address_readsBack hpc)) <|
      .cons (Field.part_does (h.returnStack_readsBack _)) <|
      .cons (Field.part_does (h.byte.readsBack _)) <|
      .cons (Field.part_does (h.byte.readsBack _)) <|
      .cons (Field.part_does (h.byte.readsBack _)) <|
      .cons (Field.part_does (h.integer.readsBack _)) <|
      .cons (Field.part_does (h.bool.readsBack _)) <|
      .cons (Field.part_does (h.bool.readsBack _)) <|
      .cons (Field.part_does (h.bool.readsBack _)) <|
      .cons (Field.part_does (h.bool.readsBack _)) <|
      .cons (Field.part_does (h.synchronizer_readsBack _)) <|
      .cons (Field.part_does (h.counter.readsBack _)) .nil)
    fun _ ↦ rfl

theorem busLatch_readsBack (h : lib.Lawful) (value : BusLatch) : lib.busLatch.ReadsBack value :=
  h.record_readsBack (by simp)
    (.cons (Field.part_does (h.byte.readsBack _)) <|
      .cons (Field.part_does (h.byte.readsBack _)) <|
      .cons (Field.part_does (h.bool.readsBack _)) <|
      .cons (Field.part_does (h.coded_readsBack (CycleKind.ofField_code _))) .nil)
    fun _ ↦ rfl

theorem interrupter_readsBack (h : lib.Lawful) (value : Interrupter) :
    lib.interrupter.ReadsBack value :=
  h.record_readsBack (by simp)
    (.cons (Field.part_does (h.bool.readsBack _)) <|
      .cons (Field.part_does (h.byte.readsBack _)) <|
      .cons (Field.part_does (h.byte.readsBack _)) <|
      .cons (Field.part_does (h.bool.readsBack _)) <|
      .cons (Field.part_does (h.byte.readsBack _)) <|
      .cons (Field.part_does (h.bool.readsBack _)) .nil)
    fun _ ↦ rfl

theorem busOwner_readsBack (h : lib.Lawful) (value : BusOwner) : lib.busOwner.ReadsBack value :=
  h.integer.coded_readsBack (by cases value <;> rfl)

theorem memory_readsBack (h : lib.Lawful) {value : Array UInt8}
    (hsize : value.size = memoryCapacity) : lib.memory.ReadsBack value := by
  refine h.buffer.coded_readsBack ?_
  rw [Snapshot.resizeMemory, ← hsize]
  simp

end Library.Lawful

/-- A part that is present is read back into one that is present. -/
theorem present_read {codec : Codec D α} {value : Option α} (hsome : value.isSome = true)
    (h : ∀ part ∈ value, codec.ReadsBack part) {old : Option α} (hold : old.isSome = true) :
    (lib.present codec).read ((lib.present codec).write value) old = ⟨value, none⟩ := by
  obtain ⟨part, rfl⟩ := Option.isSome_iff_exists.mp hsome
  obtain ⟨old, rfl⟩ := Option.isSome_iff_exists.mp hold
  show (codec.read (codec.write part) old).map some = _
  rw [h part rfl old]
  rfl

/-- The snapshot has both its processor and its ports, so that a document can be read into it. -/
def Readable (s : Snapshot) : Prop := s.cpu.isSome = true ∧ s.ports.isSome = true

/-- The snapshot has both its processor and its ports, and the program counter is an address. -/
structure Addressing (s : Snapshot) : Prop where
  readable : Readable s
  pc_lt : ∀ cpu ∈ s.cpu, cpu.pc.toNat < 16384

/-- The snapshot has all its parts in full, and the program counter is an address. -/
structure Complete (s : Snapshot) : Prop extends Addressing s where
  memory_size : s.memory.size = memoryCapacity

/-- The document of a complete snapshot is read back, into any snapshot that can be read into. -/
theorem Complete.read_write {s : Snapshot} (hs : Complete s) (h : lib.Lawful) {old : Snapshot}
    (hold : Readable old) : lib.snapshot.read (lib.snapshot.write s) old = ⟨s, none⟩ := by
  have hmember (field : Field D Snapshot) (hfield : field ∈ lib.snapshotFields) :
      lib.member (lib.snapshot.write s) field.key = .ok (field.write s) := by
    -- the version stands in the document too, but is no field of the snapshot
    refine h.member_object ?_ (List.mem_cons_of_mem _ (List.mem_map_of_mem hfield))
    show ("version" :: lib.snapshotFields.map Field.key).Nodup
    simp [Library.snapshotFields]
  have hdoes : List.Forall₂ (fun field change ↦ field.Does s Readable change)
      lib.snapshotFields _ :=
    .cons (Field.part_does_of (fun _ hold ↦ ⟨hs.readable.1, hold.2⟩) fun _ hold ↦
        present_read hs.readable.1 (fun _ hcpu ↦ h.processor_readsBack (hs.pc_lt _ hcpu)) hold.1) <|
      .cons (Field.part_does_of (fun _ hold ↦ ⟨hold.1, hs.readable.2⟩) fun _ hold ↦
        present_read hs.readable.2 (fun _ _ ↦ h.ports_readsBack _) hold.2) <|
      .cons (Field.part_does (h.memory_readsBack hs.memory_size)) <|
      .cons (Field.part_does (h.busLatch_readsBack _)) <|
      .cons (Field.part_does (h.interrupter_readsBack _)) <|
      .cons (Field.part_does (h.byte.readsBack _)) <|
      .cons (Field.part_does (h.busOwner_readsBack _)) <|
      .cons (Field.part_does (h.bool.readsBack _)) <|
      .cons (Field.part_does (h.counter.readsBack _)) .nil
  exact Library.readFields_eq hmember hdoes hold

theorem complete_snapshot {b : Board} (h : b.cpu.Restorable) : Complete b.snapshot where
  readable := ⟨rfl, rfl⟩
  pc_lt cpu hcpu := by
    obtain rfl := Option.some.inj hcpu
    exact h.pc_lt
  memory_size := b.memory.size_toArray

end Document

end Mcs8
