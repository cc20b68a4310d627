import Mathlib.Tactic.Common
import Mcs8.Board.Snapshot

/-!
# Operations that can be refused

A host can ask a board for something that cannot be done: to load bytes that do not fit, to look at
or change a byte that is not there, or to take over a snapshot with something missing. Each of these
is refused in exactly the cases in which it cannot be done, and otherwise does what it says and
nothing else (`Edit.Does`).

A refused operation gives an error and no board, so there is nothing that it could leave half done.
Where a board is changed in place, there is. So the operations are written once more as programs
that work on a board in place, one assignment after the other (`Edit.inPlace`): they lead to the
same boards, and when they are refused none of the assignments has been made (`run_inPlace`).
-/

namespace Mcs8

namespace Board

/-- What a board may refuse to do: to load bytes, to change one byte, or to take over a snapshot. -/
inductive Edit where
  | load (bytes : List UInt8) (origin : UInt16)
  | poke (address : UInt16) (value : UInt8)
  | restore (s : Snapshot)

/-- Carry out an edit. -/
def edit (b : Board) : Edit → Except BoardError Board
  | .load bytes origin => b.load bytes origin
  | .poke address value => b.poke address value
  | .restore s => b.restore s

/-- What helps to observe a board is the same. -/
structure ObservedAlike (b after : Board) : Prop where
  breakpoints_eq : after.breakpoints = b.breakpoints
  breakOnNext_eq : after.breakOnNext = b.breakOnNext
  tracing_eq : after.tracing = b.tracing
  trace_eq : after.trace = b.trace
  messageLevel_eq : after.messageLevel = b.messageLevel
  cpu_announces_eq : after.cpu.announces = b.cpu.announces
  ports_announces_eq : after.ports.announces = b.ports.announces

/-- A computation on a board that it changes in place, up to an error. -/
abbrev InPlace := ExceptT BoardError (StateM Board)

/-- Store bytes one after the other from an address on. -/
def storeInPlace (address : Nat) : List UInt8 → InPlace Unit
  | [] => pure ()
  | byte :: rest => do
    modify fun b ↦ { b with memory := b.memory.setIfInBounds address byte }
    storeInPlace (address + 1) rest

namespace Edit

/-- The edit can be done: the addresses exist, and the snapshot is complete. -/
def Fits : Edit → Prop
  | load bytes origin =>
    origin.toNat < memoryCapacity ∧ origin.toNat + bytes.length ≤ memoryCapacity
  | poke address _ => address.toNat < memoryCapacity
  | restore s => s.cpu.isSome ∧ s.ports.isSome ∧ s.memory.size = memoryCapacity

/-- The board `after` is `b` with the edit done and nothing else. -/
def Does (b after : Board) : Edit → Prop
  | load bytes origin =>
    after = { b with memory := after.memory } ∧
      ∀ x, after.memory[x]? =
        if origin.toNat ≤ x ∧ x < origin.toNat + bytes.length then bytes[x - origin.toNat]?
        else b.memory[x]?
  | poke address value =>
    after = { b with memory := after.memory } ∧
      ∀ x, after.memory[x]? = if x = address.toNat then some value else b.memory[x]?
  | restore s =>
    after.snapshot = s ∧ after.cpu.decoded = decode after.cpu.ir ∧ b.ObservedAlike after

/-- Carry out an edit in place. -/
def inPlace : Edit → InPlace Unit
  | load bytes origin =>
    if memoryCapacity ≤ origin.toNat then throw .noSuchAddress
    else if memoryCapacity - origin.toNat < bytes.length then throw .doesNotFit
    else storeInPlace origin.toNat bytes
  | poke address value =>
    if h : address.toNat < memoryCapacity then
      modify fun b ↦ { b with memory := b.memory.set address.toNat value }
    else throw .noSuchAddress
  | restore s =>
    match s.cpu, s.ports with
    | some cpu, some ports =>
      if h : s.memory.size = memoryCapacity then do
        modify fun b ↦ { b with cpu := b.cpu.load cpu }
        modify fun b ↦ { b with ports := b.ports.load ports }
        modify fun b ↦ { b with memory := ⟨s.memory, h⟩ }
        modify fun b ↦ { b with latch := s.latch }
        modify fun b ↦ { b with interrupter := s.interrupter }
        modify fun b ↦ { b with bus := s.bus }
        modify fun b ↦ { b with owner := s.owner }
        modify fun b ↦ { b with readyLevel := s.readyLevel }
        modify fun b ↦ { b with ticks := s.ticks }
      else throw .unusable
    | _, _ => throw .unusable

end Edit

variable {b after final : Board} {bytes later : List UInt8} {origin origin' address : UInt16}
  {value : UInt8} {s : Snapshot} {e : Edit}

/-! ### Memory -/

/-- Bytes that are stored are found from the address on, and any other byte is the old one. -/
theorem getElem?_storeBytes {memory : Vector UInt8 memoryCapacity} {address : Nat}
    {bytes : List UInt8} (h : address + bytes.length ≤ memoryCapacity) (x : Nat) :
    (storeBytes memory address bytes)[x]? =
      if address ≤ x ∧ x < address + bytes.length then bytes[x - address]? else memory[x]? := by
  induction bytes generalizing memory address with
  | nil =>
    rw [storeBytes, if_neg]
    rw [List.length_nil]
    omega
  | cons byte rest ih =>
    rw [List.length_cons] at h ⊢
    rw [storeBytes, ih (by omega), Vector.getElem?_setIfInBounds]
    rcases Nat.lt_trichotomy x address with hlt | rfl | hgt
    · rw [if_neg (by omega), if_neg (by omega), if_neg (by omega)]
    · rw [if_neg (by omega), if_pos rfl, if_pos (by omega), if_pos (by omega), Nat.sub_self,
        List.getElem?_cons_zero]
    · -- behind the first byte the rest is stored
      have hindex : x - address = x - (address + 1) + 1 := by omega
      rw [if_neg (by omega : ¬address = x), hindex, List.getElem?_cons_succ]
      exact if_congr (by omega) rfl rfl

/-! ### Edits -/

theorem edit_of_fits (h : e.Fits) : ∃ after, b.edit e = .ok after ∧ e.Does b after := by
  cases e with
  | load bytes origin =>
    obtain ⟨horigin, hend⟩ := h
    refine ⟨{ b with memory := storeBytes b.memory origin.toNat bytes }, ?_, rfl,
      getElem?_storeBytes hend⟩
    rw [edit, load, if_neg (Nat.not_le.mpr horigin), if_neg (by omega)]
  | poke address value =>
    have haddress : address.toNat < memoryCapacity := h
    refine ⟨{ b with memory := b.memory.set address.toNat value }, dif_pos haddress, rfl,
      fun x ↦ ?_⟩
    exact (Vector.getElem?_set haddress).trans (if_congr eq_comm rfl rfl)
  | restore s =>
    obtain ⟨hcpu, hports, hsize⟩ := h
    obtain ⟨cpu, hcpu⟩ := Option.isSome_iff_exists.mp hcpu
    obtain ⟨ports, hports⟩ := Option.isSome_iff_exists.mp hports
    obtain ⟨_, _, memory, latch, interrupter, bus, owner, readyLevel, ticks⟩ := s
    subst hcpu hports
    exact ⟨_, dif_pos hsize, rfl, rfl, by constructor <;> rfl⟩

theorem fits_of_edit (h : b.edit e = .ok after) : e.Fits := by
  cases e with
  | load bytes origin =>
    rw [edit, load] at h
    split_ifs at h
    constructor <;> omega
  | poke address value =>
    rw [edit, poke] at h
    split_ifs at h with haddress
    exact haddress
  | restore s =>
    rw [edit, restore] at h
    split at h
    next cpu ports hcpu hports =>
      split_ifs at h with hsize
      exact ⟨by rw [hcpu]; rfl, by rw [hports]; rfl, hsize⟩
    next => contradiction

/-- What an edit does leaves no choice. -/
theorem Edit.Does.unique {after' : Board} (h : e.Does b after) (h' : e.Does b after') :
    after = after' := by
  have hmemory (heq : after = { b with memory := after.memory })
      (heq' : after' = { b with memory := after'.memory })
      (hbytes : ∀ x : Nat, after.memory[x]? = after'.memory[x]?) : after = after' := by
    have hsame : after.memory = after'.memory :=
      Vector.ext fun x hx ↦ by
        simpa only [Vector.getElem?_eq_getElem hx, Option.some.injEq] using hbytes x
    rw [heq, heq', hsame]
  cases e with
  | load bytes origin => exact hmemory h.1 h'.1 fun x ↦ (h.2 x).trans (h'.2 x).symm
  | poke address value => exact hmemory h.1 h'.1 fun x ↦ (h.2 x).trans (h'.2 x).symm
  | restore s =>
    obtain ⟨hsaved, hdecoded, hobserved⟩ := h
    obtain ⟨hsaved', hdecoded', hobserved'⟩ := h'
    subst hsaved
    -- what is saved, what is decoded and what is observed make up the whole board
    obtain ⟨⟨state, decoded, announces⟩, ⟨bank, announces'⟩, ⟨memory, hsize⟩, _⟩ := after
    obtain ⟨⟨state', decoded', _⟩, ⟨bank', _⟩, ⟨memory', hsize'⟩, _⟩ := after'
    simp only [snapshot, Snapshot.mk.injEq, Option.some.injEq] at hsaved'
    obtain ⟨rfl, rfl, rfl, rfl, rfl, rfl, rfl, rfl, rfl⟩ := hsaved'
    obtain ⟨rfl, rfl, rfl, rfl, rfl, rfl, rfl⟩ := hobserved
    obtain ⟨rfl, rfl, rfl, rfl, rfl, rfl, rfl⟩ := hobserved'
    simp only at hdecoded hdecoded'
    rw [hdecoded, hdecoded']

/-- An edit gives a board exactly if it fits, and the board with that edit done. -/
theorem edit_eq_ok_iff : b.edit e = .ok after ↔ e.Fits ∧ e.Does b after := by
  constructor
  · intro h
    have hfits := fits_of_edit h
    obtain ⟨after', hok, hdoes⟩ := edit_of_fits (b := b) hfits
    obtain rfl := Except.ok.inj (h.symm.trans hok)
    exact ⟨hfits, hdoes⟩
  · rintro ⟨hfits, hdoes⟩
    obtain ⟨after', hok, hdoes'⟩ := edit_of_fits (b := b) hfits
    rw [hok, hdoes.unique hdoes']

theorem peek_eq_ok_iff : b.peek address = .ok value ↔ b.memory[address.toNat]? = some value := by
  unfold peek
  split_ifs with h
  · rw [Vector.getElem?_eq_getElem h, Except.ok.injEq, Option.some.injEq]
  · rw [Vector.getElem?_eq_none (Nat.le_of_not_lt h)]
    exact iff_of_false nofun nofun

/-! ### Edits in place -/

theorem run_storeInPlace (address : Nat) (bytes : List UInt8) (b : Board) :
    (storeInPlace address bytes).run.run b =
      (.ok (), { b with memory := storeBytes b.memory address bytes }) := by
  induction bytes generalizing address b with
  | nil => rfl
  | cons byte rest ih => exact ih (address + 1) { b with memory := _ }

/-- What an operation reports and what is in the place of the board afterwards. -/
def settled (b : Board) : Except BoardError Board → Except BoardError Unit × Board
  | .ok after => (.ok (), after)
  | .error e => (.error e, b)

theorem run_inPlace (e : Edit) (b : Board) : e.inPlace.run.run b = b.settled (b.edit e) := by
  cases e with
  | load bytes origin =>
    rw [Edit.inPlace, edit, load]
    split_ifs
    · rfl
    · rfl
    · exact run_storeInPlace origin.toNat bytes b
  | poke address value =>
    rw [Edit.inPlace, edit, poke]
    split_ifs <;> rfl
  | restore s =>
    obtain ⟨cpu, ports, _⟩ := s
    cases cpu with
    | none => rfl
    | some cpu =>
      cases ports with
      | none => rfl
      | some ports =>
        rw [Edit.inPlace, edit, restore]
        simp only
        split_ifs <;> rfl

/-- **Operations do what they say or nothing.** Whatever the board and whatever is asked of it:

* an edit gives a board if and only if it fits, and that board has the edit done and nothing else;
* carried out in place it leads to the same board, and if it is refused, to the board as it was;
* of two loads the later one wins exactly where they overlap;
* a byte can be looked at if and only if its address exists, and then it is the one in memory, which
  after a change is the new one. -/
theorem edits_all_or_nothing (b : Board) :
    (∀ e : Edit,
      ((∃ after, b.edit e = .ok after) ↔ e.Fits) ∧
      (∀ after, b.edit e = .ok after → e.Does b after ∧ e.inPlace.run.run b = (.ok (), after)) ∧
      ∀ error, b.edit e = .error error → e.inPlace.run.run b = (.error error, b)) ∧
    (∀ bytes origin later origin' between after, b.edit (.load bytes origin) = .ok between →
      between.edit (.load later origin') = .ok after →
      ∀ x, after.memory[x]? =
        if origin'.toNat ≤ x ∧ x < origin'.toNat + later.length then later[x - origin'.toNat]?
        else if origin.toNat ≤ x ∧ x < origin.toNat + bytes.length then bytes[x - origin.toNat]?
        else b.memory[x]?) ∧
    ∀ address,
      ((∃ value, b.peek address = .ok value) ↔ address.toNat < memoryCapacity) ∧
      (∀ value, b.peek address = .ok value → b.memory[address.toNat]? = some value) ∧
      ∀ value after, b.edit (.poke address value) = .ok after → after.peek address = .ok value := by
  refine ⟨fun e ↦ ⟨⟨?_, ?_⟩, fun after h ↦ ⟨?_, ?_⟩, fun error h ↦ ?_⟩,
    fun bytes origin later origin' between after h h' x ↦ ?_,
    fun address ↦ ⟨⟨?_, fun h ↦ ?_⟩, fun value h ↦ ?_, fun value after h ↦ ?_⟩⟩
  · rintro ⟨after, h⟩
    exact fits_of_edit h
  · intro h
    obtain ⟨after, hok, -⟩ := edit_of_fits (b := b) h
    exact ⟨after, hok⟩
  · exact (edit_eq_ok_iff.mp h).2
  · rw [run_inPlace, h, settled]
  · rw [run_inPlace, h, settled]
  · rw [(edit_eq_ok_iff.mp h').2.2 x, (edit_eq_ok_iff.mp h).2.2 x]
  · rintro ⟨value, h⟩
    exact (Vector.getElem?_eq_some_iff.mp (peek_eq_ok_iff.mp h)).1
  · exact ⟨b.memory[address.toNat], peek_eq_ok_iff.mpr (Vector.getElem?_eq_getElem h)⟩
  · exact peek_eq_ok_iff.mp h
  · rw [peek_eq_ok_iff, (edit_eq_ok_iff.mp h).2.2, if_pos rfl]

/-- Two loads at the end of memory, of which the second one overwrites the last byte of the first
one, and a third one that is a byte too long. -/
theorem loads_at_end : ∃ between after,
    ({} : Board).edit (.load [1, 2, 3] 0x3ffc) = .ok between ∧
      between.edit (.load [9, 8] 0x3ffe) = .ok after ∧
      after.memory[0x3ffd]? = some 2 ∧ after.memory[0x3ffe]? = some 9 ∧
      after.memory[0x3fff]? = some 8 ∧
      after.edit (.load [9, 8, 7] 0x3ffe) = .error .doesNotFit ∧
      (Edit.load [9, 8, 7] 0x3ffe).inPlace.run.run after = (.error .doesNotFit, after) := by
  have hall := edits_all_or_nothing {}
  obtain ⟨between, h⟩ := (hall.1 (.load [1, 2, 3] 0x3ffc)).1.mpr ⟨by decide, by decide⟩
  obtain ⟨after, h'⟩ := ((edits_all_or_nothing between).1 (.load [9, 8] 0x3ffe)).1.mpr
    ⟨by decide, by decide⟩
  have hbytes := hall.2.1 _ _ _ _ between after h h'
  exact ⟨between, after, h, h', (hbytes 0x3ffd).trans rfl, (hbytes 0x3ffe).trans rfl,
    (hbytes 0x3fff).trans rfl, rfl,
    ((edits_all_or_nothing after).1 (.load [9, 8, 7] 0x3ffe)).2.2 _ rfl⟩

end Board

end Mcs8
