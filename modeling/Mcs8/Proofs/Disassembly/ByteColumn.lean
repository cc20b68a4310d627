import Mathlib.Tactic.Common
import Mathlib.Data.List.SplitLengths
import Mcs8.Proofs.Disassembly.Tiling
import Mcs8.Proofs.Text.Meaning

/-!
# The byte column of a listing

A listing is read back from its characters: it is split at its line breaks, and of each line the
column between the address and the instruction is read as bytes (`readByteColumns?`). What is found
are the bytes that the items of the lines tell (`readByteColumns_listing`), for no line has a line
break in it, and the address and the column have the same width on all lines.

A line of a disassembly keeps an opcode and an operand, not the bytes that it covers. An address of 14
bits does not tell the top two bits of its high byte, so where a third byte has one of them set, the
listing shows another byte than the block has (`readByteColumns_disassemble`).
-/

namespace Mcs8

/-! ### Reading a listing -/

/-- The lines of a text, each of which ends with a line break. -/
def textLines (text : String) : List (List Char) := (text.toList.splitOn '\n').dropLast

/-- The column of a line that shows bytes. -/
def byteColumn (line : List Char) : List Char := (line.drop 6).take 10

/-- Read bytes of two digits each, and pass over blanks. -/
def readBytes? : List Char → Option (List UInt8)
  | [] => some []
  | ' ' :: rest => readBytes? rest
  | high :: low :: rest => do
    let n ← readHex? 0 [high, low]
    let bytes ← readBytes? rest
    return .ofNat n :: bytes
  | [_] => none

/-- Read the bytes that a listing shows, line by line. -/
def readByteColumns? (text : String) : Option (List (List UInt8)) :=
  (textLines text).mapM fun line ↦ readBytes? (byteColumn line)

/-! ### Bytes -/

theorem length_hexField_byte (byte : UInt8) : (hexField true false 2 byte.toNat).length = 2 :=
  length_hexField_of_lt true false Nat.two_pos byte.toNat_lt

theorem hexField_byte (byte : UInt8) : ∃ high low, hexField true false 2 byte.toNat = [high, low] ∧
    high ≠ ' ' ∧ readHex? 0 [high, low] = some byte.toNat := by
  obtain ⟨high, low, hfield⟩ := List.length_eq_two.mp (length_hexField_byte byte)
  have hread := readHex_hexField 2 byte.toNat
  rw [hfield] at hread
  refine ⟨high, low, hfield, ?_, hread⟩
  rintro rfl
  contradiction

theorem readBytes_hexField_append (byte : UInt8) {rest : List Char} {bytes : List UInt8}
    (h : readBytes? rest = some bytes) :
    readBytes? (hexField true false 2 byte.toNat ++ rest) = some (byte :: bytes) := by
  obtain ⟨high, low, hfield, hhigh, hread⟩ := hexField_byte byte
  rw [hfield]
  simp [readBytes?, hread, h]

/-- Bytes that are written into a column are read back from it. -/
theorem readBytes_hexBytes (bytes : List UInt8) (k : Nat) :
    readBytes? (hexBytes true false bytes ++ List.replicate k ' ') = some bytes := by
  have hblanks : readBytes? (List.replicate k ' ') = some [] := by
    induction k with
    | zero => rfl
    | succ k ih => rw [List.replicate_succ, readBytes?, ih]
  induction bytes using List.twoStepInduction with
  | nil => exact hblanks
  | singleton byte =>
    rw [hexBytes_singleton]
    exact readBytes_hexField_append byte hblanks
  | cons_cons byte next rest _ ih =>
    rw [hexBytes_cons_cons, List.append_assoc]
    exact readBytes_hexField_append byte (ih next)

theorem length_hexBytes (bytes : List UInt8) :
    (hexBytes true false bytes).length = 3 * bytes.length - 1 := by
  induction bytes using List.twoStepInduction with
  | nil => rfl
  | singleton byte => rw [hexBytes_singleton, length_hexField_byte, List.length_singleton]
  | cons_cons byte next rest _ ih =>
    have hrest : (hexBytes true false (next :: rest)).length = 3 * (next :: rest).length - 1 :=
      ih next
    rw [hexBytes_cons_cons, List.length_append, List.length_cons, hrest, length_hexField_byte]
    simp only [List.length_cons]
    omega

/-! ### Line breaks -/

theorem newline_not_mem_hexField (width n : Nat) : '\n' ∉ hexField true false width n :=
  not_mem_hexField rfl

theorem newline_not_mem_hexBytes (bytes : List UInt8) : '\n' ∉ hexBytes true false bytes := by
  induction bytes using List.twoStepInduction with
  | nil => exact List.not_mem_nil
  | singleton byte =>
    rw [hexBytes_singleton]
    exact newline_not_mem_hexField 2 byte.toNat
  | cons_cons byte next rest _ ih =>
    rw [hexBytes_cons_cons]
    simp [newline_not_mem_hexField, ih]

theorem newline_not_mem_shownNumber (n width : Nat) :
    '\n' ∉ (shownNumber false n width).toList := by
  simp [shownNumber, newline_not_mem_hexField]

namespace Operation

theorem newline_not_mem_printedName (o : Operation) : '\n' ∉ o.printedName.toList := by
  intro hmem
  have hupper := isUpper_of_mem_printedName hmem
  contradiction

theorem newline_not_mem_operandsText (o : Operation) {number : Nat → String}
    (h : ∀ width, '\n' ∉ (number width).toList) : '\n' ∉ (o.operandsText number).toList :=
  o.not_mem_operandsText (by decide) (by decide) (by decide) h

end Operation

/-! ### Lines -/

namespace ListingItem

/-- What a line shows, as printed. -/
def written : ListingItem → String
  | instruction i => i.written false
  | data d => "DB " ++ shownNumber false d.opcode.toNat 2

theorem print_eq {pen : Pen} (h : pen.width = 0) (hleft : pen.alignLeft = false)
    (item : ListingItem) : item.print pen = { pen with text := pen.text ++ item.written } := by
  cases item with
  | instruction i => rw [print, i.print_eq h, hleft, written]
  | data d => rw [print, printData_eq h, hleft, written]

theorem newline_not_mem_written (item : ListingItem) : '\n' ∉ item.written.toList := by
  cases item with
  | instruction i =>
    have hname := i.operation.newline_not_mem_printedName
    have hoperands := i.operation.newline_not_mem_operandsText
      (newline_not_mem_shownNumber i.shownValue)
    simp [written, Instruction.written, hname, hoperands]
  | data d => simp [written, newline_not_mem_shownNumber]

theorem length_shownBytes_le (item : ListingItem) : item.shownBytes.length ≤ 3 := by
  cases item with
  | instruction i => exact List.length_take_le' _ _
  | data d => exact Nat.le_add_left 1 2

end ListingItem

namespace ListingLine

variable (line : ListingLine)

/-- The bytes of a line in their column. -/
def column : List Char :=
  let bytes := hexBytes true false line.item.shownBytes
  bytes ++ List.replicate (10 - bytes.length) ' '

/-- A line as printed, without its end. -/
def written : String :=
  .ofList (hexField true false 4 line.address.toNat) ++ "  " ++ .ofList line.column ++
    line.item.written

/-- A pen that neither fills up the next item nor aligns to the left is left like this by a line. -/
theorem print_eq {pen : Pen} (h : pen.width = 0) (hleft : pen.alignLeft = false) :
    line.print pen =
      { pen with
        text := pen.text ++ line.written ++ "\n"
        fill := ' '
        upper := true
        hex := true } := by
  have hbytes : (line.item.printBytes { upper := true }).text =
      .ofList (hexBytes true false line.item.shownBytes) := by
    rw [ListingItem.printBytes_eq]
    exact String.empty_append
  have haddress : ({ pen with hex := true, upper := true, fill := '0' }.field 4
      line.address.toNat).put "  " =
      { text := pen.text ++ .ofList (hexField true false 4 line.address.toNat) ++ "  "
        fill := '0'
        upper := true
        hex := true } := by
    rw [Pen.field_eq rfl rfl, Pen.put_eq rfl, hleft]
  have hcolumn (text : String) :
      Pen.put { text, width := 10, alignLeft := true, upper := true, hex := true }
        (.ofList (hexBytes true false line.item.shownBytes)) =
      { text := text ++ .ofList line.column, alignLeft := true, upper := true, hex := true } := by
    simp [Pen.put, Pen.padding, column]
  rw [print, hbytes, haddress]
  dsimp only
  rw [hcolumn]
  dsimp only
  rw [ListingItem.print_eq rfl rfl, Pen.put_eq rfl, written, h, hleft]
  simp [String.append_assoc]

theorem newline_not_mem_written : '\n' ∉ line.written.toList := by
  have hcolumn : '\n' ∉ line.column := by
    simp [column, newline_not_mem_hexBytes]
  have hitem := line.item.newline_not_mem_written
  simp [written, hcolumn, hitem, newline_not_mem_hexField]

theorem byteColumn_written : byteColumn line.written.toList = line.column := by
  have haddress : (hexField true false 4 line.address.toNat).length = 4 :=
    length_hexField_of_lt true false (by decide) line.address.toNat_lt
  have hbefore : (hexField true false 4 line.address.toNat ++ [' ', ' ']).length = 6 := by
    rw [List.length_append, haddress]
    rfl
  have hcolumn : line.column.length = 10 := by
    have hle := line.item.length_shownBytes_le
    rw [column, List.length_append, List.length_replicate, length_hexBytes]
    omega
  have hwritten : line.written.toList = hexField true false 4 line.address.toNat ++ [' ', ' '] ++
      (line.column ++ line.item.written.toList) := by
    simp [written]
  rw [byteColumn, hwritten, List.drop_left' hbefore, List.take_left' hcolumn]

theorem readBytes_written :
    readBytes? (byteColumn line.written.toList) = some line.item.shownBytes := by
  rw [byteColumn_written]
  exact readBytes_hexBytes _ _

end ListingLine

/-! ### Listings -/

theorem toList_listing (lines : List ListingLine) :
    (listing lines).toList = lines.flatMap fun line ↦ line.written.toList ++ ['\n'] := by
  -- the pen aligns to the left for the columns alone, so it does not at the end of a line
  have hfold (pen : Pen) (h : pen.width = 0) (hleft : pen.alignLeft = false) :
      (lines.foldl (fun pen line ↦ line.print pen) pen).text.toList =
        pen.text.toList ++ lines.flatMap fun line ↦ line.written.toList ++ ['\n'] := by
    induction lines generalizing pen with
    | nil => simp
    | cons line rest ih =>
      rw [List.foldl_cons, line.print_eq h hleft]
      refine (ih _ ?_ ?_).trans ?_
      · exact h
      · exact hleft
      · simp
  exact hfold {} rfl rfl

theorem textLines_listing (lines : List ListingLine) :
    textLines (listing lines) = lines.map (·.written.toList) := by
  rw [textLines, toList_listing]
  induction lines with
  | nil => rfl
  | cons line rest ih =>
    rw [List.flatMap_cons, List.append_assoc, List.singleton_append,
      List.splitOn_append_cons_self_of_not_mem line.newline_not_mem_written,
      List.dropLast_cons_of_ne_nil (List.splitOn_ne_nil _ _), ih, List.map_cons]

/-- The bytes that are read from a listing are those that its lines tell. -/
theorem readByteColumns_listing (lines : List ListingLine) :
    readByteColumns? (listing lines) = some (lines.map (·.item.shownBytes)) := by
  rw [readByteColumns?, textLines_listing]
  induction lines with
  | nil => rfl
  | cons line rest ih =>
    rw [List.map_cons, List.mapM_cons, line.readBytes_written, ih]
    rfl

/-! ### Listings of disassemblies -/

theorem take_getD_zero {n : Nat} {bytes : List UInt8} (h : n ≤ 3) (hn : n ≤ bytes.length) :
    [bytes[0]?.getD 0, bytes[1]?.getD 0, bytes[2]?.getD 0].take n = bytes.take n := by
  match n, bytes with
  | 0, _ => rfl
  | 1, _ :: _ => rfl
  | 2, _ :: _ :: _ => rfl
  | 3, _ :: _ :: _ :: _ => rfl

/-- What bytes begin with tells those that it covers, but for two bits of a third one. -/
theorem ListingItem.shownBytes_inBytes {bytes : List UInt8} (h : bytes ≠ []) :
    (inBytes bytes).shownBytes = (bytes.take (inBytes bytes).length).modify 2 (· % 64) := by
  rw [inBytes]
  split
  next hlength =>
    rw [shownBytes, Instruction.inBytes, Instruction.shownBytes_decode]
    exact congrArg _ (take_getD_zero (Operation.length_le _) hlength)
  next =>
    obtain ⟨opcode, rest, rfl⟩ := List.exists_cons_of_ne_nil h
    rfl

/-- The bytes that each line of a disassembly covers. -/
def windows (origin : UInt16) (bytes : List UInt8) : List (List UInt8) :=
  ((disassemble origin bytes).map (·.item.length)).splitLengths bytes

theorem flatten_windows (origin : UInt16) (bytes : List UInt8) :
    (windows origin bytes).flatten = bytes :=
  List.flatten_splitLengths _ _ (covered_disassemble origin bytes).ge

theorem map_shownBytes_disassemble (origin : UInt16) (bytes : List UInt8) :
    (disassemble origin bytes).map (·.item.shownBytes) =
      (windows origin bytes).map (·.modify 2 (· % 64)) := by
  rw [windows]
  induction hn : bytes.length using Nat.strongRecOn generalizing origin bytes with
  | ind n ih =>
    by_cases hne : bytes = []
    · subst hne
      rfl
    have hpos := (ListingItem.inBytes bytes).length_pos
    have hbytes := List.length_pos_iff.mpr hne
    have hrest := ih (bytes.length - (ListingItem.inBytes bytes).length) (by omega)
      (origin + .ofNat (ListingItem.inBytes bytes).length)
      (bytes.drop (ListingItem.inBytes bytes).length) List.length_drop
    rw [disassemble_of_ne_nil hne, List.map_cons, List.map_cons, List.splitLengths_cons,
      List.map_cons, hrest, ListingItem.shownBytes_inBytes hne]

theorem flatten_map_eq_iff {α : Type*} {f : List α → List α} (hf : ∀ l, (f l).length = l.length)
    (ls : List (List α)) : (ls.map f).flatten = ls.flatten ↔ ∀ l ∈ ls, f l = l := by
  induction ls with
  | nil => simp
  | cons l ls ih =>
    rw [List.map_cons, List.flatten_cons, List.flatten_cons,
      List.append_eq_append_iff_of_size_eq_left (hf l), ih, List.forall_mem_cons]

theorem modify_mod_eq_iff (bytes : List UInt8) :
    bytes.modify 2 (· % 64) = bytes ↔ ∀ third, bytes[2]? = some third → third < 64 := by
  have hmod (third : UInt8) : third % 64 = third ↔ third < 64 := by
    rw [← UInt8.toNat_inj, UInt8.lt_iff_toNat_lt, UInt8.toNat_mod]
    exact Nat.mod_eq_iff_lt (by decide)
  match bytes with
  | [] | [_] | [_, _] => simp
  | _ :: _ :: third :: _ => simp [hmod]

/-- **What the byte column of a listing shows.** The lines of a disassembly cover the block one
window after the other, and the listing shows on each line the bytes of its window, a third byte
without its top two bits. So the block can be read back from the listing if and only if no line
covers a third byte that has one of them set. -/
theorem readByteColumns_disassemble (origin : UInt16) (bytes : List UInt8) :
    (windows origin bytes).flatten = bytes ∧
    readByteColumns? (listing (disassemble origin bytes)) =
      some ((windows origin bytes).map (·.modify 2 (· % 64))) ∧
    ((readByteColumns? (listing (disassemble origin bytes))).map List.flatten = some bytes ↔
      ∀ window ∈ windows origin bytes, ∀ third, window[2]? = some third → third < 64) := by
  have hread : readByteColumns? (listing (disassemble origin bytes)) =
      some ((windows origin bytes).map (·.modify 2 (· % 64))) := by
    rw [readByteColumns_listing, map_shownBytes_disassemble]
  have hflatten := flatten_map_eq_iff (f := (·.modify 2 (· % 64)))
    (fun _ ↦ List.length_modify _ _ _) (windows origin bytes)
  rw [flatten_windows] at hflatten
  refine ⟨flatten_windows origin bytes, hread, ?_⟩
  rw [hread, Option.map_some, Option.some.injEq, hflatten]
  exact forall₂_congr fun window _ ↦ modify_mod_eq_iff window

/-- The listing of a jump whose third byte is C0h shows 00h in its place. -/
theorem listing_loses_bits :
    ¬ ∀ (origin : UInt16) (bytes : List UInt8),
      (readByteColumns? (listing (disassemble origin bytes))).map List.flatten = some bytes := by
  intro hall
  exact absurd (hall 0 [0x44, 0x59, 0xc0]) (by decide)

end Mcs8
