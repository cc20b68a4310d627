import Mathlib.Tactic.Common
import Mcs8.Document.Library

/-!
# Lawful libraries of documents

The library that is run gives back what it has stored (`library_lawful`): an object made of fields
with different keys has each of them, whatever the order of the keys (`member_ofFields`), and an
array is given back because each of its items is. The laws leave open what is read from other
documents. A library that takes truth values for numbers and loops over anything is lawful too
(`lenient_lawful`).
-/

namespace Mcs8

namespace Document

/-! ### Fields of objects -/

theorem lookup_insertField (key k : String) (value : Document) (fields : List (String × Document)) :
    (insertField key value fields).lookup k = if k = key then some value else fields.lookup k := by
  have hcons (v : Document) (rest : List (String × Document)) (k' : String) :
      ((k', v) :: rest).lookup k = if k = k' then some v else rest.lookup k := by
    by_cases h : k = k'
    · rw [h, List.lookup_cons_self, if_pos rfl]
    · rw [if_neg h, List.lookup_cons, beq_eq_false_iff_ne.mpr h]
  induction fields with
  | nil => exact hcons value [] key
  | cons field rest ih =>
    obtain ⟨k', v⟩ := field
    rw [insertField]
    split
    · exact hcons value _ key
    · split
      next h' =>
        subst h'
        rw [hcons, hcons]
        split <;> rfl
      next h' =>
        rw [hcons, hcons, ih]
        by_cases hk : k = key
        · rw [if_pos hk, if_pos hk, if_neg (hk ▸ h')]
        · rw [if_neg hk, if_neg hk]

theorem lookup_foldl_insertField {fields : List (String × Document)} {k : String} {d : Document}
    (hkeys : (fields.map Prod.fst).Nodup) (h : (k, d) ∈ fields)
    (sorted : List (String × Document)) :
    (fields.foldl (fun sorted (key, value) ↦ insertField key value sorted) sorted).lookup k =
      some d := by
  have hother (rest : List (String × Document)) (hk : k ∉ rest.map Prod.fst)
      (sorted : List (String × Document)) :
      (rest.foldl (fun sorted (key, value) ↦ insertField key value sorted) sorted).lookup k =
        sorted.lookup k := by
    induction rest generalizing sorted with
    | nil => rfl
    | cons field rest ih =>
      rw [List.map_cons, List.mem_cons, not_or] at hk
      rw [List.foldl_cons, ih hk.2, lookup_insertField, if_neg hk.1]
  induction fields generalizing sorted with
  | nil => contradiction
  | cons field rest ih =>
    rw [List.map_cons, List.nodup_cons] at hkeys
    rcases List.mem_cons.mp h with rfl | h
    · rw [List.foldl_cons, hother rest hkeys.1, lookup_insertField, if_pos rfl]
    · exact ih hkeys.2 h _

/-- An object made of fields with different keys has each of them. -/
theorem member_ofFields {fields : List (String × Document)} {k : String} {d : Document}
    (hkeys : (fields.map Prod.fst).Nodup) (h : (k, d) ∈ fields) :
    (ofFields fields).member k = .ok d := by
  rw [ofFields, member, lookup_foldl_insertField hkeys h]

/-! ### Numbers -/

theorem uint8_ofInt_toNat (b : UInt8) : UInt8.ofInt b.toNat = b := by
  have hlt := b.toNat_lt
  rw [UInt8.ofInt, ← UInt8.toNat_inj, UInt8.toNat_ofNat']
  omega

theorem uint16_ofInt_toNat (w : UInt16) : UInt16.ofInt w.toNat = w := by
  have hlt := w.toNat_lt
  rw [UInt16.ofInt, ← UInt16.toNat_inj, UInt16.toNat_ofNat']
  omega

theorem uint64_ofInt_toNat (n : UInt64) : UInt64.ofInt n.toNat = n := by
  have hlt := n.toNat_lt
  rw [UInt64.ofInt, ← UInt64.toNat_inj, UInt64.toNat_ofNat']
  omega

section Stored

variable {α : Type}

theorem numbers_faithful {toInt : α → Int} {ofInt : Int → α}
    (h : ∀ value, ofInt (toInt value) = value) : (numbers toInt ofInt).Faithful :=
  fun value ↦ congrArg Except.ok (h value)

theorem byteNumber_faithful : byteNumber.Faithful := numbers_faithful uint8_ofInt_toNat

theorem wordNumber_faithful : wordNumber.Faithful := numbers_faithful uint16_ofInt_toNat

/-! ### Arrays -/

theorem mapM_get {item : Stored Document α} (h : item.Faithful) (values : List α) :
    (values.map item.put).mapM item.get = .ok values := by
  induction values with
  | nil => rfl
  | cons value values ih =>
    rw [List.map_cons, List.mapM_cons, h value, ih]
    rfl

theorem arrays_faithful {item : Stored Document α} (h : item.Faithful) :
    (arrays item).Faithful := by
  intro values
  show (values.toList.map item.put).toArray.mapM item.get = .ok values
  rw [List.mapM_toArray, mapM_get h]
  rfl

theorem vectors_faithful {item : Stored Document α} (h : item.Faithful) (n : Nat) :
    (vectors item n).Faithful := by
  intro values
  have hlength : (values.toList.map item.put).length = n := by simp
  have htake : (values.toList.map item.put).take n = values.toList.map item.put :=
    List.take_of_length_le (Nat.le_of_eq hlength)
  -- `n` items are read as a vector, which can only be compared through its array
  have hitems (stored : Vector Document n)
      (hstored : stored.toArray = ((values.toList.map item.put).take n).toArray) :
      stored.mapM item.get = .ok values := by
    have hmap : Vector.toArray <$> stored.mapM item.get = .ok values.toArray := by
      rw [Vector.toArray_mapM, hstored, htake, List.mapM_toArray, mapM_get h]
      rfl
    cases hread : stored.mapM item.get with
    | error fault =>
      rw [hread] at hmap
      contradiction
    | ok read =>
      rw [hread] at hmap
      exact congrArg Except.ok (Vector.toArray_inj.mp (Except.ok.inj hmap))
  show (if _ : n ≤ (values.toList.map item.put).length then _ else _) = _
  rw [dif_pos (Nat.le_of_eq hlength.symm)]
  exact hitems _ rfl

end Stored

/-! ### Lawful libraries -/

/-- The library that is run gives back what it has stored. -/
theorem library_lawful : library.Lawful where
  member_object := member_ofFields
  items_list _ := rfl
  bool _ := rfl
  integer := numbers_faithful Int32.ofInt_toInt
  byte := byteNumber_faithful
  word := wordNumber_faithful
  counter := numbers_faithful uint64_ofInt_toNat
  bytes := vectors_faithful byteNumber_faithful
  words := vectors_faithful wordNumber_faithful
  buffer := arrays_faithful byteNumber_faithful

/-- A truth value as the number that it may be taken for. -/
def asNumber : Document → Document
  | .bool b => .number (if b then 1 else 0)
  | d => d

/-- Read truth values as numbers. -/
def Stored.converting {α : Type} (stored : Stored Document α) : Stored Document α :=
  { stored with get d := stored.get (asNumber d) }

/-- A library for trees of data that converts. Truth values are taken for numbers, but not for
counters. A loop goes through the values of an object; over null it ends at once, and over any other
document it has that document as its only item. -/
def lenient : Library Document :=
  { library with
    items
      | .null => .ok []
      | .list items => .ok items
      | .object fields => .ok (fields.map Prod.snd)
      | d => .ok [d]
    integer := library.integer.converting
    byte := byteNumber.converting
    word := wordNumber.converting
    bytes := vectors byteNumber.converting
    words := vectors wordNumber.converting
    buffer := arrays byteNumber.converting }

theorem byteNumber_converting_faithful : byteNumber.converting.Faithful := byteNumber_faithful

theorem wordNumber_converting_faithful : wordNumber.converting.Faithful := wordNumber_faithful

/-- A library that converts gives back what it has stored, too. -/
theorem lenient_lawful : lenient.Lawful where
  member_object := member_ofFields
  items_list _ := rfl
  bool := library_lawful.bool
  integer := library_lawful.integer
  byte := byteNumber_converting_faithful
  word := wordNumber_converting_faithful
  counter := library_lawful.counter
  bytes := vectors_faithful byteNumber_converting_faithful
  words := vectors_faithful wordNumber_converting_faithful
  buffer := arrays_faithful byteNumber_converting_faithful

end Document

end Mcs8
