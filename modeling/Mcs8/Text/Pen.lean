/-!
# Formatted text

A pen writes text item by item under a format: a base and a letter case for numbers, a fill
character, an alignment, and a width. The width belongs to the next item alone: that item is
filled up to it, and every item written puts it back to 0. The rest of the format stays until it is
changed.
-/

namespace Mcs8

/-- The text written so far and the format of the next item. -/
structure Pen where
  text : String := ""
  /-- The least number of characters of the next item. -/
  width : Nat := 0
  fill : Char := ' '
  /-- Fill on the right of an item, not on its left. -/
  alignLeft : Bool := false
  /-- Write the letters of a number in upper case. -/
  upper : Bool := false
  /-- Write numbers in base 16, not in base 10. -/
  hex : Bool := false

namespace Pen

/-- The characters that fill an item up to the width. -/
def padding (pen : Pen) (item : String) : String :=
  .ofList (.replicate (pen.width - item.length) pen.fill)

/-- Write an item, filled up to the width. -/
def put (pen : Pen) (item : String) : Pen :=
  { pen with
    text := pen.text ++
      if pen.alignLeft then item ++ pen.padding item else pen.padding item ++ item
    width := 0 }

/-- The digits of a number in the base and letter case of the format. -/
def digits (pen : Pen) (n : Nat) : String :=
  let base := if pen.hex then 16 else 10
  let letter := if pen.upper then Char.toUpper else id
  .ofList ((Nat.toDigits base n).map letter)

/-- Write a number. -/
def number (pen : Pen) (n : Nat) : Pen := pen.put (pen.digits n)

/-- Write a number with a width of its own. -/
def field (pen : Pen) (width n : Nat) : Pen := { pen with width }.number n

/-- Switch to base 10. -/
def inDecimal (pen : Pen) : Pen := { pen with hex := false }

/-- Switch to base 16. -/
def inHex (pen : Pen) : Pen := { pen with hex := true }

/-- Change the fill character. -/
def filledWith (pen : Pen) (fill : Char) : Pen := { pen with fill }

/-- What the pen `after` has written, under the format that this pen had before. -/
def keepFormat (pen after : Pen) : Pen := { pen with text := after.text }

@[simp] theorem width_put (pen : Pen) (item : String) : (pen.put item).width = 0 := rfl

@[simp] theorem text_put_of_width_zero (pen : Pen) (item : String) (h : pen.width = 0) :
    (pen.put item).text = pen.text ++ item := by
  simp [put, padding, h]

end Pen

end Mcs8
