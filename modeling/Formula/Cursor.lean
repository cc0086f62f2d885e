import Formula.Alphabet
import Formula.Text.Quoted
import Formula.Text.Slice

/-!
# Cursors

A cursor is a stretch of an input together with the offset of its first character, counted in
characters from the front of the input. Whatever is cut from a cursor keeps its offset in the whole
input, so that a fault found deep inside an expression can be reported where it was written.

Cuts with natural bounds always succeed and are the ones the grammar uses. `Cursor.advance` and
`Cursor.slice` take signed bounds, with which a cut can begin before the front of the input; such a
cut is refused.
-/

namespace Formula

/-- A stretch of an input and the offset of its first character. -/
structure Cursor where
  text : List Char
  start : Nat
  deriving DecidableEq

/-- A text without the blanks in front of it. -/
def trimLeft (text : List Char) : List Char := text.dropWhile isBlank

/-- A text without the blanks behind it. -/
def trimRight (text : List Char) : List Char := (trimLeft text.reverse).reverse

/-- A cut that would begin before the front of the input, at this offset. -/
structure BeforeFront where
  start : Int
  deriving DecidableEq

/-- What is reported of such a cut. -/
def BeforeFront.message (e : BeforeFront) : String :=
  s!"Cursor start must be non-negative, got {e.start}"

namespace Cursor

/-- A cursor at the front of a whole input. -/
def ofString (s : String) : Cursor := ⟨s.toList, 0⟩

/-- A text at a signed offset. -/
def at? (text : List Char) (start : Int) : Except BeforeFront Cursor :=
  match start with
  | .ofNat n => .ok ⟨text, n⟩
  | .negSucc n => .error ⟨.negSucc n⟩

variable (c : Cursor)

def length : Nat := c.text.length

/-- The offset one past the last character. -/
def stop : Nat := c.start + c.length

def isEmpty : Bool := c.text.isEmpty

def first? : Option Char := c.text.head?

def last? : Option Char := c.text.getLast?

/-- The cursor without the blanks around it. -/
def trim : Cursor :=
  let text := trimLeft c.text
  ⟨trimRight text, c.start + (c.length - text.length)⟩

/-- The cursor without its first `n` characters. -/
def drop (n : Nat) : Cursor := ⟨c.text.drop n, c.start + n⟩

/-- The cursor without its last character. -/
def dropLast : Cursor := ⟨c.text.dropLast, c.start⟩

/-- The cursor without its first and last characters, which are a pair of brackets. -/
def interior : Cursor := (c.drop 1).dropLast

/-- Moves on by `count` characters, but not past the end; a negative count keeps that many
characters from the end and moves the offset back. -/
def advance (count : Int) : Except BeforeFront Cursor :=
  let count := min count c.length
  at? (Text.slice c.text count c.length) (c.start + count)

/-- The part from one signed index to another; the first of them moves the offset as it stands. -/
def slice (start stop : Int) : Except BeforeFront Cursor :=
  at? (Text.slice c.text start stop) (c.start + start)

/-- The quoted text and its offset. -/
def describe : String := s!"{String.ofList (Text.quoted c.text)}@{c.start}"

end Cursor

/-! ### Trimming -/

theorem trimLeft_length_le (text : List Char) : (trimLeft text).length ≤ text.length :=
  (List.dropWhile_suffix _).length_le

theorem trimRight_length_le (text : List Char) : (trimRight text).length ≤ text.length := by
  simpa [trimRight] using trimLeft_length_le text.reverse

namespace Cursor

variable {c : Cursor}

@[simp] theorem length_mk (text : List Char) (start : Nat) :
    (Cursor.mk text start).length = text.length := rfl

theorem length_trim_le : c.trim.length ≤ c.length :=
  Nat.le_trans (trimRight_length_le _) (trimLeft_length_le _)

@[simp] theorem length_drop (n : Nat) : (c.drop n).length = c.length - n := by
  simp [drop, length]

@[simp] theorem length_dropLast : c.dropLast.length = c.length - 1 := by
  simp [dropLast, length]

@[simp] theorem length_interior : c.interior.length = c.length - 2 := by
  simp [interior, Nat.sub_sub]

theorem isEmpty_iff : c.isEmpty = true ↔ c.length = 0 := by
  simp [isEmpty, length]

end Cursor

end Formula
