/-!
# The alphabet

The classes of characters that expressions are written with: blanks, the characters of names,
brackets, and the mark of a conjugate transpose. Operators and signs are in `Formula.Operator`. All
classes lie within ASCII; any other character belongs to none of them.
-/

namespace Formula

/-- The blanks, which may stand around a token but not inside a name. -/
def blanks : List Char := [' ', '\t', '\r', '\n']

/-- Whether a character is blank. -/
def isBlank (c : Char) : Bool := blanks.contains c

/-- Whether names may contain a character. -/
def isNameChar (c : Char) : Bool := c.isAlphanum || c == '.'

/-- Whether a character is one of the four brackets. -/
def isBracket (c : Char) : Bool := c == '(' || c == ')' || c == '[' || c == ']'

/-- The postfix mark of a conjugate transpose. -/
def transposeMark : Char := '\x27'

theorem isBlank_iff {c : Char} : isBlank c = true ↔ c = ' ' ∨ c = '\t' ∨ c = '\r' ∨ c = '\n' := by
  simp [isBlank, blanks]

theorem isBracket_iff {c : Char} :
    isBracket c = true ↔ c = '(' ∨ c = ')' ∨ c = '[' ∨ c = ']' := by
  simp [isBracket, or_assoc]

theorem isBlank_eq_false_of_isNameChar {c : Char} (h : isNameChar c = true) :
    isBlank c = false := by
  rw [← Bool.not_eq_true, isBlank_iff]
  rintro (rfl | rfl | rfl | rfl) <;> exact absurd h (by decide)

theorem isBracket_eq_false_of_isNameChar {c : Char} (h : isNameChar c = true) :
    isBracket c = false := by
  rw [← Bool.not_eq_true, isBracket_iff]
  rintro (rfl | rfl | rfl | rfl) <;> exact absurd h (by decide)

end Formula
