/-!
# Lines

A text is cut into lines at its line feeds; a text without any is one line.
-/

namespace Formula.Text

/-- The lines of a text, without the line feeds between them. -/
def lines : List Char → List (List Char)
  | [] => [[]]
  | c :: rest =>
    if c = '\n' then [] :: lines rest
    else
      let ls := lines rest
      (c :: ls.headD []) :: ls.tail

/-- A text has at least one line. -/
theorem lines_ne_nil (text : List Char) : lines text ≠ [] := by
  cases text with
  | nil => simp [lines]
  | cons c rest =>
    simp only [lines]
    split <;> simp

theorem headD_cons_tail_lines (text : List Char) :
    (lines text).headD [] :: (lines text).tail = lines text := by
  cases h : lines text with
  | nil => exact absurd h (lines_ne_nil text)
  | cons l ls => rfl

end Formula.Text
