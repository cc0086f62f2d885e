import Formula.Parser
import Formula.Report

/-!
# Readings

The parser returns a single tree in which each name stands at its offset. What is handed out is a
reading: an expression and, apart from it, the names in it with their offsets. A reading is put
together from the readings of the parts, whose lists of names are joined from left to right. Taking
an outcome apart agrees with that in each of the ways in which an outcome is made, which are the
simp lemmas on `Outcome.reading`.

`Reading.ofText` is the entry point for whole texts. A failure is handed out as a report, and the
source of the report is the text.
-/

namespace Formula

/-- An expression and the names in it with their offsets, from left to right. -/
structure Reading where
  expr : Expr
  occurrences : List Occurrence
  deriving DecidableEq

namespace Reading

/-- The reading of a name. -/
def symbol (x : Occurrence) : Reading := ⟨.leaf x.name, [x]⟩

/-- The reading of a construct, which has the names of its operand. -/
def wrap (enclosure : Enclosure) (operand : Reading) : Reading :=
  ⟨enclosure.wrap operand.expr, operand.occurrences⟩

/-- The reading of a binary operation: the names of its left operand, then those of its right one. -/
def combine (left : Reading) (op : BinaryOperator) (right : Reading) : Reading :=
  ⟨.binary left.expr op right.expr, left.occurrences ++ right.occurrences⟩

end Reading

namespace Outcome

/-- The expression of an outcome and its names, taken apart. -/
def reading (o : Outcome) : Reading := ⟨o.expr, o.occurrences⟩

@[simp] theorem reading_leaf (x : Occurrence) : reading (.leaf x) = .symbol x := rfl

@[simp] theorem reading_binary (l r : Outcome) (op : BinaryOperator) :
    reading (.binary l op r) = l.reading.combine op r.reading := rfl

@[simp] theorem reading_wrap (enclosure : Enclosure) (o : Outcome) :
    reading (enclosure.wrap o) = o.reading.wrap enclosure := by
  cases enclosure <;> rfl

end Outcome

namespace Reading

/-- Reads a cursor at a level. -/
def ofCursor (level : Level) (c : Cursor) : Run Reading := (run level c).map Outcome.reading

/-- Reads a whole text. -/
def ofText (text : String) : Except Report Reading :=
  (ofCursor .additive (.ofString text)).result.mapError fun f => .ofFailure f (some text)

theorem ofText_eq (text : String) :
    ofText text = match (parse text).result with
      | .ok o => .ok o.reading
      | .error f => .error (.ofFailure f (some text)) := by
  show ((parse text).result.map Outcome.reading).mapError _ = _
  cases (parse text).result <;> rfl

theorem ofText_eq_error_iff {text : String} {r : Report} :
    ofText text = .error r ↔
      ∃ f, (parse text).result = .error f ∧ Report.ofFailure f (some text) = r := by
  rw [ofText_eq]
  cases (parse text).result <;> simp

end Reading

end Formula
