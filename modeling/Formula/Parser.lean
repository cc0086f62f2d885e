import Formula.Parser.Run
import Formula.Parser.Step

/-!
# The parser

An expression is parsed by cutting it up, one level of precedence after another; there are no
tokens. `run` parses a cursor at a level. `chain` parses the operands of a chain of operators that
share a level and folds them to the left.

The additive operators are also signs. Whether one of them ends the operand on its left is found out
by parsing that operand: if it runs out at its right end, the character is a sign and belongs to the
operand, which is then parsed again, widened by the sign and the text behind it.
-/

namespace Formula

/-- A parsed expression, with each name at the offset where it was written. -/
abbrev Outcome := Tree Occurrence

namespace Outcome

/-- The expression alone. -/
def expr (o : Outcome) : Expr := o.map Occurrence.name

/-- The names with their offsets, from left to right. -/
def occurrences (o : Outcome) : List Occurrence := o.leaves

end Outcome

/-- The left operand of a chain, as far as it has been read, and the operator behind it. -/
abbrev Folded := Option (Outcome × BinaryOperator)

/-- Takes one more operand into a chain. -/
def Folded.join (folded : Folded) (operand : Outcome) : Outcome :=
  match folded with
  | none => operand
  | some (left, op) => .binary left op operand

/-- The run of the operand of a chain that ends at the operator `op`: the left operand of `op`, or
the right operand of the operator in front of it. -/
def Folded.asOperand (folded : Folded) (op : BinaryOperator) (cursor : Cursor) (r : Run Outcome) :
    Run Outcome :=
  match folded with
  | none => r.asOperand .left op cursor
  | some (_, before) => r.asOperand .right before cursor

/-- The run of the last operand of a chain. With no operator in front of it, it is no operand but
the whole cursor. -/
def Folded.asLast (folded : Folded) (cursor : Cursor) (r : Run Outcome) : Run Outcome :=
  match folded with
  | none => r
  | some (_, before) => r.asOperand .right before cursor

/-- A cursor widened by a character and the text behind it. -/
def Cursor.widen (c : Cursor) (op : BinaryOperator) (text : List Char) : Cursor :=
  { c with text := c.text ++ op.symbol :: text }

/-- The text behind an operator that stands at the end of a cursor. -/
def Cursor.beyond (c : Cursor) (text : List Char) : Cursor := ⟨text, c.stop + 1⟩

mutual

/-- Parses a cursor at a level. -/
def run (level : Level) (cursor : Cursor) : Run Outcome :=
  let c := cursor.trim
  .visiting level c <|
    if _ : c.length = 0 then .fail .emptyInput c.start
    else
      match _ : level.step c with
      | .fail cause position => .fail cause position
      | .symbol occurrence => .done (.leaf occurrence)
      | .descend next => run next c
      | .enclose enclosure operand =>
        ((run enclosure.operandLevel operand).within enclosure c).map enclosure.wrap
      | .power base op exponent =>
        ((run .transpose base).asOperand .left op base).andThen fun left =>
          ((run .unary exponent).asOperand .right op exponent).map (.binary left op)
      | .chain next head tail => chain next none head tail
termination_by (cursor.length, 2 * level.rank, 0)
decreasing_by
  all_goals
    have le : c.length ≤ cursor.length := Cursor.length_trim_le
    have shrinks := step_shrinks level (Nat.pos_of_ne_zero ‹¬c.length = 0›)
    rw [‹level.step c = _›] at shrinks
    simp only [Step.Shrinks] at shrinks
  · exact Prod.Lex.right' _ le (Prod.Lex.left _ _ (by omega))
  · exact Prod.Lex.left _ _ (by omega)
  · exact Prod.Lex.left _ _ (by omega)
  · exact Prod.Lex.left _ _ (by omega)
  · exact Prod.Lex.right' _ (by omega) (Prod.Lex.left _ _ (by omega))

/-- Parses the operands of a chain of operators, which are left to the level `next`. The operand in
hand is `pending`, and `tail` holds the operators behind it. -/
def chain (next : Level) (folded : Folded) (pending : Cursor) (tail : List Piece) : Run Outcome :=
  match tail with
  | [] => (folded.asLast pending (run next pending)).map folded.join
  | (op, text) :: rest =>
    (folded.asOperand op pending (run next pending)).follow fun
      | .ok operand => chain next (some (folded.join operand, op)) (pending.beyond text) rest
      | .error f =>
        if op.canSign && f.isDangling pending then
          chain next folded (pending.widen op text) rest
        else ⟨[], .error f⟩
termination_by (joinedLength pending.text tail, 2 * next.rank + 1, tail.length)
decreasing_by
  all_goals
    simp only [joinedLength, tailLength, List.length_cons, List.length_append, Cursor.beyond,
      Cursor.widen, Cursor.length]
  · exact Prod.Lex.right' _ (by omega) (Prod.Lex.left _ _ (by omega))
  · exact Prod.Lex.right' _ (by omega) (Prod.Lex.left _ _ (by omega))
  · exact Prod.Lex.left _ _ (by omega)
  · exact Prod.Lex.right' _ (by omega) (Prod.Lex.right _ (by omega))

end

/-! ### Unfolding

One equation for each thing a level can make of its cursor, and two for a chain. -/

section

variable {level : Level} {c : Cursor}

theorem run_of_empty (h : c.trim.length = 0) :
    run level c = .visiting level c.trim (.fail .emptyInput c.trim.start) := by
  rw [run]
  simp [h]

private theorem run_of_nonempty (h : c.trim.length ≠ 0) :
    run level c = .visiting level c.trim (match level.step c.trim with
      | .fail cause position => .fail cause position
      | .symbol occurrence => .done (.leaf occurrence)
      | .descend next => run next c.trim
      | .enclose enclosure operand =>
        ((run enclosure.operandLevel operand).within enclosure c.trim).map enclosure.wrap
      | .power base op exponent =>
        ((run .transpose base).asOperand .left op base).andThen fun left =>
          ((run .unary exponent).asOperand .right op exponent).map (.binary left op)
      | .chain next head tail => chain next none head tail) := by
  rw [run]
  simp only [h, dite_false]
  split <;> simp_all

theorem run_of_fail {cause : Cause} {position : Nat} (h : c.trim.length ≠ 0)
    (hs : level.step c.trim = .fail cause position) :
    run level c = .visiting level c.trim (.fail cause position) := by
  rw [run_of_nonempty h, hs]

theorem run_of_symbol {occurrence : Occurrence} (h : c.trim.length ≠ 0)
    (hs : level.step c.trim = .symbol occurrence) :
    run level c = .visiting level c.trim (.done (.leaf occurrence)) := by
  rw [run_of_nonempty h, hs]

theorem run_of_descend {next : Level} (h : c.trim.length ≠ 0)
    (hs : level.step c.trim = .descend next) :
    run level c = .visiting level c.trim (run next c.trim) := by
  rw [run_of_nonempty h, hs]

theorem run_of_enclose {enclosure : Enclosure} {operand : Cursor} (h : c.trim.length ≠ 0)
    (hs : level.step c.trim = .enclose enclosure operand) :
    run level c = .visiting level c.trim
      (((run enclosure.operandLevel operand).within enclosure c.trim).map enclosure.wrap) := by
  rw [run_of_nonempty h, hs]

theorem run_of_power {base exponent : Cursor} {op : BinaryOperator} (h : c.trim.length ≠ 0)
    (hs : level.step c.trim = .power base op exponent) :
    run level c = .visiting level c.trim
      (((run .transpose base).asOperand .left op base).andThen fun left =>
        ((run .unary exponent).asOperand .right op exponent).map (.binary left op)) := by
  rw [run_of_nonempty h, hs]

theorem run_of_chain {next : Level} {head : Cursor} {tail : List Piece} (h : c.trim.length ≠ 0)
    (hs : level.step c.trim = .chain next head tail) :
    run level c = .visiting level c.trim (chain next none head tail) := by
  rw [run_of_nonempty h, hs]

theorem chain_nil (next : Level) (folded : Folded) (pending : Cursor) :
    chain next folded pending [] =
      (folded.asLast pending (run next pending)).map folded.join := by
  rw [chain]

theorem chain_cons (next : Level) (folded : Folded) (pending : Cursor) (op : BinaryOperator)
    (text : List Char) (rest : List Piece) :
    chain next folded pending ((op, text) :: rest) =
      (folded.asOperand op pending (run next pending)).follow fun
        | .ok operand => chain next (some (folded.join operand, op)) (pending.beyond text) rest
        | .error f =>
          if op.canSign && f.isDangling pending then
            chain next folded (pending.widen op text) rest
          else ⟨[], .error f⟩ := by
  rw [chain]

end

/-- Parses a whole text. -/
def parse (text : String) : Run Outcome := run .additive (.ofString text)

end Formula
