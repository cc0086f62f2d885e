import Formula.Proofs.Completeness
import Formula.Tree.Printer

/-!
# Printing and parsing

What is printed of an expression is a primary, whatever its operators, so it can be parsed at every
level (`Tree.WellNamed.derives_printed`). An expression is given back just when its names can be
written.
-/

namespace Formula

variable {level : Level} {text : List Char} {t u : Expr} {op : BinaryOperator}

/-- A primary is derived from every level. -/
theorem Derives.of_primary (h : Derives .primary text t) : Derives level text t := by
  obtain ⟨o, written, rfl⟩ := h.exists_written 0
  exact (written.loosen (Nat.zero_le _)).derives

theorem IsName.derives (h : IsName text) : Derives .primary text (.leaf (String.ofList text)) := by
  simpa using Derives.symbol h blank_nil blank_nil

theorem Derives.parenthesized (h : Derives .additive text t) :
    Derives .primary ('(' :: (text ++ [')'])) t :=
  .group (v := []) (w := []) blank_nil blank_nil h

/-- Between two primaries any operator makes a sum. -/
theorem Derives.binary {l r : List Char} (op : BinaryOperator) (hl : Derives .primary l t)
    (hr : Derives .primary r u) : Derives .additive (l ++ op.symbol :: r) (.binary t op u) := by
  have sum (mem : op ∈ BinaryOperator.additive) :
      Derives .additive (l ++ op.symbol :: r) (.binary t op u) :=
    .sum mem hl.of_primary hr.of_primary
  have product (mem : op ∈ BinaryOperator.multiplicative) :
      Derives .multiplicative (l ++ op.symbol :: r) (.binary t op u) :=
    .product mem hl.of_primary hr.of_primary
  have power (mem : op ∈ BinaryOperator.powers) :
      Derives .exponential (l ++ op.symbol :: r) (.binary t op u) :=
    .power mem hl.of_primary hr.of_primary
  cases op with
  | add => exact sum (by decide)
  | subtract => exact sum (by decide)
  | multiply => exact .tighter rfl (product (by decide))
  | divide => exact .tighter rfl (product (by decide))
  | exponentiate => exact .tighter rfl (.tighter rfl (power (by decide)))

/-- What is printed of an expression is a primary with that tree. -/
theorem Tree.WellNamed.derives_printed (h : t.WellNamed) : Derives .primary t.printed t := by
  induction t with
  | leaf name => simpa [printed] using IsName.derives h
  | signed s t ih =>
    have operand : Derives .unary (s.symbol :: t.printed) (.signed s t) :=
      .signed (v := []) s blank_nil (ih h).of_primary
    have sum : Derives .additive (s.symbol :: t.printed) (.signed s t) :=
      .tighter rfl (.tighter rfl (.tighter rfl operand))
    exact sum.parenthesized
  | binary l op r ihl ihr =>
    -- the spaces around the operator are blanks at the ends of the operands
    have space : Blank [' '] := by decide
    have left := (ihl h.1).pad blank_nil space
    have right := (ihr h.2).pad space blank_nil
    simpa [printed] using (left.binary op right).parenthesized
  | transposed t ih =>
    have operand : Derives .transpose (t.printed ++ [transposeMark]) (.transposed t) :=
      .transposed blank_nil (ih h)
    have unary : Derives .unary (t.printed ++ [transposeMark]) (.transposed t) :=
      .tighter rfl operand
    have sum : Derives .additive (t.printed ++ [transposeMark]) (.transposed t) :=
      .tighter rfl (.tighter rfl (.tighter rfl unary))
    simpa [printed] using sum.parenthesized
  | applied name t ih =>
    have whole : Derives .primary ([] ++ name.toList ++ [] ++ '[' :: (t.printed ++ ']' :: []))
        (.applied (String.ofList name.toList) t) :=
      .applied h.1 blank_nil blank_nil blank_nil (ih h.2).of_primary
    simpa [printed] using whole

theorem parse_eq_run (text : String) : parse text = run .additive ⟨text.toList, 0⟩ := rfl

/-- An expression can be printed and parsed back just when its names can be written, and then at
every level and offset. This holds of whatever the parser returns. -/
theorem parse_print (t : Expr) :
    ((parse t.print).result.map Outcome.expr = .ok t ↔ t.WellNamed) ∧
    (t.WellNamed → ∀ level start,
      (run level ⟨t.printed, start⟩).result.map Outcome.expr = .ok t) ∧
    ∀ text o, (parse text).result = .ok o →
      o.expr.WellNamed ∧ (parse o.expr.print).result.map Outcome.expr = .ok o.expr := by
  -- one derivation serves every level and every offset
  have at_every_level {t : Expr} (h : t.WellNamed) (level : Level) (start : Nat) :
      (run level ⟨t.printed, start⟩).result.map Outcome.expr = .ok t :=
    map_expr_result_run_iff.2 h.derives_printed.of_primary
  have printed {t : Expr} (h : t.WellNamed) : (parse t.print).result.map Outcome.expr = .ok t := by
    rw [parse_eq_run, Tree.toList_print]
    exact at_every_level h .additive 0
  refine ⟨⟨?_, printed⟩, at_every_level, ?_⟩
  · intro h
    rw [parse_eq_run, Tree.toList_print] at h
    exact (map_expr_result_run_iff.1 h).wellNamed
  · intro text o ok
    have wellNamed := (written_of_run _ _ _ ok).derives.wellNamed
    exact ⟨wellNamed, printed wellNamed⟩

end Formula
