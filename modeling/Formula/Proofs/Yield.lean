import Formula.Proofs.Completeness
import Formula.Proofs.Tokens

/-!
# The yield of a parsed expression

What the tokens of an accepted text say, parentheses left out, is what its expression yields. The
parser finds out by trial which additive operators are signs; the token in front of one tells as
much, because whatever the grammar derives ends with a token that can end an operand, and stands
behind one that cannot (`Derives.yields`).
-/

namespace Formula

open BinaryOperator (symbol)

variable {level : Level} {text : List Char} {t : Expr} {before? : Option Token} {last : Token}
  {rest : List Token}

/-! ### One more token -/

/-- The token in front, if there is one, ends no operand. -/
def OpensOperand (before? : Option Token) : Prop := before?.any Token.endsOperand = false

/-- Parentheses are left out of a yield. -/
theorem yieldOf_parenthesis {c : Char} (h : c = '(' ∨ c = ')') :
    yieldOf before? (.mark c :: rest) = yieldOf (some (.mark c)) rest := by
  rw [yieldOf, if_pos (by simpa using h)]

theorem yieldOf_name (name : List Char) :
    yieldOf before? (.name name :: rest) = .name name :: yieldOf (some (.name name)) rest := by
  rw [yieldOf, if_neg (by simp)]
  rfl

theorem Token.item_of_endsOperand {c : Char} (ends : last.endsOperand = true) :
    (mark c).item (some last) = ((BinaryOperator.ofChar? c).map .operator).getD (.mark c) := by
  rw [item, if_pos (by simpa using ends)]

/-- Behind an operand an operator is a binary one. -/
theorem yieldOf_operator (ends : last.endsOperand = true) (op : BinaryOperator) :
    yieldOf (some last) (.mark op.symbol :: rest) =
      .operator op :: yieldOf (some (.mark op.symbol)) rest := by
  have no_parenthesis :
      ¬ (Token.mark op.symbol = .mark '(' ∨ Token.mark op.symbol = .mark ')') := by
    cases op <;> decide
  rw [yieldOf, if_neg no_parenthesis, Token.item_of_endsOperand ends,
    BinaryOperator.ofChar?_symbol]
  rfl

/-- Where no operand has ended an additive operator is a sign. -/
theorem yieldOf_sign (opens : OpensOperand before?) (sign : Sign) :
    yieldOf before? (.mark sign.symbol :: rest) =
      .sign sign :: yieldOf (some (.mark sign.symbol)) rest := by
  have no_parenthesis :
      ¬ (Token.mark sign.symbol = .mark '(' ∨ Token.mark sign.symbol = .mark ')') := by
    cases sign <;> decide
  have no_operand : ¬ before?.any Token.endsOperand = true := by
    simpa [OpensOperand] using opens
  rw [yieldOf, if_neg no_parenthesis, Token.item, if_neg no_operand, Sign.ofChar?_symbol]

/-- Square brackets and the mark of a conjugate transpose come behind an operand or a name. -/
theorem yieldOf_mark {c : Char} (ends : last.endsOperand = true)
    (mem : c ∈ ['[', ']', transposeMark]) :
    yieldOf (some last) (.mark c :: rest) = .mark c :: yieldOf (some (.mark c)) rest := by
  have one : c = '[' ∨ c = ']' ∨ c = transposeMark := by simpa using mem
  have no_parenthesis : ¬ (Token.mark c = .mark '(' ∨ Token.mark c = .mark ')') := by
    rcases one with rfl | rfl | rfl <;> decide
  have no_operator : BinaryOperator.ofChar? c = none := by
    rcases one with rfl | rfl | rfl <;> rfl
  rw [yieldOf, if_neg no_parenthesis, Token.item_of_endsOperand ends, no_operator]
  rfl

/-! ### Derived texts -/

/-- Behind a token that ends no operand the tokens of the text are read as these items, and the last
of the tokens ends an operand. -/
def Yields (text : List Char) (items : List YieldItem) : Prop :=
  ∃ last : Token, last.endsOperand = true ∧ ∀ before?, OpensOperand before? → ∀ rest,
    yieldOf before? (tokens text ++ rest) = items ++ yieldOf (some last) rest

/-- The left operand ends in front of the operator, so the operator is read as a binary one. -/
theorem Yields.binary {l r : List Char} {left right : List YieldItem} (op : BinaryOperator)
    (hl : Yields l left) (hr : Yields r right) :
    Yields (l ++ op.symbol :: r) (left ++ .operator op :: right) := by
  obtain ⟨last_l, ends_l, reads_l⟩ := hl
  obtain ⟨last_r, ends_r, reads_r⟩ := hr
  have opens_r : OpensOperand (some (.mark op.symbol)) := by cases op <;> rfl
  refine ⟨last_r, ends_r, fun before? opens rest => ?_⟩
  rw [tokens_append_mark op.isMark_symbol, List.append_assoc, reads_l before? opens,
    List.cons_append, yieldOf_operator ends_l, reads_r _ opens_r, List.append_assoc,
    List.cons_append]

/-- The tokens of a derived text are the yield of its tree. -/
theorem Derives.yields (h : Derives level text t) : Yields text t.yield := by
  induction h with
  | @sum _ _ _ _ op _ _ _ ihl ihr => exact ihl.binary op ihr
  | @product _ _ _ _ op _ _ _ ihl ihr => exact ihl.binary op ihr
  | @power _ _ _ _ op _ _ _ ihl ihr => exact ihl.binary op ihr
  | @signed v text t sign blank _ ih =>
    obtain ⟨last, ends, operand⟩ := ih
    have opens_operand : OpensOperand (some (.mark sign.symbol)) := by cases sign <;> rfl
    refine ⟨last, ends, fun before? opens rest => ?_⟩
    rw [tokens_blank_append blank, tokens_cons_mark sign.isMark_symbol, List.cons_append,
      yieldOf_sign opens, operand _ opens_operand, Tree.yield, List.cons_append]
  | @transposed text w t blank _ ih =>
    obtain ⟨last, ends, operand⟩ := ih
    refine ⟨.mark transposeMark, by decide, fun before? opens rest => ?_⟩
    rw [tokens_append_mark isMark_transposeMark, tokens_eq_nil_iff.2 blank, List.append_assoc,
      operand before? opens, List.cons_append, List.nil_append, yieldOf_mark ends (by decide),
      Tree.yield, List.append_assoc, List.singleton_append]
  | @group v text w t before behind _ ih =>
    obtain ⟨last, ends, operand⟩ := ih
    refine ⟨.mark ')', by decide, fun before? opens rest => ?_⟩
    rw [tokens_blank_append before, tokens_cons_mark (by decide), tokens_append_mark (by decide),
      tokens_eq_nil_iff.2 behind, List.cons_append, yieldOf_parenthesis (.inl rfl),
      List.append_assoc, operand (some (.mark '(')) rfl, List.cons_append, List.nil_append,
      yieldOf_parenthesis (.inr rfl)]
  | @applied u name v text w t isName before between behind _ ih =>
    obtain ⟨last, ends, operand⟩ := ih
    have head : tokens (u ++ name ++ v) = [.name name] := by
      rw [tokens_append_blank between, tokens_blank_append before, isName.tokens_eq]
    refine ⟨.mark ']', by decide, fun before? opens rest => ?_⟩
    rw [tokens_append_mark (by decide), head, tokens_append_mark (by decide),
      tokens_eq_nil_iff.2 behind, List.append_assoc, List.singleton_append, yieldOf_name,
      List.cons_append, yieldOf_mark (by rfl) (by decide), List.append_assoc,
      operand (some (.mark '[')) rfl, List.cons_append, List.nil_append,
      yieldOf_mark ends (by decide)]
    simp [Tree.yield]
  | @symbol v name w isName before behind =>
    refine ⟨.name name, rfl, fun before? opens rest => ?_⟩
    rw [tokens_append_blank behind, tokens_blank_append before, isName.tokens_eq,
      List.singleton_append, yieldOf_name]
    simp [Tree.yield]
  | tighter _ _ ih => exact ih

/-- Nothing written in an accepted text is lost, invented, reordered or taken for the wrong kind of
sign: its tokens without the parentheses, each additive operator told by the token in front of it,
are the yield of its expression. -/
theorem yield_parse {text : String} {o : Outcome} (ok : (parse text).result = .ok o) :
    o.expr.yield = yieldOf none (tokens text.toList) := by
  have derives : Derives .additive text.toList o.expr := (written_of_run _ _ _ ok).derives
  obtain ⟨last, -, reads⟩ := derives.yields
  have whole := reads none rfl []
  rw [List.append_nil] at whole
  rw [whole, yieldOf, List.append_nil]

/-- A minus behind a name is binary, and one behind a minus is a sign. -/
theorem yield_parse_signs :
    (parse "a - -b").result =
        .ok (.binary (.leaf ⟨"a", 0⟩) .subtract (.signed .minus (.leaf ⟨"b", 5⟩))) ∧
      [.name ['a'], .operator .subtract, .sign .minus, .name ['b']] =
        yieldOf none (tokens "a - -b".toList) := by
  have ok : (parse "a - -b").result =
      .ok (.binary (.leaf ⟨"a", 0⟩) .subtract (.signed .minus (.leaf ⟨"b", 5⟩))) := by cbv
  exact ⟨ok, yield_parse ok⟩

end Formula
