import Formula.Proofs.Nesting

/-!
# Pieces of a text

Where a text is cut, said by the depth in front of each operator. A text that hides the operators is
one piece (`pieces_eq_nil_iff`); any other is cut at the first operator outside brackets, and then
behind it (`pieces_eq_cons_iff`). An operator outside brackets ends a piece, whatever stands around
it (`pieces_append_operator`), and every piece but the first stands behind such an operator
(`eq_of_pieces_eq`).
-/

namespace Formula

variable {operators : List BinaryOperator} {op : BinaryOperator} {c : Char} {d : Depth}
  {text l r : List Char}

namespace BinaryOperator

theorem symbol_injective {op op' : BinaryOperator} (h : op.symbol = op'.symbol) : op = op' := by
  revert h
  cases op <;> cases op' <;> decide

theorem among?_eq_some_iff : among? operators c = some op ↔ op ∈ operators ∧ op.symbol = c := by
  constructor
  · intro h
    exact ⟨mem_of_among? h, symbol_of_among? h⟩
  · rintro ⟨mem, rfl⟩
    have found : (operators.find? (·.symbol == op.symbol)).isSome :=
      List.find?_isSome.2 ⟨op, mem, by simp⟩
    obtain ⟨op', h⟩ := Option.isSome_iff_exists.1 found
    rw [among?, h, symbol_injective (by simpa using List.find?_some h : op'.symbol = op.symbol)]

end BinaryOperator

open BinaryOperator

theorem operatorAt_eq_some_iff :
    operatorAt (among? operators) d c = some op ↔ d = .zero ∧ op ∈ operators ∧ op.symbol = c := by
  unfold operatorAt
  constructor
  · intro h
    split at h
    · cases h
    · next outside =>
      simp only [Bool.or_eq_true, bne_iff_ne, not_or, not_not] at outside
      exact ⟨outside.2, among?_eq_some_iff.1 h⟩
  · rintro ⟨rfl, mem, rfl⟩
    rw [if_neg (by simp [op.isBracket_symbol])]
    exact among?_eq_some_iff.2 ⟨mem, rfl⟩

/-! ### All operators of a level -/

theorem pieces_cons_operator (mem : op ∈ operators) :
    pieces (among? operators) .zero (op.symbol :: r) =
      ([], (op, (pieces (among? operators) .zero r).1) ::
        (pieces (among? operators) .zero r).2) := by
  have here : operatorAt (among? operators) .zero op.symbol = some op :=
    operatorAt_eq_some_iff.2 ⟨rfl, mem, rfl⟩
  simp only [pieces, here, Depth.after_of_isBracket_eq_false op.isBracket_symbol]

/-- An operator outside brackets ends one piece and begins another. -/
theorem pieces_append_operator (mem : op ∈ operators) (outside : d.through l = .zero) :
    pieces (among? operators) d (l ++ op.symbol :: r) =
      ((pieces (among? operators) d l).1, (pieces (among? operators) d l).2 ++
        (op, (pieces (among? operators) .zero r).1) :: (pieces (among? operators) .zero r).2) := by
  induction l generalizing d with
  | nil =>
    obtain rfl : d = .zero := outside
    exact pieces_cons_operator mem
  | cons c rest ih =>
    simp only [List.cons_append, pieces, ih outside]
    split <;> rfl

/-- A text with no operator outside brackets is one piece. -/
theorem pieces_of_forall (h : ∀ p op q, text = p ++ op.symbol :: q → op ∈ operators →
    d.through p ≠ .zero) : pieces (among? operators) d text = (text, []) := by
  induction text generalizing d with
  | nil => rfl
  | cons c rest ih =>
    -- an operator at the front would stand at depth zero
    have hidden : operatorAt (among? operators) d c = none := by
      rw [Option.eq_none_iff_forall_ne_some]
      intro op here
      obtain ⟨zero, mem, rfl⟩ := operatorAt_eq_some_iff.1 here
      exact h [] op rest rfl mem zero
    have tail : pieces (among? operators) (d.after c) rest = (rest, []) :=
      ih fun p op q eq mem => h (c :: p) op q (by rw [eq, List.cons_append]) mem
    simp only [pieces, hidden, tail]

theorem pieces_of_hides (h : Hides operators text) :
    pieces (among? operators) .zero text = (text, []) :=
  pieces_of_forall h

@[simp] theorem joined_nil (head : List Char) : joined symbol head [] = head := by
  simp [joined]

theorem joined_cons (head piece : List Char) (tail : List (BinaryOperator × List Char)) :
    joined symbol head ((op, piece) :: tail) = head ++ op.symbol :: joined symbol piece tail := by
  simp [joined]

theorem append_joined_cons (before head piece : List Char)
    (tail : List (BinaryOperator × List Char)) :
    before ++ joined symbol head ((op, piece) :: tail) =
      before ++ head ++ [op.symbol] ++ joined symbol piece tail := by
  simp [joined_cons]

theorem joined_append_cons (head piece : List Char) (tail : List (BinaryOperator × List Char)) :
    joined symbol (head ++ op.symbol :: piece) tail = joined symbol head ((op, piece) :: tail) := by
  simp [joined]

theorem joined_cons_head (head : List Char) (tail : List (BinaryOperator × List Char)) :
    joined symbol (c :: head) tail = c :: joined symbol head tail := rfl

theorem joined_pieces_among? :
    joined symbol (pieces (among? operators) d text).1 (pieces (among? operators) d text).2 =
      text :=
  joined_pieces fun _ _ h => symbol_of_among? h

/-- In front of each piece but the first there is an operator of the level outside brackets. -/
theorem eq_of_pieces_eq {before behind : List (BinaryOperator × List Char)} {piece : List Char}
    (h : (pieces (among? operators) d text).2 = before ++ (op, piece) :: behind) :
    op ∈ operators ∧
      d.through (joined symbol (pieces (among? operators) d text).1 before) = .zero ∧
      text = joined symbol (pieces (among? operators) d text).1 before ++
        op.symbol :: joined symbol piece behind := by
  induction text generalizing d before with
  | nil => simp [pieces] at h
  | cons c rest ih =>
    -- the first character either begins a piece or goes on with the head
    simp only [pieces] at h ⊢
    split at h
    · next op' here =>
      obtain ⟨rfl, mem, rfl⟩ := operatorAt_eq_some_iff.1 here
      rw [Depth.after_of_isBracket_eq_false op'.isBracket_symbol] at h
      cases before with
      | nil =>
        obtain ⟨first, rfl⟩ := List.cons.inj h
        obtain ⟨rfl, rfl⟩ := Prod.mk.inj first
        exact ⟨mem, rfl, by rw [joined_pieces_among?]; rfl⟩
      | cons p before =>
        obtain ⟨rfl, tail⟩ := List.cons.inj h
        obtain ⟨mem, outside, eq⟩ := ih tail
        rw [joined_cons, Depth.through_append, Depth.through_cons,
          Depth.after_of_isBracket_eq_false op'.isBracket_symbol]
        exact ⟨mem, outside, by rw [List.nil_append, List.cons_append, ← eq]⟩
    · obtain ⟨mem, outside, eq⟩ := ih h
      rw [joined_cons_head, Depth.through_cons, List.cons_append, ← eq]
      exact ⟨mem, outside, rfl⟩

theorem pieces_eq_nil_iff {head : List Char} :
    pieces (among? operators) .zero text = (head, []) ↔ text = head ∧ Hides operators text := by
  constructor
  · intro cut
    have whole : joined symbol (pieces (among? operators) .zero text).1
        (pieces (among? operators) .zero text).2 = text := joined_pieces_among?
    rw [cut, joined_nil] at whole
    refine ⟨whole.symm, ?_⟩
    rintro p op q rfl mem outside
    rw [pieces_append_operator mem outside] at cut
    simp at cut
  · rintro ⟨rfl, hides⟩
    exact pieces_of_hides hides

/-- The first cut is at the first operator outside brackets, and the others are those of the text
behind it. -/
theorem pieces_eq_cons_iff {head piece : List Char} {tail : List (BinaryOperator × List Char)} :
    pieces (among? operators) .zero text = (head, (op, piece) :: tail) ↔
      op ∈ operators ∧ Depth.zero.through head = .zero ∧ Hides operators head ∧
        ∃ rest, text = head ++ op.symbol :: rest ∧
          pieces (among? operators) .zero rest = (piece, tail) := by
  constructor
  · intro cut
    have first : (pieces (among? operators) .zero text).2 = [] ++ (op, piece) :: tail := by
      rw [cut, List.nil_append]
    obtain ⟨mem, outside, whole⟩ := eq_of_pieces_eq first
    rw [cut, joined_nil] at outside whole
    rw [whole, pieces_append_operator mem outside] at cut
    obtain ⟨head_eq, tail_eq⟩ := Prod.mk.inj cut
    -- the pieces of the head alone make up the head, so there is only one
    have alone : (pieces (among? operators) .zero head).2 = [] := by
      have length := joinedLength_pieces (among? operators) .zero head
      rw [head_eq, joinedLength] at length
      cases parts : (pieces (among? operators) .zero head).2 with
      | nil => rfl
      | cons p tail =>
        rw [parts, tailLength] at length
        omega
    rw [alone, List.nil_append] at tail_eq
    obtain ⟨first_eq, rest_eq⟩ := List.cons.inj tail_eq
    refine ⟨mem, outside, (pieces_eq_nil_iff.1 (Prod.ext head_eq alone)).2, _, whole, ?_⟩
    exact Prod.ext (Prod.mk.inj first_eq).2 rest_eq
  · rintro ⟨mem, outside, hides, rest, rfl, cut⟩
    rw [pieces_append_operator mem outside, pieces_of_hides hides, cut]
    rfl

theorem mem_of_mem_pieces {p : BinaryOperator × List Char}
    (mem : p ∈ (pieces (among? operators) d text).2) : p.1 ∈ operators := by
  obtain ⟨before, behind, eq⟩ := List.append_of_mem mem
  exact (eq_of_pieces_eq eq).1

/-- Behind an operator that a text was cut at, the text is cut as before. -/
theorem pieces_joined_of_pieces_eq {before behind : List (BinaryOperator × List Char)}
    {piece : List Char}
    (h : (pieces (among? operators) d text).2 = before ++ (op, piece) :: behind) :
    pieces (among? operators) .zero (joined symbol piece behind) = (piece, behind) := by
  induction text generalizing d before with
  | nil => simp [pieces] at h
  | cons c rest ih =>
    simp only [pieces] at h
    split at h
    · next op' here =>
      obtain ⟨rfl, -, rfl⟩ := operatorAt_eq_some_iff.1 here
      rw [Depth.after_of_isBracket_eq_false op'.isBracket_symbol] at h
      cases before with
      | nil =>
        obtain ⟨first, rfl⟩ := List.cons.inj h
        obtain ⟨-, rfl⟩ := Prod.mk.inj first
        rw [joined_pieces_among?]
      | cons p before => exact ih (List.cons.inj h).2
    · exact ih h
/-! ### Passing over operators -/

/-- The cut behind some operators that are passed over divides the pieces in front of it from the
rest. -/
theorem scan_natCast (d : Depth) (skip : Nat) (text : List Char) :
    scan (among? operators) d skip text =
      match (pieces (among? operators) d text).2.drop skip with
      | [] => none
      | (op, piece) :: tail =>
        some (joined symbol (pieces (among? operators) d text).1
          ((pieces (among? operators) d text).2.take skip), op, joined symbol piece tail) := by
  induction text generalizing d skip with
  | nil => simp [scan, pieces]
  | cons c rest ih =>
    simp only [scan, pieces]
    split
    · next op here =>
      obtain ⟨rfl, -, rfl⟩ := operatorAt_eq_some_iff.1 here
      cases skip with
      | zero =>
        rw [if_pos (show ((0 : Nat) : Int) = 0 from rfl)]
        simp only [List.drop_zero, List.take_zero, joined_nil, joined_pieces_among?]
      | succ skip =>
        have before : ((skip + 1 : Nat) : Int) - 1 = (skip : Nat) := by omega
        rw [if_neg (by omega), before, ih]
        simp only [List.drop_succ_cons, List.take_succ_cons, joined_cons, List.nil_append]
        cases ((pieces (among? operators) (Depth.zero.after op.symbol) rest).2).drop skip <;> rfl
    · rw [ih]
      cases ((pieces (among? operators) (d.after c) rest).2).drop skip <;> rfl

/-- The first cut divides the first piece from the rest. -/
theorem scan_zero (d : Depth) (text : List Char) :
    scan (among? operators) d 0 text =
      match (pieces (among? operators) d text).2 with
      | [] => none
      | (op, piece) :: tail =>
        some ((pieces (among? operators) d text).1, op, joined symbol piece tail) := by
  simpa using scan_natCast d 0 text

/-- No operator is found in a text that hides them all. -/
theorem findSplit_eq_none_iff {c : Cursor} :
    c.findSplit (among? operators) 0 = none ↔ Hides operators c.text := by
  rw [Cursor.findSplit, scan_zero]
  cases cut : pieces (among? operators) .zero c.text with
  | mk head tail =>
    cases tail with
    | nil =>
      obtain ⟨rfl, hides⟩ := pieces_eq_nil_iff.1 cut
      exact iff_of_true rfl hides
    | cons p tail =>
      obtain ⟨op, piece⟩ := p
      refine iff_of_false (by simp) fun hides => ?_
      simp [pieces_of_hides hides] at cut

/-- The operator that is found is the first one outside brackets. -/
theorem findSplit_eq_some_iff {start : Nat} {left right : Cursor} :
    (Cursor.mk text start).findSplit (among? operators) 0 = some ⟨left, op, right⟩ ↔
      op ∈ operators ∧ Depth.zero.through left.text = .zero ∧ Hides operators left.text ∧
        text = left.text ++ op.symbol :: right.text ∧ left.start = start ∧
        right.start = start + left.text.length + 1 := by
  rw [Cursor.findSplit, scan_zero]
  constructor
  · intro found
    cases cut : pieces (among? operators) .zero text with
    | mk head tail =>
      cases tail with
      | nil => simp [cut] at found
      | cons p tail =>
        obtain ⟨op', piece⟩ := p
        simp only [cut, Option.map_some, Option.some.injEq, Split.mk.injEq] at found
        obtain ⟨rfl, rfl, rfl⟩ := found
        obtain ⟨mem, outside, hides, rest, eq, cut_rest⟩ := pieces_eq_cons_iff.1 cut
        have whole : joined symbol (pieces (among? operators) .zero rest).1
            (pieces (among? operators) .zero rest).2 = rest := joined_pieces_among?
        rw [cut_rest] at whole
        exact ⟨mem, outside, hides, by rw [whole]; exact eq, rfl, rfl⟩
  · rintro ⟨mem, outside, hides, rfl, at_left, at_right⟩
    rw [pieces_append_operator mem outside, pieces_of_hides hides]
    obtain ⟨l, s⟩ := left
    obtain ⟨r, s'⟩ := right
    obtain rfl : s = start := at_left
    obtain rfl : s' = s + l.length + 1 := at_right
    simp only [List.nil_append, joined_pieces_among?, Option.map_some]

end Formula
