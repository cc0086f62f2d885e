import Formula.Failure
import Formula.Split
import Formula.Parser.Level

/-!
# One step of the parser

What a level makes of a trimmed cursor that is not empty, before any part of it is parsed. A level
fails at once, finds a symbol, leaves the whole cursor to a tighter level, or cuts out the parts
that are to be parsed: the operand of an enclosing construct, the base and exponent of a power, or
the operands of a chain of binary operators.

The parts are shorter than the cursor, or are left to a tighter level (`Step.Shrinks`,
`step_shrinks`).
-/

namespace Formula

/-- A name and the offset of its first character. -/
structure Occurrence where
  name : String
  position : Nat
  deriving DecidableEq

/-- A binary operator and the text between it and the next one of its level. -/
abbrev Piece := BinaryOperator × List Char

/-- What a level makes of its cursor. -/
inductive Step where
  | fail (cause : Cause) (position : Nat)
  | symbol (occurrence : Occurrence)
  | descend (next : Level)
  | enclose (enclosure : Enclosure) (operand : Cursor)
  | power (base : Cursor) (operator : BinaryOperator) (exponent : Cursor)
  | chain (next : Level) (head : Cursor) (tail : List Piece)

namespace Step

/-- The text of the cursor as a name; the first character that no name may contain is a failure. -/
def name (c : Cursor) : Except (Cause × Nat) String :=
  match c.text.dropWhile isNameChar with
  | [] => .ok (String.ofList c.text)
  | bad :: _ =>
    .error (.invalidCharacter bad.toString, c.start + (c.text.takeWhile isNameChar).length)

/-- A chain of operators of one level. -/
def chainOf (next : Level) (operators : List BinaryOperator) (c : Cursor) : Step :=
  let (head, tail) := pieces (BinaryOperator.among? operators) .zero c.text
  chain next ⟨head, c.start⟩ tail

/-- A power splits at its first operator. -/
def ofExponential (c : Cursor) : Step :=
  match c.findSplit (BinaryOperator.among? BinaryOperator.powers) 0 with
  | none => descend .unary
  | some split => power split.left split.tag split.right

/-- A sign stands in front of its operand. -/
def ofUnary (c : Cursor) : Step :=
  match c.first?.bind Sign.ofChar? with
  | none => descend .transpose
  | some sign =>
    let operand := (c.drop 1).trim
    if operand.isEmpty then fail (.missingSignOperand sign) operand.start
    else enclose (.sign sign) operand

/-- The mark of a conjugate transpose stands behind its operand. -/
def ofTranspose (c : Cursor) : Step :=
  if c.last? = some transposeMark then
    let operand := c.dropLast.trim
    if operand.isEmpty then fail .missingTransposeOperand c.start
    else enclose .transpose operand
  else descend .primary

/-- A group reaches from an opening parenthesis to a closing one. -/
def ofGroup (c : Cursor) : Step :=
  if c.length < 2 ∨ c.last? ≠ some ')' then fail (.unmatchedBracket ")") c.stop
  else if c.interior.trim.isEmpty then fail .emptyBrackets c.interior.start
  else enclose .parentheses c.interior

/-- A function is a name and an argument in square brackets. The first opening bracket, which has
`before` characters in front of it, ends the name. -/
def ofFunction (c : Cursor) (before : Nat) : Step :=
  let head : Cursor := ⟨c.text.take before, c.start⟩
  let argument := (c.drop (before + 1)).dropLast
  if c.last? ≠ some ']' then fail (.unmatchedBracket "]") c.stop
  else if head.trim.isEmpty then fail (.invalidCharacter "[") (c.start + before)
  else match name head.trim with
    | .error (cause, position) => fail cause position
    | .ok name =>
      if argument.trim.isEmpty then fail .emptyBrackets argument.start
      else enclose (.function name) argument

def ofSymbol (c : Cursor) : Step :=
  match name c with
  | .error (cause, position) => fail cause position
  | .ok name => symbol ⟨name, c.start⟩

def ofPrimary (c : Cursor) : Step :=
  if c.first? = some '(' then ofGroup c
  else if '[' ∈ c.text then ofFunction c (c.text.takeWhile (· != '[')).length
  else ofSymbol c

end Step

/-- What a level makes of a trimmed cursor that is not empty. -/
def Level.step (level : Level) (c : Cursor) : Step :=
  match level with
  | additive => .chainOf multiplicative BinaryOperator.additive c
  | multiplicative => .chainOf exponential BinaryOperator.multiplicative c
  | exponential => .ofExponential c
  | unary => .ofUnary c
  | transpose => .ofTranspose c
  | primary => .ofPrimary c

/-- The level at which the operand of a construct is parsed. -/
def Enclosure.operandLevel : Enclosure → Level
  | sign _ => .transpose
  | transpose => .primary
  | parentheses => .additive
  | function _ => .additive

/-! ### Parts are smaller than the whole -/

namespace Step

/-- What a step leaves to be parsed is smaller than a cursor of this length at this level. -/
def Shrinks (level : Level) (length : Nat) : Step → Prop
  | fail _ _ => True
  | symbol _ => True
  | descend next => next.rank < level.rank
  | enclose _ operand => operand.length < length
  | power base _ exponent => base.length < length ∧ exponent.length < length
  | chain next head tail => next.rank < level.rank ∧ joinedLength head.text tail = length

theorem shrinks_chainOf {level next : Level} {operators : List BinaryOperator} {c : Cursor}
    (h : next.rank < level.rank) : (chainOf next operators c).Shrinks level c.length :=
  ⟨h, joinedLength_pieces _ _ _⟩

theorem shrinks_ofExponential (c : Cursor) : (ofExponential c).Shrinks .exponential c.length := by
  unfold ofExponential
  split
  · simp [Shrinks, Level.rank]
  · next s h =>
    have := Cursor.length_findSplit h
    exact ⟨by omega, by omega⟩

theorem shrinks_ofUnary {c : Cursor} (h : 0 < c.length) :
    (ofUnary c).Shrinks .unary c.length := by
  have : (c.drop 1).trim.length ≤ (c.drop 1).length := Cursor.length_trim_le
  simp only [Cursor.length_drop] at this
  unfold ofUnary
  split
  · simp [Shrinks, Level.rank]
  · dsimp only
    split
    · trivial
    · simp only [Shrinks]
      omega

theorem shrinks_ofTranspose {c : Cursor} (h : 0 < c.length) :
    (ofTranspose c).Shrinks .transpose c.length := by
  have : c.dropLast.trim.length ≤ c.dropLast.length := Cursor.length_trim_le
  simp only [Cursor.length_dropLast] at this
  unfold ofTranspose
  split
  · dsimp only
    split
    · trivial
    · simp only [Shrinks]
      omega
  · simp [Shrinks, Level.rank]

theorem shrinks_ofPrimary {c : Cursor} (h : 0 < c.length) :
    (ofPrimary c).Shrinks .primary c.length := by
  unfold ofPrimary ofGroup ofFunction ofSymbol
  dsimp only
  repeat' split
  all_goals
    first
    | trivial
    | simp only [Shrinks, Cursor.length_interior, Cursor.length_dropLast, Cursor.length_drop]
      omega

end Step

/-- What a level leaves to be parsed is shorter than the cursor, or left to a tighter level. -/
theorem step_shrinks (level : Level) {c : Cursor} (h : 0 < c.length) :
    (level.step c).Shrinks level c.length := by
  cases level with
  | additive => exact Step.shrinks_chainOf (by decide)
  | multiplicative => exact Step.shrinks_chainOf (by decide)
  | exponential => exact Step.shrinks_ofExponential c
  | unary => exact Step.shrinks_ofUnary h
  | transpose => exact Step.shrinks_ofTranspose h
  | primary => exact Step.shrinks_ofPrimary h

end Formula
