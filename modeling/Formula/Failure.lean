import Formula.Cursor
import Formula.Tree

/-!
# Failures of a parse

A failure has a cause, the offset of its evidence in the input and a trail. The cause says what is
wrong and carries what is needed to say it; its kind, code, message and help text are functions of
the cause. The trail lists the constructs inside which the failure arose, outermost first, each with
the cursor that was being read.
-/

namespace Formula

/-- A side of a binary operator. -/
inductive Side where
  | left
  | right
  deriving DecidableEq

def Side.word : Side → String
  | left => "left"
  | right => "right"

/-! ### Causes -/

/-- What can be wrong with an expression, the particulars left out. -/
inductive Kind where
  | emptyInput
  | missingOperand
  | missingSignOperand
  | missingTransposeOperand
  | unmatchedBracket
  | emptyBrackets
  | invalidCharacter
  deriving DecidableEq

namespace Kind

def all : List Kind :=
  [emptyInput, missingOperand, missingSignOperand, missingTransposeOperand, unmatchedBracket,
    emptyBrackets, invalidCharacter]

/-- The name under which a kind is reported. -/
def name : Kind → String
  | emptyInput => "EMPTY_INPUT"
  | missingOperand => "MISSING_OPERAND"
  | missingSignOperand => "MISSING_UNARY_OPERAND"
  | missingTransposeOperand => "MISSING_CONJUGATE_TRANSPOSE_OPERAND"
  | unmatchedBracket => "UNMATCHED_PARENTHESIS"
  | emptyBrackets => "EMPTY_PARENTHESES"
  | invalidCharacter => "INVALID_CHARACTER"

/-- The code of a kind, which stays the same when a text is reworded. -/
def code : Kind → String
  | emptyInput => "P001"
  | missingOperand => "P002"
  | missingSignOperand => "P003"
  | missingTransposeOperand => "P004"
  | unmatchedBracket => "P005"
  | emptyBrackets => "P006"
  | invalidCharacter => "P007"

/-- A heading for all failures of a kind. -/
def title : Kind → String
  | emptyInput => "Empty input"
  | missingOperand => "Missing operand for binary operator"
  | missingSignOperand => "Missing operand for unary operator"
  | missingTransposeOperand => "Missing operand for conjugate transpose"
  | unmatchedBracket => "Unmatched parenthesis"
  | emptyBrackets => "Empty parentheses"
  | invalidCharacter => "Invalid character in symbol"

end Kind

/-- What is wrong with an expression. -/
inductive Cause where
  | emptyInput
  | missingOperand (side : Side) (operator : BinaryOperator)
  | missingSignOperand (sign : Sign)
  | missingTransposeOperand
  | unmatchedBracket (closing : String)
  | emptyBrackets
  | invalidCharacter (character : String)
  deriving DecidableEq

namespace Cause

def kind : Cause → Kind
  | emptyInput => .emptyInput
  | missingOperand _ _ => .missingOperand
  | missingSignOperand _ => .missingSignOperand
  | missingTransposeOperand => .missingTransposeOperand
  | unmatchedBracket _ => .unmatchedBracket
  | emptyBrackets => .emptyBrackets
  | invalidCharacter _ => .invalidCharacter

/-- The side on which an operand is missing. -/
def side? : Cause → Option Side
  | missingOperand side _ => some side
  | _ => none

/-- The operator that lacks an operand. -/
def operator? : Cause → Option Operator
  | missingOperand _ op => some (.binary op)
  | missingSignOperand s => some (.sign s)
  | _ => none

/-- The character that no symbol may contain. -/
def character? : Cause → Option String
  | invalidCharacter c => some c
  | _ => none

def message : Cause → String
  | emptyInput => "Empty expression"
  | missingOperand side op => s!"Missing {side.word}-hand operand for `{op.symbol}`"
  | missingSignOperand s => s!"Missing operand after unary `{s.symbol}`"
  | missingTransposeOperand => "Missing operand before conjugate transpose `'`"
  | unmatchedBracket _ => "Unmatched parenthesis"
  | emptyBrackets => "Empty parentheses"
  | invalidCharacter c => s!"Invalid character: '{c}'"

/-- What would mend the expression. -/
def help : Cause → String
  | emptyInput => "An expression was expected here."
  | missingOperand side op => s!"The operator `{op.symbol}` needs an expression on its {side.word}."
  | missingSignOperand s => s!"The sign `{s.symbol}` must be followed by an expression."
  | missingTransposeOperand => "The postfix `'` must follow an expression."
  | unmatchedBracket closing => s!"Add a closing '{closing}'."
  | emptyBrackets => "Brackets must enclose an expression."
  | invalidCharacter _ => "Symbols may only contain ASCII letters, digits and '.'."

end Cause

/-! ### Trails -/

/-- A construct with one operand: a sign, a conjugate transpose, or a pair of brackets. -/
inductive Enclosure where
  | sign (sign : Sign)
  | transpose
  | parentheses
  | function (name : String)
  deriving DecidableEq

/-- The tree of a construct, given that of its operand; parentheses leave no node. -/
def Enclosure.wrap {α : Type} : Enclosure → Tree α → Tree α
  | sign s => .signed s
  | transpose => .transposed
  | parentheses => id
  | function name => .applied name

/-- Where a part of an expression stands. -/
inductive Context where
  | operand (side : Side) (operator : BinaryOperator)
  | inside (enclosure : Enclosure)
  deriving DecidableEq

/-- One step of a trail: a context and the cursor read in it. -/
structure Frame where
  context : Context
  cursor : Cursor
  deriving DecidableEq

/-- A failed parse. -/
structure Failure where
  cause : Cause
  position : Nat
  trail : List Frame
  deriving DecidableEq

namespace Failure

/-- A failure with nothing around it. -/
def bare (cause : Cause) (position : Nat) : Failure := ⟨cause, position, []⟩

/-- The failure as seen one construct further out. -/
def within (context : Context) (cursor : Cursor) (f : Failure) : Failure :=
  { f with trail := ⟨context, cursor⟩ :: f.trail }

/-- The failure of an operand of a binary operator. An operand of blanks alone is a missing one. -/
def ofOperand (side : Side) (operator : BinaryOperator) (cursor : Cursor) (f : Failure) : Failure :=
  within (.operand side operator) cursor <|
    match f.cause with
    | .emptyInput => bare (.missingOperand side operator) f.position
    | _ => f

/-- Whether the operand ran out at its right end, which is what happens when the operator that ends
it is a sign. -/
def isDangling (operand : Cursor) (f : Failure) : Bool :=
  f.cause.kind == .missingOperand && f.position == operand.trim.stop

end Failure

end Formula
