/-!
# Operators

Five binary operators and two signs, each written as one character. The characters of the additive
operators are also those of the signs; which of the two is meant depends on what stands to the left.
-/

namespace Formula

/-- The operators that stand between two operands. -/
inductive BinaryOperator where
  | add
  | subtract
  | multiply
  | divide
  | exponentiate
  deriving DecidableEq

/-- The operators that stand in front of one operand. -/
inductive Sign where
  | plus
  | minus
  deriving DecidableEq

/-- Either kind of operator. -/
inductive Operator where
  | binary (operator : BinaryOperator)
  | sign (sign : Sign)
  deriving DecidableEq

namespace BinaryOperator

/-- The character an operator is written with. -/
def symbol : BinaryOperator → Char
  | add => '+'
  | subtract => '-'
  | multiply => '*'
  | divide => '/'
  | exponentiate => '^'

/-- The operators of sums and differences. -/
def additive : List BinaryOperator := [add, subtract]

/-- The operators of products and quotients. -/
def multiplicative : List BinaryOperator := [multiply, divide]

/-- The operator of powers. -/
def powers : List BinaryOperator := [exponentiate]

/-- The one of the given operators that a character stands for. -/
def among? (operators : List BinaryOperator) (c : Char) : Option BinaryOperator :=
  operators.find? (·.symbol == c)

/-- The operator that a character stands for. -/
def ofChar? : Char → Option BinaryOperator :=
  among? (additive ++ multiplicative ++ powers)

theorem symbol_of_among? {operators : List BinaryOperator} {c : Char} {op : BinaryOperator}
    (h : among? operators c = some op) : op.symbol = c := by
  simpa using List.find?_some h

theorem mem_of_among? {operators : List BinaryOperator} {c : Char} {op : BinaryOperator}
    (h : among? operators c = some op) : op ∈ operators :=
  List.mem_of_find?_eq_some h

@[simp] theorem ofChar?_symbol (op : BinaryOperator) : ofChar? op.symbol = some op := by
  cases op <;> rfl

end BinaryOperator

namespace Sign

/-- The character a sign is written with. -/
def symbol : Sign → Char
  | plus => '+'
  | minus => '-'

def all : List Sign := [plus, minus]

/-- The sign that a character stands for. -/
def ofChar? (c : Char) : Option Sign := all.find? (·.symbol == c)

theorem symbol_of_ofChar? {c : Char} {s : Sign} (h : ofChar? c = some s) : s.symbol = c := by
  simpa using List.find?_some h

@[simp] theorem ofChar?_symbol (s : Sign) : ofChar? s.symbol = some s := by
  cases s <;> rfl

end Sign

/-- Whether the character of a binary operator is also that of a sign. -/
def BinaryOperator.canSign (op : BinaryOperator) : Bool := (Sign.ofChar? op.symbol).isSome

theorem BinaryOperator.canSign_iff {op : BinaryOperator} :
    op.canSign = true ↔ op ∈ additive := by
  cases op <;> decide

/-- The character an operator is written with. -/
def Operator.symbol : Operator → Char
  | binary op => op.symbol
  | sign s => s.symbol

end Formula
