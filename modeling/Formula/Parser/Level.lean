import Formula.Operator

/-!
# Levels of the grammar

The levels from the loosest to the tightest binding. A sum is made of products, a product of powers,
and so on down to the primaries, which are groups in parentheses, function applications and symbols.
-/

namespace Formula

/-- A level of precedence. -/
inductive Level where
  | additive
  | multiplicative
  | exponential
  | unary
  | transpose
  | primary
  deriving DecidableEq

namespace Level

def all : List Level := [additive, multiplicative, exponential, unary, transpose, primary]

/-- The label under which visits of a level are reported. -/
def label : Level → String
  | additive => "additive"
  | multiplicative => "multiplicative"
  | exponential => "exponential"
  | unary => "unary"
  | transpose => "conjugate_transpose"
  | primary => "primary"

/-- The level that binds next more tightly. -/
def next? : Level → Option Level
  | additive => some multiplicative
  | multiplicative => some exponential
  | exponential => some unary
  | unary => some transpose
  | transpose => some primary
  | primary => none

/-- How many levels bind more tightly. -/
def rank : Level → Nat
  | additive => 5
  | multiplicative => 4
  | exponential => 3
  | unary => 2
  | transpose => 1
  | primary => 0

end Level

end Formula
