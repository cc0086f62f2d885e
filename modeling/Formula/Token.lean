import Formula.Alphabet
import Formula.Tree

/-!
# Tokens

A token is a name, as long as it can be, or any other single character that is not blank. The
parser works without tokens; they say what of a text matters, which is all but the placing of
blanks.

The yield of an expression lists what was written of it from left to right, without parentheses and
with each sign told apart from the operator that is written alike.
-/

namespace Formula

/-- A smallest part of a text. -/
inductive Token where
  | name (text : List Char)
  | mark (c : Char)
  deriving DecidableEq

/-- A token and the offset of its first character. -/
structure Lexeme where
  token : Token
  position : Nat
  deriving DecidableEq

/-- The tokens of a text whose first character has the given offset. -/
def lexemes (start : Nat) (text : List Char) : List Lexeme :=
  match text with
  | [] => []
  | c :: rest =>
    if isNameChar c then
      let name := c :: rest.takeWhile isNameChar
      ⟨.name name, start⟩ :: lexemes (start + name.length) (rest.dropWhile isNameChar)
    else if isBlank c then lexemes (start + 1) rest
    else ⟨.mark c, start⟩ :: lexemes (start + 1) rest
termination_by text.length
decreasing_by
  · exact Nat.lt_succ_of_le (List.dropWhile_suffix _).length_le
  · simp
  · simp

/-- The tokens of a text. -/
def tokens (text : List Char) : List Token := (lexemes 0 text).map (·.token)

/-- The names that no opening square bracket follows, with their offsets. -/
def symbolNames : List Lexeme → List (String × Nat)
  | [] => []
  | ⟨.mark _, _⟩ :: rest => symbolNames rest
  | ⟨.name n, p⟩ :: rest =>
    if rest.head?.map (·.token) = some (.mark '[') then symbolNames rest
    else (String.ofList n, p) :: symbolNames rest

/-- The names that an opening square bracket follows, with their offsets. -/
def functionNames : List Lexeme → List (String × Nat)
  | [] => []
  | ⟨.mark _, _⟩ :: rest => functionNames rest
  | ⟨.name n, p⟩ :: rest =>
    if rest.head?.map (·.token) = some (.mark '[') then
      (String.ofList n, p) :: functionNames rest
    else functionNames rest

/-- The names of the functions in an expression, each in front of those in its argument. -/
def Tree.functionNames {α : Type} : Tree α → List String
  | leaf _ => []
  | signed _ t => t.functionNames
  | binary l _ r => l.functionNames ++ r.functionNames
  | transposed t => t.functionNames
  | applied name t => name :: t.functionNames

/-! ### Yields -/

/-- A part of the yield of an expression. -/
inductive YieldItem where
  | name (text : List Char)
  | sign (sign : Sign)
  | operator (op : BinaryOperator)
  | mark (c : Char)
  deriving DecidableEq

/-- What was written of an expression, parentheses left out. -/
def Tree.yield : Expr → List YieldItem
  | leaf name => [.name name.toList]
  | signed s t => .sign s :: t.yield
  | binary l op r => l.yield ++ .operator op :: r.yield
  | transposed t => t.yield ++ [.mark transposeMark]
  | applied name t => .name name.toList :: .mark '[' :: t.yield ++ [.mark ']']

/-- Whether an operand can end with a token, so that a binary operator can follow it. -/
def Token.endsOperand : Token → Bool
  | name _ => true
  | mark c => c == ')' || c == ']' || c == transposeMark

/-- A token as part of a yield, given the token in front of it. -/
def Token.item (before? : Option Token) : Token → YieldItem
  | name n => .name n
  | mark c =>
    if before?.any endsOperand then
      ((BinaryOperator.ofChar? c).map .operator).getD (.mark c)
    else
      match Sign.ofChar? c, BinaryOperator.ofChar? c with
      | some s, _ => .sign s
      | none, some op => .operator op
      | none, none => .mark c

/-- The tokens as a yield, given the token in front of them: parentheses are left out, and a sign is
told from an operator by the token in front of it. -/
def yieldOf (before? : Option Token) : List Token → List YieldItem
  | [] => []
  | t :: rest =>
    if t = .mark '(' ∨ t = .mark ')' then yieldOf (some t) rest
    else t.item before? :: yieldOf (some t) rest

end Formula
