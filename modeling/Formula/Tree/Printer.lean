import Formula.Alphabet
import Formula.Tree

/-!
# Printing

Names and function applications are printed bare. Any other node is printed inside one pair of
parentheses, so that the text parses back to the same tree whatever the precedence of its operators.
-/

namespace Formula.Tree

/-- The characters of a printed expression. -/
def printed : Expr → List Char
  | leaf name => name.toList
  | applied name t => name.toList ++ '[' :: t.printed ++ [']']
  | signed s t => '(' :: s.symbol :: t.printed ++ [')']
  | binary l op r => '(' :: l.printed ++ ' ' :: op.symbol :: ' ' :: r.printed ++ [')']
  | transposed t => '(' :: t.printed ++ [transposeMark, ')']

/-- The printed form of an expression. -/
def print (t : Expr) : String := String.ofList t.printed

@[simp] theorem toList_print (t : Expr) : t.print.toList = t.printed := by
  simp [print]

end Formula.Tree
