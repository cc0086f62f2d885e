import Formula.Tree

/-!
# Substitution

The names at the leaves of an expression are replaced by expressions, all at once. The names of
functions are not leaves and are never replaced.
-/

namespace Formula.Tree

/-- Replaces each name at a leaf by what it is mapped to, or leaves it as it is. -/
def substitute (t : Expr) (replacement? : String → Option Expr) : Expr :=
  t.bind fun name => (replacement? name).getD (leaf name)

variable {t : Expr} {f : String → Option Expr}

@[simp] theorem substitute_leaf (name : String) :
    (leaf name).substitute f = (f name).getD (leaf name) := rfl

@[simp] theorem substitute_signed (s : Sign) :
    (signed s t).substitute f = signed s (t.substitute f) := rfl

@[simp] theorem substitute_binary (l r : Expr) (op : BinaryOperator) :
    (binary l op r).substitute f = binary (l.substitute f) op (r.substitute f) := rfl

@[simp] theorem substitute_transposed :
    (transposed t).substitute f = transposed (t.substitute f) := rfl

@[simp] theorem substitute_applied (name : String) :
    (applied name t).substitute f = applied name (t.substitute f) := rfl

end Formula.Tree
