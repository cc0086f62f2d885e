import Formula.Operator

/-!
# Expression trees

The shape of an expression is kept apart from what stands at its leaves. `Tree α` has signs, binary
operations, conjugate transposes and named functions as inner nodes and values of `α` at its leaves:
names in an expression, names with their offsets in the outcome of a parse. Replacing leaves by
trees is `Tree.bind`, and reading the leaves from left to right is `Tree.leaves`.
-/

namespace Formula

/-- An expression with values of `α` at its leaves. -/
inductive Tree (α : Type) where
  | leaf (value : α)
  | signed (sign : Sign) (operand : Tree α)
  | binary (left : Tree α) (operator : BinaryOperator) (right : Tree α)
  | transposed (operand : Tree α)
  | applied (name : String) (argument : Tree α)
  deriving DecidableEq

/-- An expression over names. -/
abbrev Expr := Tree String

namespace Tree

variable {α β γ ε : Type}

/-- Applies a function at each leaf. -/
def map (f : α → β) : Tree α → Tree β
  | leaf a => leaf (f a)
  | signed s t => signed s (t.map f)
  | binary l op r => binary (l.map f) op (r.map f)
  | transposed t => transposed (t.map f)
  | applied name t => applied name (t.map f)

/-- Puts a tree in the place of each leaf. -/
def bind (f : α → Tree β) : Tree α → Tree β
  | leaf a => f a
  | signed s t => signed s (t.bind f)
  | binary l op r => binary (l.bind f) op (r.bind f)
  | transposed t => transposed (t.bind f)
  | applied name t => applied name (t.bind f)

/-- The leaves from left to right. -/
def leaves : Tree α → List α
  | leaf a => [a]
  | signed _ t => t.leaves
  | binary l _ r => l.leaves ++ r.leaves
  | transposed t => t.leaves
  | applied _ t => t.leaves

/-- Checks the leaves from left to right; the first that fails decides. -/
def check (f : α → Except ε β) : Tree α → Except ε (Tree β)
  | leaf a => (f a).map leaf
  | signed s t => (t.check f).map (signed s)
  | binary l op r => (l.check f).bind fun l => (r.check f).map (binary l op)
  | transposed t => (t.check f).map transposed
  | applied name t => (t.check f).map (applied name)

@[simp] theorem leaves_map (f : α → β) (t : Tree α) : (t.map f).leaves = t.leaves.map f := by
  induction t <;> simp_all [map, leaves]

@[simp] theorem map_map (f : α → β) (g : β → γ) (t : Tree α) :
    (t.map f).map g = t.map (g ∘ f) := by
  induction t <;> simp_all [map]

@[simp] theorem bind_leaf (t : Tree α) : t.bind leaf = t := by
  induction t <;> simp_all [bind]

theorem bind_bind (f : α → Tree β) (g : β → Tree γ) (t : Tree α) :
    (t.bind f).bind g = t.bind fun a => (f a).bind g := by
  induction t <;> simp_all [bind]

theorem leaves_bind (f : α → Tree β) (t : Tree α) :
    (t.bind f).leaves = t.leaves.flatMap fun a => (f a).leaves := by
  induction t <;> simp_all [bind, leaves]

end Tree

end Formula
