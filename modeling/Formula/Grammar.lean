import Formula.Alphabet
import Formula.Parser.Level
import Formula.Tree

/-!
# The grammar

The grammar as a relation between a level, a text and the tree of the text, stated without a parser.
Sums and products are left-recursive, so chains of their operators nest to the left. A power has a
conjugate transpose as its base and one sign at most in front of its exponent, so powers do not
chain. Blanks may stand around every token.
-/

namespace Formula

/-- The version of the grammar and of the texts of reports. -/
def version : String := "0.1.0-alpha"

/-- A text of blanks alone. -/
def Blank (text : List Char) : Prop := ∀ c ∈ text, isBlank c = true

/-- A text that is a name: not empty, and made of the characters of names. -/
def IsName (text : List Char) : Prop := text ≠ [] ∧ ∀ c ∈ text, isNameChar c = true

instance (text : List Char) : Decidable (Blank text) :=
  List.decidableBAll (isBlank · = true) text

instance (text : List Char) : Decidable (IsName text) :=
  have := List.decidableBAll (isNameChar · = true) text
  instDecidableAnd

/-- Whether every name in an expression is one that can be written. -/
def Tree.WellNamed : Expr → Prop
  | leaf name => IsName name.toList
  | signed _ t => t.WellNamed
  | binary l _ r => l.WellNamed ∧ r.WellNamed
  | transposed t => t.WellNamed
  | applied name t => IsName name.toList ∧ t.WellNamed

/-- `Derives level text t`: the text is derived from the level, and its tree is `t`. -/
inductive Derives : Level → List Char → Expr → Prop
  | sum {l r : List Char} {t u : Expr} {op : BinaryOperator} (mem : op ∈ BinaryOperator.additive) :
      Derives .additive l t → Derives .multiplicative r u →
      Derives .additive (l ++ op.symbol :: r) (.binary t op u)
  | product {l r : List Char} {t u : Expr} {op : BinaryOperator}
      (mem : op ∈ BinaryOperator.multiplicative) :
      Derives .multiplicative l t → Derives .exponential r u →
      Derives .multiplicative (l ++ op.symbol :: r) (.binary t op u)
  | power {l r : List Char} {t u : Expr} {op : BinaryOperator} (mem : op ∈ BinaryOperator.powers) :
      Derives .transpose l t → Derives .unary r u →
      Derives .exponential (l ++ op.symbol :: r) (.binary t op u)
  | signed {v text : List Char} {t : Expr} (sign : Sign) (blank : Blank v) :
      Derives .transpose text t → Derives .unary (v ++ sign.symbol :: text) (.signed sign t)
  | transposed {text w : List Char} {t : Expr} (blank : Blank w) :
      Derives .primary text t → Derives .transpose (text ++ transposeMark :: w) (.transposed t)
  | group {v text w : List Char} {t : Expr} (before : Blank v) (behind : Blank w) :
      Derives .additive text t → Derives .primary (v ++ '(' :: (text ++ ')' :: w)) t
  | applied {u name v text w : List Char} {t : Expr} (isName : IsName name) (before : Blank u)
      (between : Blank v) (behind : Blank w) :
      Derives .additive text t →
      Derives .primary (u ++ name ++ v ++ '[' :: (text ++ ']' :: w))
        (.applied (String.ofList name) t)
  | symbol {v name w : List Char} (isName : IsName name) (before : Blank v) (behind : Blank w) :
      Derives .primary (v ++ name ++ w) (.leaf (String.ofList name))
  | tighter {level next : Level} {text : List Char} {t : Expr} (h : level.next? = some next) :
      Derives next text t → Derives level text t

/-- An expression that a text derives has names that can be written. -/
theorem Derives.wellNamed {level : Level} {text : List Char} {t : Expr} (h : Derives level text t) :
    t.WellNamed := by
  induction h with
  | sum _ _ _ ihl ihr => exact ⟨ihl, ihr⟩
  | product _ _ _ ihl ihr => exact ⟨ihl, ihr⟩
  | power _ _ _ ihl ihr => exact ⟨ihl, ihr⟩
  | signed _ _ _ ih => exact ih
  | transposed _ _ ih => exact ih
  | group _ _ _ ih => exact ih
  | applied isName _ _ _ _ ih => exact ⟨by simpa using isName, ih⟩
  | symbol isName _ _ => simpa [Tree.WellNamed] using isName
  | tighter _ _ ih => exact ih

end Formula
