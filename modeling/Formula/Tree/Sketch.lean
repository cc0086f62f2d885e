import Formula.Text.Quoted
import Formula.Tree.Substitution

/-!
# Sketches

A sketch is an expression built by hand, in which a value that is no expression may stand where an
expression belongs. It is completed by checking its leaves from left to right, and the first foreign
value is what an operation on the sketch is refused for.
-/

namespace Formula

/-- A value that is no expression. A decimal is its digits as one number and the count of those
behind the point. -/
inductive Foreign where
  | nothing
  | truth (value : Bool)
  | integer (value : Int)
  | decimal (digits : Int) (places : Nat)
  | text (value : String)
  deriving DecidableEq

namespace Foreign

/-- A decimal in full, with at least one digit on either side of the point and no zero at its
end that could be left out. -/
def shownDecimal (digits : Int) (places : Nat) : String :=
  let size := digits.natAbs
  let unit := Nat.pow 10 places
  let fraction := (toString (size % unit)).toList
  let filled := List.replicate (places - fraction.length) '0' ++ fraction
  let kept := (filled.reverse.dropWhile (· == '0')).reverse
  let sign := if digits < 0 then "-" else ""
  sign ++ toString (size / unit) ++ "." ++ String.ofList (if kept.isEmpty then ['0'] else kept)

/-- How a foreign value is shown. -/
def shown : Foreign → String
  | nothing => "None"
  | truth true => "True"
  | truth false => "False"
  | integer n => toString n
  | decimal digits places => shownDecimal digits places
  | text s => Text.quote s

/-- What is reported of a foreign value in the place of an expression. -/
def message (v : Foreign) : String := s!"Not an expression node: {v.shown}"

end Foreign

/-- What stands at a leaf of a sketch. -/
inductive Mark where
  | name (name : String)
  | foreign (value : Foreign)
  deriving DecidableEq

/-- An expression built by hand. -/
abbrev Sketch := Tree Mark

namespace Tree

/-- An expression as a sketch. -/
def sketch (t : Expr) : Sketch := t.map .name

/-- The expression a sketch amounts to, or its first foreign value. -/
def complete (s : Sketch) : Except Foreign Expr :=
  s.check fun
    | .name n => .ok n
    | .foreign v => .error v

/-- Replaces names by sketches. The sketch itself has to be complete; its replacements need not. -/
def substituteSketches (s : Sketch) (replacement? : String → Option Sketch) :
    Except Foreign Sketch := do
  let t ← s.complete
  return t.bind fun name => (replacement? name).getD (leaf (.name name))

@[simp] theorem complete_sketch (t : Expr) : t.sketch.complete = .ok t := by
  unfold complete sketch
  induction t <;> simp_all [map, check, Except.map, Except.bind]

end Tree

end Formula
