import Formula.Tree.Substitution

/-!
# Substitutions one after another

A substitution replaces all leaves at once and does not look at what it has put in. So two
substitutions one after the other are a single one (`Replacements.andThen`), even where a
replacement mentions its own name or another that is replaced. No two replacements cancel each other
out: a substituted expression tells what stands in the place of each of its names
(`Tree.bind_eq_bind_iff`).
-/

namespace Formula

/-- What some names are replaced by. -/
abbrev Replacements := String → Option Expr

namespace Replacements

/-- What stands in the place of a name: the name itself, if it is not replaced. -/
def instead (m : Replacements) (name : String) : Expr := (m name).getD (.leaf name)

/-- The replacements of two substitutions one after the other: what the first puts in is handed to
the second, and the second replaces the names that the first one leaves. -/
def andThen (first second : Replacements) : Replacements := fun name =>
  match first name with
  | some t => some (t.substitute second)
  | none => second name

theorem instead_andThen (first second : Replacements) (name : String) :
    (first.andThen second).instead name = (first.instead name).substitute second := by
  unfold instead andThen
  cases first name <;> rfl

end Replacements

namespace Tree

variable {α β : Type} {t : Tree α} {f g : α → Tree β}

/-- Trees that are put in the places of leaves can be told apart afterwards. -/
theorem bind_eq_bind_iff : t.bind f = t.bind g ↔ ∀ a ∈ t.leaves, f a = g a := by
  induction t with
  | leaf a => simp [bind, leaves]
  | signed s t ih => simp [bind, leaves, ih]
  | binary l op r ihl ihr => simp [bind, leaves, ihl, ihr, or_imp, forall_and]
  | transposed t ih => simp [bind, leaves, ih]
  | applied name t ih => simp [bind, leaves, ih]

theorem substitute_eq_bind (t : Expr) (m : Replacements) : t.substitute m = t.bind m.instead := rfl

/-- Substitution is simultaneous: one substitution after another is that of the combined
replacements, the names of the result are those of what stands in the place of each name, and two
substitutions agree just when they agree on every name of the expression. -/
theorem substitute_composes (t : Expr) (first second : Replacements) :
    (t.substitute first).substitute second = t.substitute (first.andThen second) ∧
    (t.substitute first).leaves =
      t.leaves.flatMap (fun name => ((first name).map leaves).getD [name]) ∧
    (t.substitute first = t.substitute second ↔
      ∀ name ∈ t.leaves, first.instead name = second.instead name) := by
  refine ⟨?_, ?_, bind_eq_bind_iff⟩
  · calc (t.substitute first).substitute second
        = t.bind fun name => (first.instead name).substitute second := bind_bind _ _ t
      _ = t.substitute (first.andThen second) := by
        rw [substitute_eq_bind, funext (first.instead_andThen second)]
  · rw [substitute_eq_bind, leaves_bind]
    congr 1
    funext name
    unfold Replacements.instead
    cases first name <;> rfl

end Tree

/-- A substitution does not reach into what it has put in, and leaves the names of functions. -/
example :
    let first : Replacements := fun
      | "a" => some (.binary (.leaf "a") .add (.leaf "b"))
      | "b" => some (.leaf "a")
      | _ => none
    let t : Expr := .applied "a" (.binary (.leaf "a") .multiply (.leaf "b"))
    t.substitute first = .applied "a"
      (.binary (.binary (.leaf "a") .add (.leaf "b")) .multiply (.leaf "a")) := rfl

end Formula
