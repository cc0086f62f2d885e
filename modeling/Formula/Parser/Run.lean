import Formula.Failure
import Formula.Parser.Level

/-!
# Runs of the parser

A run is the result of a parse together with the visits made on the way: each level that was
entered and the trimmed cursor it was entered with, in order. Visits of attempts that were given up
are kept.
-/

namespace Formula

/-- An entry into a level of the grammar. -/
structure Visit where
  level : Level
  cursor : Cursor
  deriving DecidableEq

/-- The visits of a parse and how it ended. -/
structure Run (α : Type) where
  visits : List Visit
  result : Except Failure α

namespace Run

variable {α β : Type}

/-- A run that succeeds without a visit. -/
def done (a : α) : Run α := ⟨[], .ok a⟩

/-- A run that fails without a visit. -/
def fail (cause : Cause) (position : Nat) : Run α := ⟨[], .error (.bare cause position)⟩

/-- Puts a visit in front of a run. -/
def visiting (level : Level) (cursor : Cursor) (r : Run α) : Run α :=
  { r with visits := ⟨level, cursor⟩ :: r.visits }

/-- Goes on with whatever a run resulted in. -/
def follow (r : Run α) (next : Except Failure α → Run β) : Run β :=
  let s := next r.result
  ⟨r.visits ++ s.visits, s.result⟩

/-- Goes on with the value of a run that succeeded. -/
def andThen (r : Run α) (next : α → Run β) : Run β :=
  r.follow fun
    | .ok a => next a
    | .error f => ⟨[], .error f⟩

def map (g : α → β) (r : Run α) : Run β := ⟨r.visits, r.result.map g⟩

def mapFailure (g : Failure → Failure) (r : Run α) : Run α := ⟨r.visits, r.result.mapError g⟩

/-- The run of a part that stands inside a construct. -/
def within (enclosure : Enclosure) (cursor : Cursor) (r : Run α) : Run α :=
  r.mapFailure (.within (.inside enclosure) cursor)

/-- The run of an operand of a binary operator. -/
def asOperand (side : Side) (operator : BinaryOperator) (cursor : Cursor) (r : Run α) : Run α :=
  r.mapFailure (.ofOperand side operator cursor)

end Run

end Formula
