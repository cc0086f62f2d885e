import Formula.Parser

/-!
# Journals

A journal tells of a parse in lines of text: the levels that were entered, if it is kept for
debugging, and at the end whether the parse succeeded. A listener is told of the entries instead of
the journal.
-/

namespace Formula

/-- Who is told of the levels a parse enters. -/
inductive Audience where
  | nobody
  | listener
  | journal
  deriving DecidableEq

/-- A listener comes before debugging. -/
def Audience.of (listening debugging : Bool) : Audience :=
  if listening then listener else if debugging then journal else nobody

/-- The line for the entry into a level. -/
def Visit.line (v : Visit) : String :=
  s!"{v.level.label}: {String.ofList (Text.quoted v.cursor.text)} at offset {v.cursor.start}"

namespace Run

/-- What a listener hears of a run. -/
def heard (r : Run Outcome) (audience : Audience) : List Visit :=
  if audience = .listener then r.visits else []

/-- What the journal says of the entries of a run. -/
def entryLines (r : Run Outcome) (audience : Audience) : List String :=
  if audience = .journal then r.visits.map Visit.line else []

/-- What the journal says of the end of the parse of a text. -/
def endLine (r : Run Outcome) (text : String) : String :=
  match r.result with
  | .ok o => s!"Parsed {Text.quote text} with {o.occurrences.length} symbol occurrence(s)"
  | .error f =>
    s!"Failed to parse {Text.quote text}: {f.cause.kind.name} at offset {f.position}"

/-- The journal of the parse of a text. -/
def journal (r : Run Outcome) (audience : Audience) (text : String) : List String :=
  r.entryLines audience ++ [r.endLine text]

end Run

end Formula
