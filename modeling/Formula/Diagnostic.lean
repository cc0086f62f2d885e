import Formula.Location
import Formula.Text.Upper

/-!
# Diagnostics

A diagnostic is what is told of a fault: a severity, a code and a message on the first line, then
the location, notes, a help text and a snippet of the source. Parts that are absent or empty are
left out.
-/

namespace Formula

/-- What is told of a fault. -/
structure Diagnostic where
  message : String
  location? : Option Location
  severity : String
  code? : Option String
  help? : Option String
  notes : List String
  snippet? : Option String

namespace Diagnostic

/-- A part of a diagnostic, or nothing if it is absent or empty. -/
def part (text? : Option String) (display : String → String) : String :=
  match text? with
  | none => ""
  | some text => if text.isEmpty then "" else display text

/-- The text of a diagnostic. -/
def render (d : Diagnostic) : String :=
  Text.upper d.severity ++ part d.code? (fun code => s!"[{code}]") ++ s!": {d.message}\n" ++
    (match d.location? with
      | none => ""
      | some l => s!"  --> {l.lineColumn} (offset {l.offset})\n") ++
    String.join (d.notes.map fun note => s!"  {note}\n") ++
    part d.help? (fun help => s!"  help: {help}\n") ++
    part d.snippet? id

end Diagnostic

end Formula
