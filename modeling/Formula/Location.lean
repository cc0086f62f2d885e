import Formula.Text.Lines
import Formula.Text.Slice

/-!
# Locations

A location is a line and a column, both counted from one, and the offset they were found from. Only
a line feed ends a line. A snippet shows a line of the source with a caret under a column.
-/

namespace Formula

/-- A place in a source. -/
structure Location where
  line : Int
  column : Int
  offset : Int
  deriving DecidableEq

namespace Location

/-- The location of an offset, which is first brought inside the source. -/
def ofOffset (source : String) (offset : Int) : Location :=
  let inside := min offset.toNat source.toList.length
  let before := source.toList.take inside
  { line := before.count '\n' + 1
    column := (before.reverse.takeWhile (· != '\n')).length + 1
    offset := inside }

/-- Line and column. -/
def lineColumn (l : Location) : String := s!"{l.line}:{l.column}"

/-- The line of a source that a location names. A line past the last one is empty; one below zero
counts from the last, and one before the first does not exist. -/
def lineOf? (source : String) (l : Location) : Option (List Char) :=
  let lines := Text.lines source.toList
  if l.line ≤ lines.length then Text.item? lines (l.line - 1) else some []

/-- The line of a location between two blank ones, with its number in a gutter and a caret under
its column. -/
def snippet? (source : String) (l : Location) : Option String :=
  (l.lineOf? source).map fun text =>
    let number := toString l.line
    let gutter := String.ofList (List.replicate number.length ' ')
    let margin := String.ofList (List.replicate (l.column - 1).toNat ' ')
    s!"{gutter} |\n{number} | {String.ofList text}\n{gutter} | {margin}^\n"

end Location

end Formula
