import Formula.Diagnostic
import Formula.Failure
import Formula.Text.Quoted

/-!
# Reports

A report is a failure made ready to be shown, or one put together by hand. All its texts are plain
data and may be anything, its position may lie outside the source, and the notes of its trail may
lack parts. A failure of the parser becomes a report by `Report.ofFailure`, and of such a report
nothing is lacking.

The note of a binary operand cannot be described without a side. A report with such a note has no
breadcrumbs and no diagnostic.
-/

namespace Formula

/-- The kinds of context, their particulars left out. -/
inductive ContextKind where
  | binaryOperand
  | unaryOperand
  | transposeOperand
  | parentheses
  | functionArgument
  deriving DecidableEq

namespace ContextKind

def all : List ContextKind :=
  [binaryOperand, unaryOperand, transposeOperand, parentheses, functionArgument]

/-- The word that stands for a kind of context. -/
def word : ContextKind → String
  | binaryOperand => "binary_operand"
  | unaryOperand => "unary_operand"
  | transposeOperand => "conjugate_transpose_operand"
  | parentheses => "parentheses"
  | functionArgument => "function_argument"

end ContextKind

/-- A context as it is noted in a report. -/
structure ContextNote where
  kind : ContextKind
  operator? : Option Operator
  side? : Option Side
  name? : Option String
  deriving DecidableEq

/-- The note of a context. -/
def Context.note : Context → ContextNote
  | operand side op => ⟨.binaryOperand, some (.binary op), some side, none⟩
  | inside (.sign s) => ⟨.unaryOperand, some (.sign s), none, none⟩
  | inside .transpose => ⟨.transposeOperand, none, none, none⟩
  | inside .parentheses => ⟨.parentheses, none, none, none⟩
  | inside (.function name) => ⟨.functionArgument, none, none, some name⟩

namespace ContextNote

/-- The word for a part that is lacking. -/
def lacking : String := "None"

/-- The phrase for a context; none for a binary operand on no side. -/
def describe? (n : ContextNote) : Option String :=
  let operator := (n.operator?.map (·.symbol.toString)).getD lacking
  match n.kind with
  | .binaryOperand => n.side?.map fun side => s!"the {side.word}-hand side of `{operator}`"
  | .unaryOperand => some s!"the operand of unary `{operator}`"
  | .transposeOperand => some "the operand of the conjugate transpose `'`"
  | .parentheses => some "the contents of parentheses"
  | .functionArgument =>
    let name := n.name?.getD lacking
    some s!"the argument of `{name}[...]`"

theorem describe?_eq_none_iff {n : ContextNote} :
    n.describe? = none ↔ n.kind = .binaryOperand ∧ n.side? = none := by
  unfold describe?
  cases n.kind <;> simp

end ContextNote

/-- What is known of a failure when it is shown. -/
structure Report where
  message : String
  kind : Kind
  position : Int
  side? : Option Side
  operator? : Option Operator
  character? : Option String
  help? : Option String
  source? : Option String
  trail : List (ContextNote × Cursor)

namespace Report

/-- The report of a cause, with no trail and no source. -/
def ofCause (cause : Cause) (position : Int) : Report where
  message := cause.message
  kind := cause.kind
  position := position
  side? := cause.side?
  operator? := cause.operator?
  character? := cause.character?
  help? := some cause.help
  source? := none
  trail := []

/-- The report of a failure of the parser. -/
def ofFailure (f : Failure) (source? : Option String) : Report :=
  { ofCause f.cause f.position with
    source? := source?
    trail := f.trail.map fun frame => (frame.context.note, frame.cursor) }

/-- Puts one more context around a report. -/
def push (r : Report) (note : ContextNote) (cursor : Cursor) : Report :=
  { r with trail := (note, cursor) :: r.trail }

/-- The location of the position in the source, if there is a source. -/
def location? (r : Report) : Option Location :=
  r.source?.map (Location.ofOffset · r.position)

/-- The phrases for the contexts, outermost first. -/
def phrases? (r : Report) : Option (List String) :=
  r.trail.mapM fun (note, _) => note.describe?

/-- One line for each context, outermost first. -/
def breadcrumbs? (r : Report) : Option (List String) :=
  r.trail.mapM fun (note, cursor) =>
    note.describe?.map fun phrase => s!"while parsing {phrase} at offset {cursor.start}"

/-- The diagnostic of a report, which shows the line of the position if there is a source. -/
def diagnostic? (r : Report) : Option Diagnostic :=
  r.breadcrumbs?.map fun notes =>
    { message := r.message
      location? := r.location?
      severity := "error"
      code? := some r.kind.code
      help? := r.help?
      notes := notes
      snippet? := r.source?.bind fun source =>
        (Location.ofOffset source r.position).snippet? source }

/-- The text of a report. -/
def render? (r : Report) : Option String := r.diagnostic?.map (·.render)

/-- A report on one line. -/
def summary (r : Report) : String :=
  s!"ParseError({r.kind.name}, position={r.position}, message={Text.quote r.message})"

end Report

end Formula
