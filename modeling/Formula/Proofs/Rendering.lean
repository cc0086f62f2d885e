import Formula.Proofs.Caret
import Formula.Proofs.Completeness
import Formula.Proofs.Evidence
import Formula.Proofs.Slices
import Mathlib.Data.List.Forall2

/-!
# Reports as lines

The report of a failure is put together from a header, a location, breadcrumbs, a help text and a
snippet, each with line feeds of its own, and nothing in it is escaped. Whether it can be read line
by line depends on which characters get into the parts: operators, names, numbers and the lines of
the source have no line feed in them, and the character that no name may contain is the only thing
that may be one (`Report.linesUp_ofText`). It is one whenever a line feed stands between two names
(`result_run_between`).
-/

namespace Formula

open Text (lines terminated)

variable {source : String} {f : Failure} {cause : Cause} {before behind : List Char}
  {note : ContextNote} {phrase : String} {crumbs : List String}
  {w : String} {snippet heading : List (List Char)}

/-! ### Parts without line feeds -/

@[simp] theorem BinaryOperator.feed_ne_symbol (op : BinaryOperator) : '\n' ≠ op.symbol := by
  cases op <;> decide

@[simp] theorem Sign.feed_ne_symbol (s : Sign) : '\n' ≠ s.symbol := by
  cases s <;> decide

@[simp] theorem Side.notMem_word (side : Side) : '\n' ∉ side.word.toList := by
  cases side <;> decide

/-- Operators, signs, sides and names have no line feeds. -/
theorem ContextNote.Complete.notMem_phrase (h : note.Complete)
    (described : note.describe? = some phrase) : '\n' ∉ phrase.toList := by
  obtain ⟨kind, operator, side, name⟩ := note
  cases kind with
  | binaryOperand =>
    obtain ⟨⟨op, rfl⟩, side, rfl⟩ := h
    obtain rfl := Option.some.inj described
    simp [Operator.symbol]
  | unaryOperand =>
    obtain ⟨sign, rfl⟩ := h
    obtain rfl := Option.some.inj described
    simp [Operator.symbol]
  | transposeOperand =>
    obtain rfl := Option.some.inj described
    simp
  | parentheses =>
    obtain rfl := Option.some.inj described
    simp
  | functionArgument =>
    obtain ⟨name, rfl, isName⟩ := h
    obtain rfl := Option.some.inj described
    have plain : '\n' ∉ name.toList := fun mem => absurd (isName.2 _ mem) (by decide)
    simp [plain]

theorem Cause.notMem_help (h : cause.ShownBetween before behind) : '\n' ∉ cause.help.toList := by
  cases cause with
  | unmatchedBracket =>
    obtain ⟨bracket, mem, rfl, -⟩ := h
    have ne : '\n' ≠ bracket := by
      rintro rfl
      simp at mem
    unfold help
    simp [ne]
  | _ =>
    unfold help
    simp

theorem Cause.help_ne_empty (cause : Cause) : cause.help ≠ "" := by
  rw [ne_eq, ← String.toList_inj]
  cases cause <;> unfold help <;> simp

theorem Cause.notMem_message_iff (h : cause.ShownBetween before behind) :
    '\n' ∉ cause.message.toList ↔ cause ≠ .invalidCharacter "\n" := by
  cases cause with
  | invalidCharacter =>
    obtain ⟨c, rest, rfl, -⟩ := h
    have feed : c.toString = "\n" ↔ '\n' = c := by
      rw [← String.toList_inj]
      simp [eq_comm]
    rw [ne_eq, invalidCharacter.injEq, feed]
    unfold message
    simp
  | _ =>
    unfold message
    simp

theorem Kind.notMem_code (k : Kind) : '\n' ∉ k.code.toList := by
  cases k <;> decide

/-! ### A report as lines -/

/-- The line on which a location is shown. -/
def Location.shownLine (l : Location) : String := s!"  --> {l.lineColumn} (offset {l.offset})"

namespace Failure

/-- What stands in front of everything else that is shown of a failure. -/
def header (f : Failure) : String := s!"ERROR[{f.cause.kind.code}]: {f.cause.message}"

/-- The line on which a step of a trail is shown. -/
def ShownOn (frame : Frame) (line : List Char) : Prop :=
  ∃ phrase, frame.context.note.describe? = some phrase ∧
    line = (s!"  while parsing {phrase} at offset {frame.cursor.start}").toList

/-- The lines below the header: one for the location, then the breadcrumbs, one for the help text,
and the snippet. -/
def below (source : String) (f : Failure) (crumbs snippet : List (List Char)) :
    List (List Char) :=
  (Location.ofOffset source f.position).shownLine.toList :: crumbs ++
    (s!"  help: {f.cause.help}").toList :: snippet

/-- A text that shows a failure of a source and consists of terminated lines: those of a heading and
those below it, with one breadcrumb for each step of the trail, outermost first, and three lines
for the snippet. -/
def LinesUp (source : String) (f : Failure) (heading : List (List Char)) (w : String) : Prop :=
  ∃ crumbs snippet, lines w.toList = heading ++ f.below source crumbs snippet ++ [[]] ∧
    List.Forall₂ ShownOn f.trail crumbs ∧ snippet.length = 3 ∧
    (Location.ofOffset source f.position).snippet? source =
      some (String.ofList (terminated snippet))

/-- A heading of one line has no line feed. -/
theorem LinesUp.notMem_heading {line : List Char} (h : f.LinesUp source [line] w) :
    '\n' ∉ line := by
  obtain ⟨crumbs, snippet, eq, -⟩ := h
  have mem : line ∈ lines w.toList := by
    rw [eq]
    simp
  exact Text.notMem_of_mem_lines mem

end Failure

theorem forall₂_of_mapM_eq_some {α β : Type} {g : α → Option β} {items : List α} {ys : List β}
    (h : items.mapM g = some ys) : List.Forall₂ (fun x y => g x = some y) items ys := by
  induction items generalizing ys with
  | nil =>
    obtain rfl := Option.some.inj h
    exact .nil
  | cons x items ih =>
    simp only [List.mapM_cons, Option.bind_eq_bind, Option.bind_eq_some_iff, Option.pure_def,
      Option.some.injEq] at h
    obtain ⟨y, here, ys, there, rfl⟩ := h
    exact .cons here (ih there)

namespace Failure

/-- Every breadcrumb is shown on a line of its own. -/
theorem shownOn_of_breadcrumbs
    (h : (Report.ofFailure f (some source)).breadcrumbs? = some crumbs) :
    List.Forall₂ ShownOn f.trail (crumbs.map fun crumb => ("  " ++ crumb).toList) := by
  rw [List.forall₂_map_right_iff]
  have steps := forall₂_of_mapM_eq_some h
  rw [Report.ofFailure, List.forall₂_map_left_iff] at steps
  refine steps.imp fun frame crumb eq => ?_
  obtain ⟨phrase, described, rfl⟩ := Option.map_eq_some_iff.1 eq
  exact ⟨phrase, described, by simp⟩

theorem feeds_of_shownOn {trail : List Frame} {ls : List (List Char)}
    (h : List.Forall₂ ShownOn trail ls) (complete : ∀ frame ∈ trail, frame.context.note.Complete) :
    ∀ l ∈ ls, '\n' ∉ l := by
  induction h with
  | nil => nofun
  | cons here _ ih =>
    obtain ⟨first, others⟩ := List.forall_mem_cons.1 complete
    refine List.forall_mem_cons.2 ⟨?_, ih others⟩
    obtain ⟨phrase, described, rfl⟩ := here
    simp [first.notMem_phrase described, Location.notMem_toDigits]

end Failure

theorem Diagnostic.part_some {text : String} (h : text ≠ "") (display : String → String) :
    part (some text) display = display text := by
  rw [part, String.isEmpty_eq_false_iff.2 h]
  rfl

/-- What is shown of a failure is its header and then its other parts as terminated lines. -/
theorem Report.render?_ofFailure
    (notes : (ofFailure f (some source)).breadcrumbs? = some crumbs)
    (shown : (Location.ofOffset source f.position).snippet? source =
      some (String.ofList (terminated snippet))) (nonempty : snippet ≠ []) :
    ∃ w, (ofFailure f (some source)).render? = some w ∧
      w.toList = f.header.toList ++ '\n' :: terminated
        (f.below source (crumbs.map fun crumb => ("  " ++ crumb).toList) snippet) := by
  have code : f.cause.kind.code ≠ "" := by
    cases f.cause.kind <;> decide
  have picture : String.ofList (terminated snippet) ≠ "" := by
    obtain ⟨l, ls, rfl⟩ := List.exists_cons_of_ne_nil nonempty
    rw [ne_eq, ← String.toList_inj]
    simp
  have severity : Text.upper "error" = "ERROR" := by
    have ascii : ∀ c ∈ "error".toList, c.toNat < 128 := by simp
    rw [Text.upper_of_ascii ascii, ← String.toList_inj, String.toList_map]
    decide
  rw [render?, diagnostic?, notes]
  refine ⟨_, rfl, ?_⟩
  simp only [Diagnostic.render, ofFailure, ofCause, location?, Option.bind_some, Option.map_some,
    shown]
  rw [Diagnostic.part_some code, Diagnostic.part_some f.cause.help_ne_empty,
    Diagnostic.part_some picture]
  simp [Failure.header, severity, Failure.below, Location.shownLine, terminated, List.flatMap_map]

theorem Location.notMem_shownLine (source : String) (offset : Int) :
    '\n' ∉ (ofOffset source offset).shownLine.toList := by
  obtain ⟨ls, last, behind, cut⟩ := exists_cutAt source offset
  obtain ⟨line, column, offset', eq⟩ : ∃ n m k : Nat, ofOffset source offset = ⟨n, m, k⟩ :=
    ⟨_, _, _, cut.ofOffset_eq⟩
  rw [eq]
  have number (n : Nat) : '\n' ∉ (n : Int).repr.toList := notMem_repr n (by decide)
  simp [shownLine, lineColumn, number]

theorem Failure.notMem_header_iff (h : f.cause.ShownBetween before behind) :
    '\n' ∉ f.header.toList ↔ f.cause ≠ .invalidCharacter "\n" := by
  rw [← Cause.notMem_message_iff h]
  simp [header, Kind.notMem_code]

/-- Below the header no line has a line feed of its own. -/
theorem Failure.feeds_below {crumbs : List (List Char)} (h : f.cause.ShownBetween before behind)
    (crumbs_feeds : ∀ l ∈ crumbs, '\n' ∉ l) (snippet_feeds : ∀ l ∈ snippet, '\n' ∉ l) :
    ∀ l ∈ f.below source crumbs snippet, '\n' ∉ l := by
  have help : '\n' ∉ (s!"  help: {f.cause.help}").toList := by
    simp [Cause.notMem_help h]
  refine List.forall_mem_append.2 ⟨?_, List.forall_mem_cons.2 ⟨help, snippet_feeds⟩⟩
  exact List.forall_mem_cons.2 ⟨Location.notMem_shownLine source f.position, crumbs_feeds⟩

/-- Every failure to parse a text is reported in lines. The header is a single one unless it quotes
a line feed. -/
theorem Report.linesUp_ofText {text : String} (failed : (parse text).result = .error f) :
    ∃ r w, Reading.ofText text = .error r ∧ r.render? = some w ∧
      f.LinesUp text (lines f.header.toList) w ∧
      (f.LinesUp text [f.header.toList] w ↔ f.cause ≠ .invalidCharacter "\n") := by
  obtain ⟨before, behind, -, -, evidence, -⟩ := evident_of_run _ _ _ failed
  have nests := (trailIn_of_run _ _ _ failed).nestsIn
  obtain ⟨crumbs, notes⟩ := nests.described
  obtain ⟨line, shown, snippet_feeds⟩ := Location.exists_snippet text f.position
  obtain ⟨w, rendered, text_eq⟩ := render?_ofFailure notes shown (List.cons_ne_nil _ _)
  have steps := Failure.shownOn_of_breadcrumbs notes
  have feeds : ∀ l ∈ f.below text _ _, '\n' ∉ l :=
    Failure.feeds_below evidence (Failure.feeds_of_shownOn steps nests.complete) snippet_feeds
  have cut := congrArg lines text_eq
  rw [Text.lines_append_feed_append, Text.lines_terminated feeds, ← List.append_assoc] at cut
  refine ⟨_, w, Reading.ofText_eq_error_iff.2 ⟨f, failed, rfl⟩, rendered,
    ⟨_, _, cut, steps, rfl, shown⟩, ?_⟩
  rw [← Failure.notMem_header_iff evidence]
  refine ⟨Failure.LinesUp.notMem_heading, fun feed => ?_⟩
  rw [Text.lines_of_notMem feed] at cut
  exact ⟨_, _, cut, steps, rfl, shown⟩

/-- A quotient on the second line lacks its right operand. -/
theorem Report.linesUp_ofText_second_line :
    ∃ f r w, (parse "a *\nb / ").result = .error f ∧ f.trail.length = 1 ∧
      Reading.ofText "a *\nb / " = .error r ∧ r.render? = some w ∧
      f.LinesUp "a *\nb / " [f.header.toList] w := by
  have failed : (parse "a *\nb / ").result = .error ⟨.missingOperand .right .divide, 7,
      [⟨.operand .right .divide, ⟨[], 7⟩⟩]⟩ := by cbv
  obtain ⟨r, w, reported, rendered, -, single⟩ := linesUp_ofText failed
  exact ⟨_, r, w, failed, rfl, reported, rendered, single.2 (by decide)⟩

/-! ### A line feed in the header -/

section

variable {l r : List Char} {x : Char}

/-- The first character between two names that is not one of a name is reported. -/
theorem step_between (hl : IsName l) (hr : IsName r) (no_name : isNameChar x = false)
    (no_bracket : isBracket x = false) (start : Nat) :
    Level.primary.step ⟨l ++ x :: r, start⟩ =
      .fail (.invalidCharacter x.toString) (start + l.length) := by
  have not_mem {y : Char} (bracket : isBracket y = true) : y ∉ l ++ x :: r := by
    have plain : isNameChar y = false := by
      rw [← Bool.not_eq_true]
      intro name
      simp [isBracket_eq_false_of_isNameChar name] at bracket
    rw [List.mem_append, List.mem_cons]
    rintro (left | rfl | right)
    · simp [hl.2 y left] at plain
    · simp [no_bracket] at bracket
    · simp [hr.2 y right] at plain
  have head : (Cursor.mk (l ++ x :: r) start).first? ≠ some '(' := fun h =>
    not_mem (by decide) (List.mem_of_mem_head? h)
  have rest : (l ++ x :: r).dropWhile isNameChar = x :: r := by
    rw [List.dropWhile_append_of_pos hl.2, List.dropWhile_cons_of_neg (by simp [no_name])]
  have before : (l ++ x :: r).takeWhile isNameChar = l := by
    rw [List.takeWhile_append_of_pos hl.2, List.takeWhile_cons_of_neg (by simp [no_name]),
      List.append_nil]
  rw [Level.step, Step.ofPrimary, if_neg head, if_neg (not_mem (by decide)), Step.ofSymbol,
    Step.name]
  simp only [rest, before]

/-- Between two names there must be an operator or a bracket. Any other character that stands there
is found not to belong to a name. -/
theorem result_run_between (hl : IsName l) (hr : IsName r) (no_name : isNameChar x = false)
    (no_bracket : isBracket x = false) (no_operator : ∀ op : BinaryOperator, x ≠ op.symbol)
    (start : Nat) :
    (run .additive ⟨l ++ x :: r, start⟩).result =
      .error (.bare (.invalidCharacter x.toString) (start + l.length)) := by
  have core : Core (l ++ x :: r) := by
    simpa using hl.core.append hr.core [x]
  have hides (operators : List BinaryOperator) : Hides operators (l ++ x :: r) := by
    refine hides_of_forall fun op _ => ?_
    have left : op.symbol ∉ l := fun mem => absurd (hl.2 _ mem) (by cases op <;> decide)
    have right : op.symbol ∉ r := fun mem => absurd (hr.2 _ mem) (by cases op <;> decide)
    simp [left, right, (no_operator op).symm]
  -- the text begins and ends with characters of names, so there is no sign and no mark
  have no_sign : ∀ y ∈ (l ++ x :: r).head?, Sign.ofChar? y = none := by
    rw [List.head?_append_of_ne_nil _ hl.1]
    intro y mem
    have isName := hl.2 y (List.mem_of_mem_head? mem)
    cases found : Sign.ofChar? y with
    | none => rfl
    | some sign =>
      obtain rfl := Sign.symbol_of_ofChar? found
      exact absurd isName (by cases sign <;> decide)
  have no_mark : (l ++ x :: r).getLast? ≠ some transposeMark := by
    rw [List.append_cons, List.getLast?_append_of_ne_nil _ hr.1]
    exact fun last => absurd (hr.2 _ (List.mem_of_getLast? last)) (by decide)
  rw [result_run_of_hides rfl (by decide) (hides _) core.not_blank,
    result_run_of_hides rfl (by decide) (hides _) core.not_blank,
    result_run_of_hides rfl (by decide) (hides _) core.not_blank,
    result_run_of_descend core (step_unary_iff.2 no_sign),
    result_run_of_descend core (step_transpose_iff.2 no_mark)]
  refine result_of_fail core.not_blank ?_
  rw [Cursor.trim_eq_self core]
  exact step_between hl hr no_name no_bracket start

end

/-- A line feed between two characters of names is quoted as it is. The header has a second line,
and the whole has seven for a failure without a trail. -/
theorem Report.not_linesUp_feed :
    (parse "a\nb").result = .error ⟨.invalidCharacter "\n", 1, []⟩ ∧
      ∃ r w, Reading.ofText "a\nb" = .error r ∧ r.render? = some w ∧ w.toList.count '\n' = 7 ∧
        ¬ Failure.LinesUp "a\nb" ⟨.invalidCharacter "\n", 1, []⟩
          [(Failure.header ⟨.invalidCharacter "\n", 1, []⟩).toList] w := by
  have failed : (parse "a\nb").result = .error ⟨.invalidCharacter "\n", 1, []⟩ :=
    result_run_between (l := ['a']) (r := ['b']) (by decide) (by decide) (by decide) (by decide)
      BinaryOperator.feed_ne_symbol 0
  refine ⟨failed, _, _, Reading.ofText_eq_error_iff.2 ⟨_, failed, rfl⟩, rfl, by decide +kernel,
    fun lines_up => ?_⟩
  have feed : '\n' ∈ (Failure.header ⟨.invalidCharacter "\n", 1, []⟩).toList := by decide
  exact lines_up.notMem_heading feed

end Formula
