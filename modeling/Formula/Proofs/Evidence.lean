import Formula.Proofs.Run
import Formula.Proofs.Written
import Formula.Reading

/-!
# Evidence of failures

Every failure of the parser points at what it is about (`evident_of_run`). Evidence found in a
part of a text is evidence in the whole, with one exception: an operand that is missing at the end
of the part is missing in the whole only if no operand can follow the part. The parser reports such
failures at the end of what it has trimmed, which is where a chain looks for them before it takes an
operator for a sign.
-/

namespace Formula

open BinaryOperator (symbol)

variable {level level' next : Level} {c part whole : Cursor} {cause : Cause} {position start : Nat}
  {before behind l r v w text : List Char} {op : BinaryOperator} {folded : Folded}

/-! ### Evidence in a stretch -/

/-- Whether an operand is missing and nothing but blanks follow. -/
def Cause.Unfinished (behind : List Char) : Cause → Prop
  | missingOperand .right _ => Blank behind
  | _ => False

theorem Cause.Unfinished.kind_eq (h : cause.Unfinished behind) : cause.kind = .missingOperand := by
  cases cause with
  | missingOperand => rfl
  | _ => exact h.elim

theorem Cause.Unfinished.of_append (h : cause.Unfinished (behind ++ r)) :
    cause.Unfinished behind ∧ Blank r := by
  cases cause with
  | missingOperand side =>
    cases side with
    | left => exact h.elim
    | right => exact blank_append.1 h
  | _ => exact h.elim

/-- What is shown in a stretch is shown in a longer one, if an operand that is missing at the end is
missing there, too. -/
theorem Cause.ShownBetween.extend (h : cause.ShownBetween before behind)
    (nonempty : cause ≠ .emptyInput) (ends : cause.Unfinished behind → EndsOperand r) :
    cause.ShownBetween (l ++ before) (behind ++ r) := by
  cases cause with
  | emptyInput => exact absurd rfl nonempty
  | missingOperand side op =>
    cases side with
    | left =>
      obtain ⟨no_sign, rest, rfl⟩ := h
      exact ⟨no_sign, rest ++ r, rfl⟩
    | right =>
      obtain ⟨⟨front, w, rfl, hw⟩, follows⟩ := h
      refine ⟨⟨l ++ front, w, by simp, hw⟩, ?_⟩
      -- what follows the missing operand is in the longer stretch only if it was not in the shorter
      rcases follows with blank | ⟨v, c, rest, rfl, hv, mem⟩
      · rcases ends blank with blank_r | ⟨v, c, rest, rfl, hv, mem⟩
        · exact .inl (blank_append.2 ⟨blank, blank_r⟩)
        · exact .inr ⟨behind ++ v, c, rest, by simp, blank_append.2 ⟨blank, hv⟩, mem⟩
      · exact .inr ⟨v, c, rest ++ r, by simp, hv, mem⟩
  | missingSignOperand =>
    obtain ⟨front, rfl⟩ := h
    exact ⟨l ++ front, by simp⟩
  | missingTransposeOperand =>
    obtain ⟨rest, rfl⟩ := h
    exact ⟨rest ++ r, rfl⟩
  | unmatchedBracket =>
    obtain ⟨bracket, mem, eq, front, c, rfl, solid⟩ := h
    exact ⟨bracket, mem, eq, l ++ front, c, by simp, solid⟩
  | emptyBrackets =>
    obtain ⟨pair, mem, front, w, rest, rfl, rfl, hw⟩ := h
    exact ⟨pair, mem, l ++ front, w, rest ++ r, by simp, by simp, hw⟩
  | invalidCharacter =>
    obtain ⟨c, rest, eq, rfl, bad⟩ := h
    exact ⟨c, rest ++ r, eq, rfl, bad⟩

/-- A failure of a level has its evidence in the cursor. If it is for want of an operand at the end,
the level has binary operators and the position is the end of the trimmed cursor. -/
def Evident (level : Level) (c : Cursor) (cause : Cause) (position : Nat) : Prop :=
  ∃ before behind, c.text = before ++ behind ∧ position = c.start + before.length ∧
    cause.ShownBetween before behind ∧
    (cause.Unfinished behind → 3 ≤ level.rank ∧ position = c.trim.stop)

theorem Evident.ne_emptyInput (h : Evident level c cause position) (not_blank : ¬ Blank c.text) :
    cause ≠ .emptyInput := by
  rintro rfl
  obtain ⟨before, behind, text, -, ⟨blank, rfl⟩, -⟩ := h
  rw [text, List.append_nil] at not_blank
  exact not_blank blank

theorem Evident.blank (h : Evident level c .emptyInput position) :
    Blank c.text ∧ position = c.start + c.text.length := by
  obtain ⟨before, behind, text, position, ⟨blank, rfl⟩, -⟩ := h
  rw [List.append_nil] at text
  exact ⟨text ▸ blank, by rw [text, position]⟩

/-- The evidence in a part is evidence in the whole. -/
theorem Evident.of_part (h : Evident level part cause position) (nonempty : cause ≠ .emptyInput)
    (text : whole.text = l ++ part.text ++ r) (at_part : part.start = whole.start + l.length)
    (rest : cause.kind = .missingOperand → 3 ≤ level.rank → position = part.trim.stop →
      EndsOperand r ∧ (Blank r → 3 ≤ level'.rank ∧ position = whole.trim.stop)) :
    Evident level' whole cause position := by
  obtain ⟨before, behind, eq, rfl, shown, unfinished⟩ := h
  refine ⟨l ++ before, behind ++ r, by simp [text, eq], by simp [at_part, Nat.add_assoc],
    shown.extend nonempty fun h => ?_, fun h => ?_⟩
  · obtain ⟨rank, stop⟩ := unfinished h
    exact (rest h.kind_eq rank stop).1
  · obtain ⟨h, blank⟩ := h.of_append
    obtain ⟨rank, stop⟩ := unfinished h
    exact (rest h.kind_eq rank stop).2 blank

/-- An operator with nothing in front of it. -/
theorem evident_missing_left (no_sign : op ∉ BinaryOperator.additive)
    (text : whole.text = l ++ op.symbol :: r) (at_op : position = whole.start + l.length) :
    Evident level whole (.missingOperand .left op) position :=
  ⟨l, op.symbol :: r, text, at_op, ⟨no_sign, r, rfl⟩, False.elim⟩

/-- An operator with nothing but blanks between it and the end of its operand. -/
theorem evident_missing_right (text : whole.text = l ++ op.symbol :: (w ++ r)) (hw : Blank w)
    (ends : EndsOperand r) (at_post : position = whole.start + (l ++ op.symbol :: w).length)
    (rest : Blank r → 3 ≤ level.rank ∧ position = whole.trim.stop) :
    Evident level whole (.missingOperand .right op) position :=
  ⟨l ++ op.symbol :: w, r, by simp [text], at_post, ⟨⟨l, w, rfl, hw⟩, ends⟩, rest⟩

/-! ### Evidence of every run -/

/-- The evidence in the core of a cursor is evidence in the cursor. -/
theorem Evident.of_trim (h : Evident level c.trim cause position) (not_blank : ¬ Blank c.text) :
    Evident level c cause position := by
  obtain ⟨v, u, w, -, -, hw, text, trimmed⟩ := Cursor.exists_trim not_blank
  have nonempty := h.ne_emptyInput (Cursor.core_trim not_blank).not_blank
  refine h.of_part (l := v) (r := w) nonempty (by rw [text, trimmed]) (by rw [trimmed])
    fun _ rank stop => ⟨.inl hw, fun _ => ⟨rank, ?_⟩⟩
  rw [stop, Cursor.trim_trim]

/-- The operand of a construct is followed by a bracket, or parsed by a level without binary
operators. -/
theorem Enclosure.Encloses.closed {enclosure : Enclosure} (h : enclosure.Encloses before behind)
    (rank : 3 ≤ enclosure.operandLevel.rank) : EndsOperand behind ∧ ¬ Blank behind := by
  cases h with
  | sign => exact absurd rank (show ¬ 3 ≤ Level.transpose.rank by decide)
  | transpose => exact absurd rank (by decide)
  | parentheses => exact ⟨.inr ⟨[], ')', [], rfl, blank_nil, by decide⟩, by decide⟩
  | function => exact ⟨.inr ⟨[], ']', [], rfl, blank_nil, by decide⟩, by decide⟩

/-- The text in front of the operand in hand ends with the operator in front of it. -/
def Folded.Ends (level : Level) (before : List Char) : Folded → Prop
  | none => before = []
  | some (_, op) => op ∈ level.operators ∧ ∃ l, before = l ++ [op.symbol]

/-- A binary operator that is no sign may follow where an operand is missing. -/
theorem Level.Chains.endsOperand (h : level.Chains next) (mem : op ∈ level.operators)
    (no_sign : op ∉ BinaryOperator.additive) : EndsOperand (op.symbol :: r) := by
  cases h with
  | sums => exact absurd mem no_sign
  | products =>
    refine .inr ⟨[], op.symbol, r, rfl, blank_nil, ?_⟩
    revert mem
    cases op <;> decide

/-- A part at the end of a core ends where the core does. -/
theorem stop_trim_part (core : Core whole.text) (text : whole.text = l ++ part.text)
    (at_part : part.start = whole.start + l.length) : part.trim.stop = whole.trim.stop := by
  obtain ⟨part_text, part_start⟩ := part
  obtain ⟨whole_text, whole_start⟩ := whole
  obtain rfl : whole_text = l ++ part_text := text
  obtain rfl : part_start = whole_start + l.length := at_part
  have last : ∀ c ∈ part_text.getLast?, isBlank c = false := by
    intro c mem
    have ne : part_text ≠ [] := by
      rintro rfl
      cases mem
    exact core.last c (by rwa [List.getLast?_append_of_ne_nil _ ne])
  rw [Cursor.stop_trim _ last, Cursor.stop_trim _ core.last, List.length_append, Nat.add_assoc]

theorem Evident.position_of_empty {e : Failure} (h : Evident level part e.cause e.position)
    (empty : e.cause = .emptyInput) : Blank part.text ∧ e.position = part.trim.stop := by
  rw [empty] at h
  obtain ⟨blank, position⟩ := h.blank
  refine ⟨blank, ?_⟩
  rw [position, Cursor.trim_of_blank blank]
  rfl

/-- What a failure of the left operand of an operator is evidence of. -/
theorem Evident.left_operand {e f : Failure} (h : Evident next part e.cause e.position)
    (as_operand : Failure.ofOperand .left op part e = f)
    (text : whole.text = part.text ++ op.symbol :: r) (at_part : part.start = whole.start)
    (rest : f.cause.kind = .missingOperand → f.position = part.trim.stop →
      op ∉ BinaryOperator.additive ∧ (3 ≤ next.rank → EndsOperand (op.symbol :: r))) :
    Evident level whole f.cause f.position := by
  subst as_operand
  rw [Failure.position_ofOperand, Failure.cause_ofOperand] at rest ⊢
  split at rest
  · -- an operand of blanks alone is reported as missing, at the operator
    next empty =>
    obtain ⟨-, stop⟩ := h.position_of_empty empty
    rw [empty] at h
    rw [if_pos empty]
    exact evident_missing_left (rest rfl stop).1 text (by rw [h.blank.2, at_part])
  · next nonempty =>
    rw [if_neg nonempty]
    refine h.of_part (l := []) (r := op.symbol :: r) nonempty text at_part ?_
    intro kind rank stop
    refine ⟨(rest kind stop).2 rank, fun blank => ?_⟩
    exact absurd blank (not_blank_append_cons (l := []) op.isBlank_symbol)

/-- What a failure of the right operand of an operator is evidence of. -/
theorem Evident.right_operand {e f : Failure} (h : Evident next part e.cause e.position)
    (as_operand : Failure.ofOperand .right op part e = f)
    (text : whole.text = l ++ op.symbol :: (part.text ++ r))
    (at_part : part.start = whole.start + l.length + 1)
    (rest : f.cause.kind = .missingOperand → f.position = part.trim.stop →
      EndsOperand r ∧ (Blank r → 3 ≤ level.rank ∧ f.position = whole.trim.stop)) :
    Evident level whole f.cause f.position := by
  subst as_operand
  rw [Failure.position_ofOperand, Failure.cause_ofOperand] at rest ⊢
  split at rest
  · -- an operand of blanks alone is reported as missing, behind the blanks
    next empty =>
    obtain ⟨blank, stop⟩ := h.position_of_empty empty
    obtain ⟨ends, last⟩ := rest rfl stop
    rw [empty] at h
    rw [if_pos empty]
    refine evident_missing_right text blank ends ?_ last
    rw [h.blank.2, at_part]
    simp
    omega
  · next nonempty =>
    rw [if_neg nonempty]
    exact h.of_part (l := l ++ [op.symbol]) nonempty (by simp [text]) (by simp [at_part]; omega)
      fun kind _ stop => rest kind stop

theorem Evident.loosen (h : Evident next c cause position) (le : next.rank ≤ level.rank) :
    Evident level c cause position := by
  obtain ⟨before, behind, text, at_behind, shown, unfinished⟩ := h
  refine ⟨before, behind, text, at_behind, shown, fun h => ?_⟩
  obtain ⟨rank, stop⟩ := unfinished h
  exact ⟨Nat.le_trans rank le, stop⟩

/-- The failure of an operand at which a chain stops is no reason to read on. -/
theorem evident_more {f : Failure} {r : Run Outcome} {pending : Cursor} {rest : List Char}
    (h : ∀ e, r.result = .error e → Evident next pending e.cause e.position)
    (chains : level.Chains next) (mem : op ∈ level.operators) (ends : folded.Ends level before)
    (at_pending : pending.start = start + before.length)
    (failed : (folded.asOperand op pending r).result = .error f)
    (stops : ¬ (op.canSign && f.isDangling pending) = true) :
    Evident level ⟨before ++ (pending.text ++ op.symbol :: rest), start⟩ f.cause f.position := by
  -- in front of a sign the chain would have read on
  have no_sign (kind : f.cause.kind = .missingOperand) (stop : f.position = pending.trim.stop) :
      op ∉ BinaryOperator.additive := by
    intro sign
    rw [← BinaryOperator.canSign_iff] at sign
    exact stops (by rw [sign, Failure.isDangling_iff.2 ⟨kind, stop⟩]; rfl)
  cases folded with
  | none =>
    obtain rfl : before = [] := ends
    obtain ⟨e, failed, as_operand⟩ := Run.result_mapFailure_eq_error.1 failed
    exact (h e failed).left_operand as_operand rfl at_pending fun kind stop =>
      ⟨no_sign kind stop, fun _ => chains.endsOperand mem (no_sign kind stop)⟩
  | some folded =>
    obtain ⟨-, l, rfl⟩ := ends
    obtain ⟨e, failed, as_operand⟩ := Run.result_mapFailure_eq_error.1 failed
    refine (h e failed).right_operand (l := l) (r := op.symbol :: rest) as_operand (by simp)
      (by simp [at_pending]; omega) fun kind stop => ?_
    refine ⟨chains.endsOperand mem (no_sign kind stop), fun blank => ?_⟩
    exact absurd blank (not_blank_append_cons (l := []) op.isBlank_symbol)

/-- Every failure of a run has its evidence in the cursor. -/
theorem evident_of_run : ∀ (level : Level) (c : Cursor) (f : Failure),
    (run level c).result = .error f → Evident level c f.cause f.position := by
  refine (run_induction
    (P := fun level c r => ∀ f, r.result = .error f → Evident level c f.cause f.position)
    (Q := fun next folded pending tail r => ∀ level start before, level.Chains next →
      (∀ p ∈ tail, p.1 ∈ level.operators) → folded.Ends level before →
      pending.start = start + before.length → Core (before ++ joined symbol pending.text tail) →
      ∀ f, r.result = .error f →
        Evident level ⟨before ++ joined symbol pending.text tail, start⟩ f.cause f.position)
    ?blank ?fail ?symbol ?descend ?enclose ?power ?chain ?last ?more).1
  case blank =>
    intro level c blank f h
    obtain rfl := Except.error.inj h
    have position : c.trim.start = c.start + c.text.length := by rw [Cursor.trim_of_blank blank]
    exact ⟨c.text, [], by simp, position, ⟨blank, rfl⟩, False.elim⟩
  case fail =>
    rintro level c cause position not_blank ⟨kind, before, behind, text, at_behind, shown⟩ f h
    obtain rfl := Except.error.inj h
    refine .of_trim ?_ not_blank
    exact ⟨before, behind, text, at_behind, shown, fun h => absurd h.kind_eq kind⟩
  case symbol =>
    intro level c occurrence _ _ f h
    cases h
  case descend =>
    intro level c next r not_blank next_level ih f h
    exact ((ih f h).loosen (Level.rank_le_of_next? next_level)).of_trim not_blank
  case enclose =>
    rintro level c enclosure operand r not_blank ⟨-, operand_text, before, behind, encloses, text,
      at_operand⟩ ih f h
    obtain ⟨e, failed, rfl⟩ := Run.result_mapFailure_eq_error.1 (Run.result_map_eq_error.1 h)
    have inner := ih e failed
    refine .of_trim ?_ not_blank
    refine inner.of_part (inner.ne_emptyInput operand_text) text at_operand fun _ rank _ => ?_
    obtain ⟨ends, solid⟩ := encloses.closed rank
    exact ⟨ends, fun blank => absurd blank solid⟩
  case power =>
    rintro level c base op exponent r s not_blank ⟨rfl, mem, text, at_base, at_exponent⟩
      ih_base ih_exponent f h
    refine .of_trim ?_ not_blank
    -- the base cannot lack an operand at its end; the exponent can, and it ends the cursor
    rcases Run.result_andThen_eq_error.1 h with failed | ⟨left, -, failed⟩
    · obtain ⟨e, failed, as_operand⟩ := Run.result_mapFailure_eq_error.1 failed
      refine (ih_base e failed).left_operand as_operand text at_base fun _ _ => ⟨?_, ?_⟩
      · revert mem
        cases op <;> decide
      · exact fun rank => absurd rank (by decide)
    · obtain ⟨e, failed, as_operand⟩ :=
        Run.result_mapFailure_eq_error.1 (Run.result_map_eq_error.1 failed)
      refine (ih_exponent e failed).right_operand (r := []) as_operand (by simp [text])
        at_exponent fun _ stop => ⟨.inl blank_nil, fun _ => ⟨by decide, ?_⟩⟩
      rw [stop]
      exact stop_trim_part (l := base.text ++ [op.symbol]) (Cursor.core_trim not_blank)
        (by simp [text]) (by simp [at_exponent, Cursor.length]; omega)
  case chain =>
    rintro level c next head tail r not_blank ⟨chains, at_head, text, mem⟩ ih f h
    have core := Cursor.core_trim not_blank
    rw [← text] at core
    have whole := ih level c.trim.start [] chains mem rfl at_head core f h
    rw [List.nil_append, text] at whole
    exact whole.of_trim not_blank
  case last =>
    intro next folded pending r ih level start before chains _ ends at_pending core f h
    -- the last operand ends where the whole chain ends
    rw [joined_nil] at core ⊢
    have stop : pending.trim.stop = (Cursor.mk (before ++ pending.text) start).trim.stop :=
      stop_trim_part core rfl at_pending
    have failed := Run.result_map_eq_error.1 h
    cases folded with
    | none =>
      obtain rfl : before = [] := ends
      exact (ih f failed).of_part (l := []) (r := [])
        ((ih f failed).ne_emptyInput core.not_blank) (by simp) at_pending
        fun _ _ at_stop => ⟨.inl blank_nil, fun _ => ⟨chains.rank, at_stop.trans stop⟩⟩
    | some folded =>
      obtain ⟨-, l, rfl⟩ := ends
      obtain ⟨e, failed, as_operand⟩ := Run.result_mapFailure_eq_error.1 failed
      exact (ih e failed).right_operand (r := []) (l := l) as_operand (by simp)
        (by simp [at_pending]; omega)
        fun _ at_stop => ⟨.inl blank_nil, fun _ => ⟨chains.rank, at_stop.trans stop⟩⟩
  case more =>
    intro next folded pending op text rest r beyond widened ih ih_beyond ih_widened level start
      before chains mem ends at_pending core f h
    have op_mem : op ∈ level.operators := mem _ List.mem_cons_self
    have rest_mem : ∀ p ∈ rest, p.1 ∈ level.operators := fun p hp =>
      mem p (List.mem_cons_of_mem _ hp)
    rw [Run.result_follow] at h
    split at h
    · next operand ok =>
      rw [append_joined_cons] at core ⊢
      exact ih_beyond operand level start _ chains rest_mem ⟨op_mem, _, rfl⟩
        (Cursor.start_beyond op text at_pending) core f h
    · next e failed =>
      -- either the chain reads on with a wider operand, or the failure is that of the chain
      split at h
      · rw [← joined_append_cons] at core ⊢
        exact ih_widened level start before chains rest_mem ends at_pending core f h
      · next stops =>
        obtain rfl := Except.error.inj h
        rw [joined_cons]
        exact evident_more ih chains op_mem ends at_pending failed stops

/-! ### Evidence of a report -/

/-- What a report carries and what is to be seen around its position: the particulars that its kind
requires, no others, and their evidence. -/
def Report.ShownBetween (before behind : List Char) (r : Report) : Prop :=
  match r.kind, r.side?, r.operator?, r.character? with
  | .emptyInput, none, none, none => Blank before ∧ behind = []
  | .missingOperand, some .left, some (.binary op), none =>
    op ∉ BinaryOperator.additive ∧ ∃ rest, behind = op.symbol :: rest
  | .missingOperand, some .right, some (.binary op), none =>
    (∃ rest w, before = rest ++ op.symbol :: w ∧ Blank w) ∧
      (Blank behind ∨ ∃ w c rest, behind = w ++ c :: rest ∧ Blank w ∧ c ∈ [')', ']', '*', '/'])
  | .missingSignOperand, none, some (.sign sign), none => ∃ rest, before = rest ++ [sign.symbol]
  | .missingTransposeOperand, none, none, none => ∃ rest, behind = transposeMark :: rest
  | .unmatchedBracket, none, none, none => ∃ bracket ∈ [')', ']'],
    r.help? = some s!"Add a closing '{bracket}'." ∧
      ∃ rest c, before = rest ++ [c] ∧ isBlank c = false ∧ c ≠ bracket
  | .emptyBrackets, none, none, none => ∃ pair ∈ [('(', ')'), ('[', ']')], ∃ front w rest,
    before = front ++ [pair.1] ∧ behind = w ++ pair.2 :: rest ∧ Blank w
  | .invalidCharacter, none, none, some character => ∃ c rest,
    character = c.toString ∧ behind = c :: rest ∧ isNameChar c = false
  | _, _, _, _ => False

/-- A report of a text that points at its evidence. -/
structure Report.PointsInto (text : String) (r : Report) : Prop where
  source : r.source? = some text
  nonneg : 0 ≤ r.position
  le_length : r.position ≤ text.length
  empty_iff : r.kind = .emptyInput ↔ Blank text.toList
  shown : ∃ before behind, text.toList = before ++ behind ∧ r.position = before.length ∧
    r.ShownBetween before behind

theorem Report.shownBetween_ofFailure {f : Failure} {source? : Option String}
    (h : f.cause.ShownBetween before behind) :
    (ofFailure f source?).ShownBetween before behind := by
  obtain ⟨cause, position, trail⟩ := f
  cases cause with
  | missingOperand side => cases side <;> exact h
  | unmatchedBracket =>
    obtain ⟨bracket, mem, rfl, shown⟩ := h
    exact ⟨bracket, mem, rfl, shown⟩
  | _ => exact h

/-- A text of blanks alone is never accepted. -/
theorem result_parse_of_blank {text : String} (blank : Blank text.toList) :
    (parse text).result = .error ⟨.emptyInput, text.length, []⟩ := by
  have trimmed : (Cursor.ofString text).trim = ⟨[], text.length⟩ := by
    rw [Cursor.trim_of_blank blank, Cursor.ofString, String.length_toList, Nat.zero_add]
  rw [parse, run_of_empty (by rw [trimmed]; rfl), trimmed]
  rfl

/-- Every report of a text points at its evidence in the text. -/
theorem Report.pointsInto_ofText {text : String} {r : Report}
    (reported : Reading.ofText text = .error r) : r.PointsInto text := by
  obtain ⟨f, failed, rfl⟩ := Reading.ofText_eq_error_iff.1 reported
  have evident : Evident .additive ⟨text.toList, 0⟩ f.cause f.position :=
    evident_of_run _ _ _ failed
  -- a text that is not blank never fails for being empty, and a blank one fails at once
  have empty_iff : f.cause.kind = .emptyInput ↔ Blank text.toList := by
    constructor
    · intro kind
      by_contra not_blank
      have nonempty := evident.ne_emptyInput not_blank
      cases cause : f.cause <;> simp_all [Cause.kind]
    · intro blank
      rw [result_parse_of_blank blank] at failed
      obtain rfl := Except.error.inj failed
      rfl
  obtain ⟨before, behind, eq, at_behind, shown, -⟩ := evident
  have length : text.length = before.length + behind.length := by
    rw [← String.length_toList, ← List.length_append]
    exact congrArg List.length eq
  have position : (Report.ofFailure f (some text)).position = before.length := by
    show (f.position : Int) = before.length
    rw [at_behind, Nat.zero_add]
  exact {
    source := rfl
    nonneg := by rw [position]; omega
    le_length := by rw [position, length]; omega
    empty_iff := empty_iff
    shown := ⟨before, behind, eq, position, Report.shownBetween_ofFailure shown⟩ }

/-- A product that ends with its operator is reported behind the operator. -/
theorem Report.pointsInto_missing_factor :
    ∃ r : Report, Reading.ofText "a * " = .error r ∧ r.kind = .missingOperand ∧ r.position = 3 ∧
      r.PointsInto "a * " := by
  have failed : (parse "a * ").result = .error ⟨.missingOperand .right .multiply, 3,
      [⟨.operand .right .multiply, ⟨[], 3⟩⟩]⟩ := by cbv
  have reported := Reading.ofText_eq_error_iff.2 ⟨_, failed, rfl⟩
  exact ⟨_, reported, rfl, rfl, Report.pointsInto_ofText reported⟩

end Formula
